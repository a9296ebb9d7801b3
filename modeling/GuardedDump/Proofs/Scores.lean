import GuardedDump.Proofs.Renderings

namespace GuardedDump

namespace World

/-- Checks cannot tell `after` from `before`: at most the history, the warnings given and the call
sites written into failures differ. -/
structure Kin (before after : World) : Prop extends Unmoved before after where
  handed : after.failures.handed = before.failures.handed

variable {a b c : World} {ctx : Context} {p : Precondition}

theorem Kin.refl (world : World) : Kin world world := ⟨.refl world, rfl⟩

theorem Kin.trans (first : Kin a b) (second : Kin b c) : Kin a c :=
  ⟨first.toUnmoved.trans second.toUnmoved, second.handed.trans first.handed⟩

theorem demand_kin (world : World) (ctx : Context) (p : Precondition) :
    Kin world (world.demand ctx p).2 := by
  refine ⟨world.demand_unmoved ctx p, ?_⟩
  cases found : world.notice? ctx p with
  | none => rw [demand_silent found]
  | some notice =>
      rcases demand_failed found with ⟨-, v, refused⟩ | ⟨-, panic, refused⟩
      all_goals rw [refused, failures_after, Handout.handed_written]

def verdict (world : World) (ctx : Context) (p : Precondition) : Except Panic Bool :=
  (world.demand ctx p).1.map Option.isNone

theorem report_same (same : b.hooks = a.hooks) (v w : Violation) (override : Option Handler) :
    (b.report ctx w override).1 = (a.report ctx v override).1 := by
  have delivers (handler : Handler) :
      (b.deliver ctx.thread handler w).1 = (a.deliver ctx.thread handler v).1 := by
    simp only [deliver]
    cases handler.panic <;> rfl
  simp only [report, same]
  split
  · rfl
  · split
    · apply delivers
    · apply delivers
    · rfl

theorem verdict_of_objection {failure : Failure} (objects : a.objection ctx p = some failure)
    (v : Violation) : a.verdict ctx p = (a.report ctx v p.handler).1.map fun _ => false := by
  have found := violationOf_of_objection objects
  have unmoved := a.violationOf_unmoved ctx (p.self.getD ctx.thread) p.checker
  simp only [verdict, demand]
  generalize a.violationOf ctx (p.self.getD ctx.thread) p.checker = answer at found unmoved
  obtain ⟨charged, after⟩ := answer
  cases found
  rw [← report_same unmoved.hooks v (charge ctx p failure)]
  simp only
  generalize after.report ctx (charge ctx p failure) p.handler = report
  obtain ⟨result, last⟩ := report
  cases result <;> rfl

theorem verdict_of_no_objection (silent : a.objection ctx p = none) :
    a.verdict ctx p = .ok true := by
  rw [verdict, demand_of_no_objection silent]
  rfl

theorem Kin.objection (kin : Kin a b) (ctx : Context) (p : Precondition) :
    b.objection ctx p = none ↔ a.objection ctx p = none := by
  cases checker : p.checker with
  | lock id => simp only [World.objection, checker, kin.lock]
  | rule verdict =>
      simp only [World.objection, checker]
      cases verdict (p.self.getD ctx.thread) with
      | none => rfl
      | some id =>
          simp only [Option.bind_some, Failures.failure?, Option.map_eq_none_iff, kin.handed]

theorem Kin.verdict (kin : Kin a b) (ctx : Context) (p : Precondition) :
    b.verdict ctx p = a.verdict ctx p := by
  cases first : a.objection ctx p with
  | none =>
      rw [verdict_of_no_objection first, verdict_of_no_objection ((kin.objection ctx p).mpr first)]
  | some failure =>
      cases second : b.objection ctx p with
      | none =>
          rw [(kin.objection ctx p).mp second] at first
          cases first
      | some other =>
          let v := charge ctx p failure
          rw [verdict_of_objection first v, verdict_of_objection second v,
            report_same kin.hooks v v]

end World

/-- How a thread will go on: the payloads that it will write, one call each, and how it ends. -/
structure Score where
  payloads : List (List UInt8)
  ending : Except Panic Unit

namespace Score

def rest : Score := ⟨[], .ok ()⟩

def behind (sent : List (List UInt8)) (score : Score) : Score :=
  ⟨sent ++ score.payloads, score.ending⟩

def andThen (first second : Score) : Score :=
  match first.ending with
  | .error _ => first
  | .ok () => second.behind first.payloads

theorem behind_behind (sent more : List (List UInt8)) (score : Score) :
    (score.behind more).behind sent = score.behind (sent ++ more) := by
  simp only [behind, List.append_assoc]

@[simp] theorem andThen_rest (score : Score) : score.andThen rest = score := by
  obtain ⟨payloads, ending⟩ := score
  cases ending with
  | error panic => rfl
  | ok => simp only [andThen, behind, rest, List.append_nil]

theorem behind_andThen (sent : List (List UInt8)) (first second : Score) :
    (first.behind sent).andThen second = (first.andThen second).behind sent := by
  obtain ⟨payloads, ending⟩ := first
  cases ending with
  | error panic => rfl
  | ok => simp only [andThen, behind, List.append_assoc]

theorem andThen_assoc (first second third : Score) :
    (first.andThen second).andThen third = first.andThen (second.andThen third) := by
  obtain ⟨payloads, ending⟩ := first
  cases ending with
  | error panic => rfl
  | ok => exact behind_andThen payloads second third

end Score

namespace Value

variable {a b : World} {ctx : Context}

def score (ctx : Context) (world : World) (value : Value) : Score :=
  ⟨value.payloads ctx world, (value.script ctx world).1⟩

def gated (inner rest : Score) : Except Panic Bool → Score
  | .error panic => ⟨[], .error panic⟩
  | .ok false => rest
  | .ok true => inner.andThen rest

theorem script_kin (ctx : Context) (value : Value) (world : World) :
    World.Kin world (value.script ctx world).2.2 := by
  induction value generalizing ctx world with
  | done | raise => exact .refl world
  | bytes part rest ih => exact ih ctx world
  | listing lock selection rest ih => exact ih ctx world
  | guarded way p inner rest within behind =>
      have checked := world.demand_kin (ctx.inside way) p
      simp only [script]
      generalize world.demand (ctx.inside way) p = demand at checked ⊢
      obtain ⟨result, next⟩ := demand
      rcases result with panic | (none | v)
      · exact checked
      · have inside := checked.trans (within (ctx.inside way) next)
        simp only at inside ⊢
        generalize inner.script (ctx.inside way) next = part at inside ⊢
        obtain ⟨ending, sent, between⟩ := part
        cases ending with
        | error panic => exact inside
        | ok => exact inside.trans (behind ctx between)
      · exact checked.trans (behind ctx next)

theorem score_guarded_after (ctx : Context) (world : World) (way : Way) (p : Precondition)
    (inner rest : Value) : ∃ next last, World.Kin world next ∧ World.Kin world last ∧
      (guarded way p inner rest).score ctx world = gated (inner.score (ctx.inside way) next)
        (rest.score ctx last) (world.verdict (ctx.inside way) p) := by
  have checked := world.demand_kin (ctx.inside way) p
  simp only [score, payloads, script, World.verdict]
  generalize world.demand (ctx.inside way) p = demand at checked ⊢
  obtain ⟨result, next⟩ := demand
  rcases result with panic | (none | v)
  · exact ⟨next, next, checked, checked, rfl⟩
  · have inside := checked.trans (inner.script_kin (ctx.inside way) next)
    refine ⟨next, (inner.script (ctx.inside way) next).2.2, checked, inside, ?_⟩
    simp only
    generalize inner.script (ctx.inside way) next = part at inside ⊢
    obtain ⟨ending, sent, between⟩ := part
    cases ending <;> rfl
  · exact ⟨next, next, checked, checked, rfl⟩

theorem score_kin (ctx : Context) (value : Value) (kin : World.Kin a b) :
    value.score ctx b = value.score ctx a := by
  induction value generalizing ctx a b with
  | done | raise => rfl
  | bytes part rest ih => exact congrArg (Score.behind [part]) (ih ctx kin)
  | listing lock selection rest ih =>
      have later := congrArg (Score.behind ((a.lock lock).payloads selection a.now)) (ih ctx kin)
      simp only [score, payloads, script, kin.lock, kin.now] at later ⊢
      exact later
  | guarded way p inner rest within behind =>
      obtain ⟨next, last, first, second, here⟩ := score_guarded_after ctx a way p inner rest
      obtain ⟨next', last', first', second', there⟩ := score_guarded_after ctx b way p inner rest
      rw [here, there, kin.verdict, within _ first, behind _ second, within _ (kin.trans first'),
        behind _ (kin.trans second')]

theorem score_guarded (ctx : Context) (world : World) (way : Way) (p : Precondition)
    (inner rest : Value) : (guarded way p inner rest).score ctx world =
      gated (inner.score (ctx.inside way) world) (rest.score ctx world)
        (world.verdict (ctx.inside way) p) := by
  obtain ⟨next, last, first, second, same⟩ := score_guarded_after ctx world way p inner rest
  rw [same, score_kin _ inner first, score_kin ctx rest second]

theorem score_lines (ctx : Context) (world : World) (lines : List (List UInt8)) (rest : Value) :
    (lines.foldr bytes rest).score ctx world = (rest.score ctx world).behind lines := by
  induction lines with
  | nil => rfl
  | cons line more ih => exact congrArg (Score.behind [line]) ih

end Value

namespace Task

def score (ctx : Context) (world : World) : Task → Score
  | dump role _ value => value.score (ctx.inside role.way) world
  | demand role p value => (World.alone p value).score (ctx.inside role.way) world
  | _ => .rest

def scores (ctx : Context) (world : World) : List Task → Score
  | [] => .rest
  | task :: more => (task.score ctx world).andThen (scores ctx world more)

theorem score_alone (ctx : Context) (world : World) (p : Precondition) (value : Value) :
    (World.alone p value).score ctx world =
      Value.gated (value.score ctx world) .rest (world.verdict ctx p) :=
  Value.score_guarded ctx world .direct p value .done

theorem scores_guarded (ctx : Context) (world : World) (role : Role) (way : Way) (q p : Precondition)
    (inner rest : Value) (more : List Task) :
    scores ctx world (.demand (.inner (role.way.further way)) p inner :: .dump role q rest :: more) =
      scores ctx world (.dump role q (.guarded way p inner rest) :: more) := by
  simp only [scores, score, Role.way_inner, Context.inside_further, score_alone, Value.score_guarded,
    ← Score.andThen_assoc]
  congr 1
  rcases world.verdict ((ctx.inside role.way).inside way) p with panic | (_ | _)
  · rfl
  · rfl
  · simp only [Value.gated, Score.andThen_rest]

end Task

end GuardedDump
