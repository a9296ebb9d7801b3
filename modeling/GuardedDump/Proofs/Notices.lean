import GuardedDump.Proofs.Refusal

/-!
# The checks of a write

A violation with its destination is a notice. A write is handed errors by rules, writes its call
sites into them, and brings the notices of its failed checks to their destinations, one after the
other. All of this can be told from the value and the world, and it is everything that a write does
to the world (`World.dump_settled`).
-/

namespace GuardedDump

inductive Destination where
  | warning
  | handler (handler : Handler)
  | exit
  deriving DecidableEq

def Hooks.destination (hooks : Hooks) (override : Option Handler) : Destination :=
  if hooks.response = .warn then .warning
  else
    match override <|> hooks.handler with
    | some handler => .handler handler
    | none => .exit

structure Notice where
  ctx : Context
  violation : Violation
  destination : Destination

namespace Notice

def returns (notice : Notice) : Bool :=
  match notice.destination with
  | .handler handler => handler.panic.isNone
  | _ => true

end Notice

namespace World

def notice (world : World) (ctx : Context) (v : Violation) (override : Option Handler) : Notice :=
  ⟨ctx, v, world.hooks.destination override⟩

def notice? (world : World) (ctx : Context) (p : Precondition) : Option Notice :=
  (world.objection ctx p).map fun failure => world.notice ctx (charge ctx p failure) p.handler

def take (world : World) (notice : Notice) : World :=
  match notice.destination with
  | .warning =>
    (world.warn notice.ctx.thread (warningKey notice.violation) (warningText notice.violation)).2
  | .handler handler => world.emit notice.ctx.thread (.delivered handler notice.violation)
  | .exit => world.abort notice.ctx notice.violation

theorem report_take (world : World) (ctx : Context) (v : Violation) (override : Option Handler) :
    (world.report ctx v override).2 = world.take (world.notice ctx v override) ∧
      ((world.report ctx v override).1 = .ok () ↔ (world.notice ctx v override).returns = true) := by
  have taken (handler : Handler) :
      (world.deliver ctx.thread handler v).2 = world.emit ctx.thread (.delivered handler v) ∧
        ((world.deliver ctx.thread handler v).1 = .ok () ↔ handler.panic.isNone = true) := by
    unfold deliver
    cases handler.panic <;> simp
  unfold report take Notice.returns notice Hooks.destination
  split
  case h_1 warning => simp [warning]
  case h_2 fatal =>
    rw [if_neg fatal]
    cases override with
    | some handler => exact taken handler
    | none => cases world.hooks.handler with
      | some handler => exact taken handler
      | none => exact ⟨rfl, by simp⟩

end World

structure Handout where
  id : FailureId
  self : Thread
  ctx : Context

namespace Handout

def site (handout : Handout) : String :=
  handout.ctx.callSite

def write (failures : Failures) (handout : Handout) : Failures :=
  (failures.hand handout.id handout.self handout.site).2

theorem handed_written (handouts : List Handout) (failures : Failures) :
    (handouts.foldl write failures).handed = failures.handed := by
  induction handouts generalizing failures with
  | nil => rfl
  | cons handout more ih => exact (ih _).trans (failures.handed_hand ..)

end Handout

def Precondition.handout? (ctx : Context) (p : Precondition) : Option Handout :=
  match p.checker with
  | .lock _ => none
  | .rule verdict => (verdict (p.self.getD ctx.thread)).map fun id => ⟨id, p.self.getD ctx.thread, ctx⟩

structure Check where
  handout? : Option Handout
  notice : Notice

/-- The failed checks of a write, in their order, and whether it comes to its end. -/
structure Account where
  checks : List Check
  complete : Bool

namespace Account

def none : Account := ⟨[], true⟩

def notices (account : Account) : List Notice := account.checks.map Check.notice

def handouts (account : Account) : List Handout := account.checks.filterMap Check.handout?

end Account

namespace World

def bear (world : World) (check : Check) : World :=
  take { world with failures := check.handout?.toList.foldl Handout.write world.failures } check.notice

def after (world : World) (account : Account) : World :=
  account.checks.foldl bear world

theorem hooks_take (world : World) (notice : Notice) : (world.take notice).hooks = world.hooks := by
  unfold take
  split
  · unfold warn
    split <;> rfl
  · rfl
  · rfl

theorem failures_take (world : World) (notice : Notice) :
    (world.take notice).failures = world.failures := by
  unfold take
  split
  · unfold warn
    split <;> rfl
  · rfl
  · rfl

theorem failures_after (world : World) (account : Account) :
    (world.after account).failures = account.handouts.foldl Handout.write world.failures := by
  unfold after Account.handouts
  induction account.checks generalizing world with
  | nil => rfl
  | cons check more ih =>
      rw [List.foldl_cons, ih, bear, failures_take]
      cases found : check.handout? <;> simp [found]

/-- Both worlds would take any notice in the same way and have taken the same ones before. -/
structure Echoes (a b : World) : Prop where
  hooks : b.hooks = a.hooks
  history : b.history = a.history
  warned : b.warned = a.warned

theorem Echoes.take {a b : World} (echoes : Echoes a b) (notice : Notice) :
    Echoes (a.take notice) (b.take notice) := by
  obtain ⟨hooks, history, warned⟩ := echoes
  unfold World.take
  split
  · unfold warn
    rw [warned]
    split
    · exact ⟨hooks, history, warned⟩
    · exact ⟨hooks, by simp [log, emit, history, hooks], by simp [log, emit]⟩
  · exact ⟨hooks, by simp [emit, history], warned⟩
  · exact ⟨hooks, by simp [abort, log, emit, history, hooks], warned⟩

theorem Echoes.bear {a b : World} (echoes : Echoes a b) (check : Check) :
    Echoes (a.take check.notice) (b.bear check) := by
  let failures := check.handout?.toList.foldl Handout.write b.failures
  have same : Echoes a { b with failures } := ⟨echoes.hooks, echoes.history, echoes.warned⟩
  exact same.take check.notice

theorem echoes_after (world : World) (account : Account) :
    Echoes (account.notices.foldl take world) (world.after account) := by
  have all (checks : List Check) {a b : World} (echoes : Echoes a b) :
      Echoes ((checks.map Check.notice).foldl take a) (checks.foldl bear b) := by
    induction checks generalizing a b with
    | nil => exact echoes
    | cons check more ih => exact ih (echoes.bear check)
  exact all account.checks ⟨rfl, rfl, rfl⟩

end World

def Precondition.failed (ctx : Context) (p : Precondition) (notice : Notice) : Account :=
  ⟨[⟨p.handout? ctx, notice⟩], notice.returns⟩

namespace World

variable {world : World} {ctx : Context} {p : Precondition} {notice : Notice}

theorem violationOf_world (world : World) (ctx : Context) (p : Precondition) :
    (world.violationOf ctx (p.self.getD ctx.thread) p.checker).2 =
      { world with failures := (p.handout? ctx).toList.foldl Handout.write world.failures } := by
  unfold Precondition.handout?
  cases p.checker with
  | lock id => rfl
  | rule verdict =>
      simp only [violationOf]
      cases verdict (p.self.getD ctx.thread) <;> rfl

theorem demand_silent (silent : world.notice? ctx p = none) :
    world.demand ctx p = (.ok none, world) :=
  demand_of_no_objection (Option.map_eq_none_iff.mp silent)

theorem demand_failed (failed : world.notice? ctx p = some notice) :
    notice.returns = true ∧
        (∃ v, world.demand ctx p = (.ok (some v), world.after (p.failed ctx notice))) ∨
      notice.returns = false ∧
        ∃ panic, world.demand ctx p = (.error panic, world.after (p.failed ctx notice)) := by
  obtain ⟨failure, objects, rfl⟩ := Option.map_eq_some_iff.mp failed
  have found := violationOf_of_objection objects
  have given := world.violationOf_world ctx p
  unfold demand
  generalize world.violationOf ctx (p.self.getD ctx.thread) p.checker = answer at found given
  obtain ⟨v, next⟩ := answer
  cases found
  simp only at given
  have hooks : next.hooks = world.hooks := by rw [given]
  obtain ⟨taken, returns⟩ := next.report_take ctx (charge ctx p failure) p.handler
  have same : next.notice ctx (charge ctx p failure) p.handler =
      world.notice ctx (charge ctx p failure) p.handler := by
    unfold World.notice
    rw [hooks]
  rw [same] at taken returns
  have left : (next.report ctx (charge ctx p failure) p.handler).2 =
      world.after (p.failed ctx (world.notice ctx (charge ctx p failure) p.handler)) := by
    rw [taken, given]
    rfl
  simp only
  generalize next.report ctx (charge ctx p failure) p.handler = report at left returns
  obtain ⟨result, last⟩ := report
  cases left
  cases result with
  | ok => exact .inl ⟨returns.mp rfl, _, rfl⟩
  | error panic => exact .inr ⟨by simpa using returns, panic, rfl⟩

def accountOf (world : World) (ctx : Context) (p : Precondition) (inner : World → Account) :
    Account :=
  match world.notice? ctx p with
  | some notice => p.failed ctx notice
  | none => inner world

end World

def Account.andThen (first : Account) (world : World) (second : World → Account) : Account :=
  if first.complete then
    let more := second (world.after first)
    ⟨first.checks ++ more.checks, more.complete⟩
  else first

def Value.account (ctx : Context) : Value → World → Account
  | done, _ => .none
  | bytes _ rest, world => rest.account ctx world
  | listing _ _ rest, world => rest.account ctx world
  | guarded way p inner rest, world =>
    (world.accountOf (ctx.inside way) p (inner.account (ctx.inside way))).andThen world
      (rest.account ctx)
  | raise _, _ => ⟨[], false⟩

namespace World

/-- A part of a write makes the checks of `account` and does nothing else to the world. -/
structure Settled {α : Type} (world : World) (account : Account) (dumped : Dumped α) : Prop where
  left : dumped.2.2 = world.after account
  complete : dumped.1.isOk = account.complete

namespace Settled

variable {α : Type} {world : World} {first : Account} {second : World → Account}
  {dumped : Dumped α}

theorem andThen (complete : first.complete = true)
    (settled : (world.after first).Settled (second (world.after first)) dumped) :
    world.Settled (first.andThen world second) dumped := by
  obtain ⟨left, ends⟩ := settled
  rw [Account.andThen, if_pos complete]
  exact ⟨left.trans List.foldl_append.symm, ends⟩

theorem stop (incomplete : first.complete = false) (settled : world.Settled first dumped) :
    world.Settled (first.andThen world second) dumped := by
  rw [Account.andThen, if_neg (by simp [incomplete])]
  exact settled

end Settled

theorem dump_settled (ctx : Context) (value : Value) (writer : Writer) (world : World) :
    world.Settled (value.account ctx world) (value.dump ctx writer world) := by
  induction value generalizing ctx writer world with
  | done | raise => exact ⟨rfl, rfl⟩
  | bytes part rest ih => exact ih ..
  | listing lock selection rest ih => exact ih ..
  | guarded way p inner rest within behind =>
      simp only [Value.account, accountOf]
      cases found : world.notice? (ctx.inside way) p with
      | some notice =>
          rcases demand_failed found with ⟨returns, v, refused⟩ | ⟨returns, panic, refused⟩
          · simp only [Value.dump, refused]
            exact .andThen returns (behind ..)
          · simp only [Value.dump, refused]
            exact .stop returns ⟨rfl, returns.symm⟩
      | none =>
          -- The inner value comes first; if it panics, the rest is not looked at.
          have settled := within (ctx.inside way) writer.push world
          simp only [Value.dump, demand_silent found]
          generalize inner.dump (ctx.inside way) writer.push world = dumped at settled
          obtain ⟨outcome, written, next⟩ := dumped
          obtain ⟨rfl, complete⟩ := settled
          cases outcome with
          | error panic => exact .stop complete.symm ⟨rfl, complete⟩
          | ok => exact .andThen complete.symm (behind ..)

theorem writeUnguarded_settled (world : World) (ctx : Context) (value : Value) (writer : Writer) :
    world.Settled (value.account ctx world) (world.writeUnguarded ctx value writer) := by
  have settled := dump_settled ctx value writer.push world
  unfold writeUnguarded
  generalize value.dump ctx writer.push world = dumped at settled
  obtain ⟨outcome, written, next⟩ := dumped
  cases outcome <;> exact ⟨settled.left, settled.complete⟩

theorem write_settled (world : World) (ctx : Context) (p : Precondition) (value : Value)
    (writer : Writer) :
    world.Settled (world.accountOf ctx p (value.account ctx)) (world.write ctx p value writer) := by
  unfold accountOf
  cases found : world.notice? ctx p with
  | none =>
      simp only [write, demand_silent found]
      exact writeUnguarded_settled ..
  | some notice =>
      rcases demand_failed found with ⟨returns, v, refused⟩ | ⟨returns, panic, refused⟩
      · simp only [write, refused]
        exact ⟨rfl, returns.symm⟩
      · simp only [write, refused]
        exact ⟨rfl, returns.symm⟩

def accountOfAny (world : World) (ctx : Context) (p : Option Precondition) (value : Value) :
    Account :=
  match p with
  | none => value.account ctx world
  | some p => world.accountOf ctx p (value.account ctx)

theorem writeAny_settled (world : World) (ctx : Context) (p : Option Precondition) (value : Value)
    (writer : Writer) :
    world.Settled (world.accountOfAny ctx p value) (world.writeAny ctx p value writer) := by
  cases p with
  | none => exact writeUnguarded_settled ..
  | some p => exact write_settled ..

theorem writeBetween_left (world : World) (ctx : Context) (p : Precondition) (value : Value)
    (lead tail : String) (writer : Writer) :
    (world.writeBetween ctx p value lead tail writer).2.2 =
      world.after (world.accountOf ctx p (value.account ctx)) := by
  rw [← (world.write_settled ctx p value (writer.put (Text.bytes lead))).left]
  unfold writeBetween
  generalize world.write ctx p value (writer.put (Text.bytes lead)) = dumped
  obtain ⟨outcome, written, next⟩ := dumped
  cases outcome <;> rfl

theorem render_left (world : World) (ctx : Context) (p : Option Precondition) (value : Value) :
    (world.render ctx p value).2 = world.after (world.accountOfAny ctx p value) := by
  rw [← (world.writeAny_settled ctx p value (.ofSink .unlimited)).left]
  unfold render
  generalize world.writeAny ctx p value (.ofSink .unlimited) = dumped
  obtain ⟨outcome, written, next⟩ := dumped
  cases outcome <;> rfl

theorem format_left (world : World) (ctx : Context) (p : Option Precondition) (value : Value)
    (verb : Char) (lead tail : String) :
    (world.format ctx p value verb lead tail).2 = world.after (world.accountOfAny ctx p value) := by
  rw [← (world.writeAny_settled ctx p value ((Writer.ofSink .unlimited).put (Text.bytes lead))).left]
  unfold format
  generalize world.writeAny ctx p value ((Writer.ofSink .unlimited).put (Text.bytes lead)) = dumped
  obtain ⟨outcome, written, next⟩ := dumped
  cases outcome <;> rfl

end World

end GuardedDump
