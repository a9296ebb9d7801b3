import GuardedDump.Dump.Unmoved
import GuardedDump.Proofs.Alone
import GuardedDump.Proofs.Readings

namespace GuardedDump

theorem Violation.locate_of_located {v : Violation} {site : String}
    (located : v.finding.caller = site) : v.locate site = v := by
  unfold Violation.locate Finding.locate
  split
  · rw [← located]
  · rfl

theorem Lock.check_caller {lock : Lock} {t : Thread} {required : Access} {site : String}
    {v : Violation} (found : lock.check t required site = some v) : v.finding.caller = site := by
  unfold Lock.check at found
  split at found
  · cases found
    rfl
  · split at found
    · cases found
    · cases found
      rfl

namespace World

def objection (world : World) (ctx : Context) (p : Precondition) : Option Failure :=
  match p.checker with
  | .lock id =>
    ((world.lock id).check (p.self.getD ctx.thread) .shared ctx.callSite).map Violation.toFailure
  | .rule verdict => (verdict (p.self.getD ctx.thread)).bind world.failures.failure?

/-- The violation that the objection `failure` amounts to. -/
def charge (ctx : Context) (p : Precondition) (failure : Failure) : Violation :=
  failure.toViolation (p.self.getD ctx.thread) ctx.callSite

def Returns (world : World) (override : Option Handler) : Prop :=
  world.hooks.response = .warn ∨
    ∀ handler, (override <|> world.hooks.handler) = some handler → handler.panic = none

theorem violationOf_of_objection {world : World} {ctx : Context} {p : Precondition}
    {failure : Failure} (objects : world.objection ctx p = some failure) :
    (world.violationOf ctx (p.self.getD ctx.thread) p.checker).1 = some (charge ctx p failure) := by
  unfold objection at objects
  cases checker : p.checker with
  | lock id =>
      simp only [checker, Option.map_eq_some_iff] at objects
      obtain ⟨v, found, rfl⟩ := objects
      have same := Violation.locate_of_located (Lock.check_caller found)
      simp only [violationOf, found, charge, Failure.toViolation, Violation.toFailure,
        Failure.first?, same]
  | rule verdict =>
      simp only [checker, Option.bind_eq_some_iff] at objects
      obtain ⟨id, answer, told⟩ := objects
      simp only [violationOf, answer, world.failures.hand_eq, told, charge, Option.map_some]

theorem violationOf_of_no_objection {world : World} {ctx : Context} {p : Precondition}
    (silent : world.objection ctx p = none) :
    world.violationOf ctx (p.self.getD ctx.thread) p.checker = (none, world) := by
  unfold objection at silent
  cases checker : p.checker with
  | lock id =>
      simp only [checker, Option.map_eq_none_iff] at silent
      simp only [violationOf, silent]
  | rule verdict =>
      simp only [checker] at silent
      cases answer : verdict (p.self.getD ctx.thread) with
      | none => simp only [violationOf, answer]
      | some id =>
          simp only [answer, Option.bind_some] at silent
          simp only [violationOf, answer, Failures.hand_of_none silent]

theorem report_returns {world : World} {override : Option Handler}
    (returns : world.Returns override) (ctx : Context) (v : Violation) :
    (world.report ctx v override).1 = .ok () := by
  unfold report
  split
  · rfl
  case h_2 fatal =>
    have calm := returns.resolve_left fatal
    have taken (handler : Handler) (quiet : handler.panic = none) :
        (world.deliver ctx.thread handler v).1 = .ok () := by
      simp only [deliver, quiet]
    split
    · exact taken _ (calm _ rfl)
    case h_2 handler own => exact taken handler (calm handler own)
    · rfl

def accuse (world : World) (ctx : Context) (p : Precondition) (failure : Failure) : World :=
  ((world.violationOf ctx (p.self.getD ctx.thread) p.checker).2.report ctx (charge ctx p failure)
    p.handler).2

theorem demand_of_objection {world : World} {ctx : Context} {p : Precondition} {failure : Failure}
    (objects : world.objection ctx p = some failure) (returns : world.Returns p.handler) :
    world.demand ctx p = (.ok (some (charge ctx p failure)), world.accuse ctx p failure) := by
  have found := violationOf_of_objection objects
  have unmoved := world.violationOf_unmoved ctx (p.self.getD ctx.thread) p.checker
  unfold demand accuse
  generalize world.violationOf ctx (p.self.getD ctx.thread) p.checker = answer at *
  obtain ⟨v, after⟩ := answer
  cases found
  have calm : after.Returns p.handler := by
    unfold Returns at *
    rwa [unmoved.hooks]
  have reported := report_returns calm ctx (charge ctx p failure)
  simp only
  generalize after.report ctx (charge ctx p failure) p.handler = report at *
  obtain ⟨result, last⟩ := report
  cases reported
  rfl

theorem demand_of_no_objection {world : World} {ctx : Context} {p : Precondition}
    (silent : world.objection ctx p = none) : world.demand ctx p = (.ok none, world) := by
  simp only [demand, violationOf_of_no_objection silent]

theorem write_of_objection {world : World} {ctx : Context} {p : Precondition} {failure : Failure}
    (objects : world.objection ctx p = some failure) (returns : world.Returns p.handler)
    (value : Value) (writer : Writer) :
    world.write ctx p value writer =
      (.ok ⟨0, some (charge ctx p failure).toFailure⟩, writer, world.accuse ctx p failure) := by
  simp only [write, demand_of_objection objects returns]

theorem write_of_no_objection {world : World} {ctx : Context} {p : Precondition}
    (silent : world.objection ctx p = none) (value : Value) (writer : Writer) :
    world.write ctx p value writer = world.writeUnguarded ctx value writer := by
  simp only [write, demand_of_no_objection silent]

theorem write_gated (world : World) (ctx : Context) (p : Precondition) :
    (∀ failure, world.objection ctx p = some failure → world.Returns p.handler →
      (charge ctx p failure).toFailure.isNotHeld = true ∧
      (∀ value writer, world.write ctx p value writer =
        (.ok ⟨0, some (charge ctx p failure).toFailure⟩, writer, world.accuse ctx p failure)) ∧
      ∀ value sink, ((Operation.write p value sink).call ctx).step world =
        some (world.accuse ctx p failure,
          ⟨ctx, [], .ofSink sink, ⟨0, some (charge ctx p failure).toFailure⟩, none⟩)) ∧
    (world.objection ctx p = none →
      world.demand ctx p = (.ok none, world) ∧
      (∀ value writer, world.write ctx p value writer = world.writeUnguarded ctx value writer) ∧
      ∀ value sink, Call.Leads world ((Operation.write p value sink).call ctx)
        (Call.ended ctx (world.writeUnguarded ctx value (.ofSink sink)))) := by
  constructor
  · intro failure objects returns
    refine ⟨rfl, write_of_objection objects returns, ?_⟩
    intro value sink
    have refused := demand_of_objection objects returns
    simp only [Operation.call, Call.start, Call.step, Call.stepDemand, Role.way_result,
      Context.inside_direct, refused]
    rfl
  · intro silent
    refine ⟨demand_of_no_objection silent, write_of_no_objection silent, ?_⟩
    intro value sink
    rw [← write_of_no_objection silent]
    exact Call.operation_write_leads world ctx p value sink

def stale : World := .initial (Failures.empty.offer ⟨.wrap "replica" (.plain "stale"), by decide⟩)

def barred : Precondition where
  checker := .rule fun _ => some 0
  self := some ⟨9⟩
  handler := some ⟨"probe", none⟩

theorem stale_write_gated :
    stale.objection ⟨⟨7⟩, [], ""⟩ barred = some (.wrap "replica" (.plain "stale")) ∧
      stale.Returns barred.handler ∧
      ∀ value writer, ∃ v, (stale.write ⟨⟨7⟩, [], ""⟩ barred value writer).1 = .ok ⟨0, some v⟩ ∧
        (stale.write ⟨⟨7⟩, [], ""⟩ barred value writer).2.1 = writer := by
  have returns : stale.Returns barred.handler := by
    refine .inr fun handler chosen => ?_
    cases chosen
    rfl
  refine ⟨rfl, returns, ?_⟩
  intro value writer
  have refused := ((write_gated stale ⟨⟨7⟩, [], ""⟩ barred).1 _ rfl returns).2.1 value writer
  exact ⟨_, congrArg Prod.fst refused, congrArg (fun outcome => outcome.2.1) refused⟩

end World

end GuardedDump
