import GuardedDump.Proofs.Misuse
import GuardedDump.Proofs.Notices

namespace GuardedDump

namespace Lock

variable {lock : Lock} {t : Thread} {hold : Hold} {required : Access} {site : String}
  {v : Violation}

theorem heldBy_eq_some_iff :
    lock.heldBy t = some hold ↔ t ≠ .unknown ∧ lock.table.get? t = some hold := by
  unfold heldBy
  split
  case isTrue known =>
    have named : t ≠ .unknown := by
      intro same
      rw [t.isKnown_eq_false_iff.mpr same] at known
      cases known
    simp [named]
  case isFalse strange =>
    have unknown : t = .unknown := t.isKnown_eq_false_iff.mp (by simpa using strange)
    simp [unknown]

theorem check_eq_none_iff :
    lock.check t required site = none ↔
      ∃ hold, lock.heldBy t = some hold ∧ hold.mode.grants required = true := by
  unfold check
  cases lock.heldBy t with
  | none => simp
  | some hold => by_cases granted : hold.mode.grants required = true <;> simp [granted]

theorem check_eq_some (found : lock.check t required site = some v) :
    v.finding.lock = lock.name ∧ v.finding.thread = t ∧ v.finding.required = required.mode ∧
      v.finding.holding = (lock.heldBy t).isSome ∧
      ∀ hold, lock.heldBy t = some hold → v.finding.heldMode = hold.mode := by
  unfold check at found
  split at found
  case h_1 absent =>
    cases found
    simp [absent]
  case h_2 hold present =>
    split at found <;> cases found
    simp [present]

structure Judges (lock : Lock) (t : Thread) (site : String) : Prop where
  shared : lock.check t .shared site = none ↔
    t ≠ .unknown ∧ ∃ hold, lock.table.get? t = some hold
  exclusive : lock.check t .exclusive site = none ↔
    t ≠ .unknown ∧ ∃ hold, lock.table.get? t = some hold ∧ hold.mode = .exclusive
  violation : ∀ required v, lock.check t required site = some v →
    v.finding.lock = lock.name ∧ v.finding.thread = t ∧ v.finding.required = required.mode ∧
      (v.finding.holding = true ↔ t ≠ .unknown ∧ ∃ hold, lock.table.get? t = some hold) ∧
      ∀ hold, t ≠ .unknown → lock.table.get? t = some hold → v.finding.heldMode = hold.mode

theorem judges (lock : Lock) (t : Thread) (site : String) : lock.Judges t site where
  shared := by simp [check_eq_none_iff, heldBy_eq_some_iff, Mode.grants]
  exclusive := by simp [check_eq_none_iff, heldBy_eq_some_iff, Mode.grants, and_assoc]
  violation required v found := by
    obtain ⟨name, thread, mode, holding, held⟩ := check_eq_some found
    refine ⟨name, thread, mode, ?_, ?_⟩
    · rw [holding, Option.isSome_iff_exists]
      simp [heldBy_eq_some_iff]
    · intro hold known record
      exact held hold (heldBy_eq_some_iff.mpr ⟨known, record⟩)

end Lock

namespace Session

variable {failures : Failures} {session : Session}

theorem ofResult_cases (session : Session) (reply : Reply) (result : Except Panic Unit × World) :
    (session.ofResult reply result).2 = { session with world := result.2 } ∧
      ((session.ofResult reply result).1 = .returned reply ∨
        ∃ panic, (session.ofResult reply result).1 = .panicked panic) := by
  obtain ⟨outcome, world⟩ := result
  cases outcome with
  | ok => exact ⟨rfl, .inl rfl⟩
  | error panic => exact ⟨rfl, .inr ⟨panic, rfl⟩⟩

/-- What comes of insisting that a check of `t` passes: nothing, or the report of the violation that
the check finds. -/
structure Insists (session : Session) (ctx : Context) (id : LockId) (t : Thread)
    (required : Access) : Prop where
  passes : (session.world.lock id).check t required ctx.callSite = none →
    session.perform ctx (.insist id t required) = (.returned .nothing, session)
  fails : ∀ v, (session.world.lock id).check t required ctx.callSite = some v →
    (session.perform ctx (.insist id t required)).2 =
      { session with world := session.world.take (session.world.notice ctx v none) }
  prompt : (session.perform ctx (.insist id t required)).1 = .returned .nothing ∨
    ∃ panic, (session.perform ctx (.insist id t required)).1 = .panicked panic
  unmoved : World.Unmoved session.world (session.perform ctx (.insist id t required)).2.world

theorem insists (session : Session) (ctx : Context) (id : LockId) (t : Thread) (required : Access) :
    session.Insists ctx id t required := by
  cases found : (session.world.lock id).check t required ctx.callSite with
  | none =>
      have quiet : session.perform ctx (.insist id t required) = (.returned .nothing, session) := by
        simp only [perform, found, returned]
      refine ⟨fun _ => quiet, ?_, ?_, ?_⟩
      · intro v violated
        rw [found] at violated
        cases violated
      · rw [quiet]
        exact .inl rfl
      · rw [quiet]
        exact .refl _
  | some v =>
      have reported : session.perform ctx (.insist id t required) =
          session.ofResult .nothing (session.world.report ctx v none) := by
        simp only [perform, found]
      obtain ⟨after, ending⟩ :=
        session.ofResult_cases .nothing (session.world.report ctx v none)
      rw [← reported] at after ending
      refine ⟨?_, ?_, ending, ?_⟩
      · intro silent
        rw [found] at silent
        cases silent
      · intro w violated
        rw [found] at violated
        cases violated
        rw [after, (session.world.report_take ctx v none).1]
      · rw [after]
        exact session.world.report_unmoved ctx v none

structure Consulted (session : Session) (ctx : Context) (id : LockId) (t : Thread) : Prop where
  judges : (session.world.lock id).Judges t ctx.callSite
  checked : ∀ required, session.perform ctx (.check id t required) =
    (.returned (.failure (((session.world.lock id).check t required ctx.callSite).map
      Violation.toFailure)), session)
  asked : session.perform ctx (.isHeld id t) =
    (.returned (.held ((session.world.lock id).hasHold t)
      ((session.world.lock id).hasExclusiveHold t)), session)
  insists : ∀ required, session.Insists ctx id t required
  gateless : ∀ gate required,
    { session.world.lock id with gate }.check t required ctx.callSite =
        (session.world.lock id).check t required ctx.callSite ∧
      { session.world.lock id with gate }.hasHold t = (session.world.lock id).hasHold t ∧
      { session.world.lock id with gate }.hasExclusiveHold t =
        (session.world.lock id).hasExclusiveHold t

theorem hasHold_eq_check (reachable : Reachable failures session) (id : LockId) (t : Thread)
    (site : String) :
    (session.world.lock id).hasHold t =
        ((session.world.lock id).check t .shared site).isNone ∧
      (session.world.lock id).hasExclusiveHold t =
        ((session.world.lock id).check t .exclusive site).isNone := by
  have agrees := reachable.sound.agrees id
  have same : (session.world.lock id).heldBy t = (session.world.lock id).table.get? t := by
    unfold Lock.heldBy
    split
    · rfl
    case isFalse strange =>
      cases record : (session.world.lock id).table.get? t with
      | none => rfl
      | some hold => exact absurd (agrees.owns_of_record record).1 strange
  unfold Lock.hasHold Lock.hasExclusiveHold Lock.check
  rw [same]
  cases (session.world.lock id).table.get? t with
  | none => exact ⟨rfl, rfl⟩
  | some hold => by_cases mode : hold.mode = .exclusive <;> simp [Mode.grants, mode]

theorem checks_read_table (session : Session) (ctx : Context) (id : LockId) (t : Thread) :
    session.Consulted ctx id t ∧
      (∀ failures, Reachable failures session →
        (session.world.lock id).hasHold t =
            ((session.world.lock id).check t .shared ctx.callSite).isNone ∧
          (session.world.lock id).hasExclusiveHold t =
            ((session.world.lock id).check t .exclusive ctx.callSite).isNone) := by
  refine ⟨⟨Lock.judges .., fun _ => rfl, rfl, session.insists ctx id t, fun _ _ => ⟨rfl, rfl, rfl⟩⟩,
    ?_⟩
  intro failures reachable
  exact hasHold_eq_check reachable id t ctx.callSite

def strayed : Session :=
  ((initial .empty).perform (.bare 1) (.inject 0 .unknown .exclusive "stray" "" 1 .zero)).2

/-- Thread 1 of the crowd may read and not write. The stray record is seen by the query and by no
check. -/
theorem crowd_checks_read_table :
    Reachable .empty crowded ∧ crowded.Consulted (.bare 7) 0 ⟨1⟩ ∧
      ((crowded.world.lock 0).check ⟨1⟩ .shared "unknown").isNone = true ∧
      ((crowded.world.lock 0).check ⟨1⟩ .exclusive "unknown").map
          (fun v => (v.finding.holding, v.finding.heldMode)) = some (true, .shared) ∧
      (crowded.world.lock 0).hasHold .unknown =
        ((crowded.world.lock 0).check .unknown .shared (Context.bare 7).callSite).isNone ∧
      strayed.Consulted (.bare 7) 0 .unknown ∧
      (strayed.world.lock 0).hasHold .unknown = true ∧
      ((strayed.world.lock 0).check .unknown .shared "unknown").map
          (fun v => v.finding.holding) = some false := by
  refine ⟨crowded_reachable, (checks_read_table crowded (.bare 7) 0 ⟨1⟩).1, by decide +kernel,
    by decide +kernel, ?_, (checks_read_table strayed (.bare 7) 0 .unknown).1, by decide +kernel,
    by decide +kernel⟩
  exact ((checks_read_table crowded (.bare 7) 0 .unknown).2 .empty crowded_reachable).1

end Session

end GuardedDump
