import GuardedDump.Proofs.Turn
import Mathlib.Data.List.Perm.Basic

namespace GuardedDump

namespace Lock.Agrees

variable {lock : Lock} {phase : Thread → Phase} {t u : Thread} {hold : Hold} {access : Access}

theorem owns_of_record (agrees : lock.Agrees phase) (record : lock.table.get? t = some hold) :
    t.isKnown = true ∧ ∃ access, lock.owns t access = true ∧ hold.Backs access := by
  have fits := agrees.each t
  rw [record] at fits
  obtain ⟨known, access, place, backs⟩ := fits.backs
  exact ⟨known, access, agrees.gate.owns_iff.mpr place, backs⟩

theorem excludes (agrees : lock.Agrees phase) (owner : lock.owns t access = true)
    (different : u ≠ t) : lock.owns u .exclusive = false := by
  rw [Lock.owns, agrees.gate.owns_iff] at owner
  have shut := agrees.gate.excludes owner different
  cases owned : lock.owns u .exclusive with
  | false => rfl
  | true => exact absurd (agrees.gate.owns_iff.mp owned) shut

theorem owns_exclusive_of_record (agrees : lock.Agrees phase)
    (record : lock.table.get? t = some hold) (mode : hold.mode = .exclusive) :
    lock.owns t .exclusive = true ∧ hold.count = 1 := by
  obtain ⟨-, access, owner, backs⟩ := agrees.owns_of_record record
  have exclusive : access = .exclusive := Access.mode_injective (backs.mode.symm.trans mode)
  subst exclusive
  exact ⟨owner, backs.single rfl⟩

theorem alone (agrees : lock.Agrees phase) (member : (t, hold) ∈ lock.table.entries)
    (mode : hold.mode = .exclusive) : lock.table.entries = [(t, hold)] := by
  have record := agrees.table.get?_eq_some_iff.mpr member
  have writer := (agrees.owns_exclusive_of_record record mode).1
  have only : ∀ entry ∈ lock.table.entries, entry.1 = t := by
    intro entry other
    by_contra different
    obtain ⟨-, access, owner, -⟩ :=
      agrees.owns_of_record (agrees.table.get?_eq_some_iff.mpr other)
    have shut := agrees.excludes owner (Ne.symm different)
    rw [writer] at shut
    cases shut
  have distinct := agrees.table
  unfold Table.Distinct at distinct
  generalize lock.table.entries = entries at member only distinct
  cases entries with
  | nil => cases member
  | cons first rest =>
      have head := only first (by simp)
      cases rest with
      | nil =>
          simp only [List.mem_singleton] at member
          rw [member]
      | cons second more =>
          have next := only second (by simp)
          simp [head, next] at distinct

theorem readers_perm (agrees : lock.Agrees phase)
    (settled : ∀ t access, lock.owns t access = true →
      ∃ hold, lock.table.get? t = some hold ∧ hold.mode = access.mode) :
    lock.gate.readers.Perm
      ((lock.table.entries.filter fun entry => entry.2.mode = .shared).map Prod.fst) := by
  have distinct : lock.gate.readers.Nodup :=
    agrees.gate.distinct.sublist (List.sublist_append_left ..)
  have apart : ((lock.table.entries.filter fun entry => entry.2.mode = .shared).map Prod.fst).Nodup :=
    agrees.table.sublist (List.filter_sublist.map _)
  rw [List.perm_ext_iff_of_nodup distinct apart]
  intro t
  constructor
  · intro reader
    obtain ⟨hold, record, mode⟩ := settled t .shared (by simpa [Lock.owns, Gate.owns] using reader)
    have member := agrees.table.get?_eq_some_iff.mp record
    exact List.mem_map.mpr ⟨(t, hold), List.mem_filter.mpr ⟨member, decide_eq_true mode⟩, rfl⟩
  · intro listed
    obtain ⟨⟨owner, hold⟩, kept, rfl⟩ := List.mem_map.mp listed
    obtain ⟨member, mode⟩ := List.mem_filter.mp kept
    obtain ⟨-, access, owned, backs⟩ :=
      agrees.owns_of_record (agrees.table.get?_eq_some_iff.mpr member)
    have shared : access = .shared :=
      Access.mode_injective (backs.mode.symm.trans (of_decide_eq_true mode))
    subst shared
    simpa [Lock.owns, Gate.owns] using owned

theorem writer_iff_record (agrees : lock.Agrees phase)
    (settled : ∀ t access, lock.owns t access = true →
      ∃ hold, lock.table.get? t = some hold ∧ hold.mode = access.mode) (t : Thread) :
    lock.gate.writer = some t ↔ ∃ hold, (t, hold) ∈ lock.table.entries ∧ hold.mode = .exclusive := by
  constructor
  · intro writer
    obtain ⟨hold, record, mode⟩ := settled t .exclusive (by simpa [Lock.owns, Gate.owns] using writer)
    exact ⟨hold, agrees.table.get?_eq_some_iff.mp record, mode⟩
  · rintro ⟨hold, member, mode⟩
    have owned := (agrees.owns_exclusive_of_record
      (agrees.table.get?_eq_some_iff.mpr member) mode).1
    simpa [Lock.owns, Gate.owns] using owned

end Lock.Agrees

def Phase.isMidway (access : Access) : Phase → Bool
  | waiting wish => wish == access
  | granted wish => wish == access
  | leaving wish _ => wish == access
  | _ => false

/-- Between asking for the gate of `id` and the record of the hold, or between the end of the record
and leaving the gate. -/
def Task.isMidway (id : LockId) (access : Access) : Task → Bool
  | enter lock wish _ (.wait _) => lock == id && wish == access
  | enter lock wish _ (.record _) => lock == id && wish == access
  | leave lock wish (.unlatch _) => lock == id && wish == access
  | _ => false

theorem Task.isMidway_of_phaseAt {task : Task} {id : LockId} {access : Access}
    (midway : (task.phaseAt id).isMidway access = true) : task.isMidway id access = true := by
  unfold phaseAt at midway
  split at midway
  case isFalse => cases midway
  case isTrue own =>
    cases task with
    | enter lock wish purpose point =>
        cases own
        cases point <;> simp_all [phase, isMidway, Phase.isMidway]
    | leave lock wish point =>
        cases own
        cases point <;> simp_all [phase, isMidway, Phase.isMidway]
    | _ => cases own

theorem Fits.record_or_midway {t : Thread} {phase : Phase} {record : Option Hold} {access : Access}
    (fits : Fits t phase record (.owner access)) :
    (∃ hold, record = some hold ∧ hold.mode = access.mode) ∨ phase.isMidway access = true := by
  cases fits with
  | holding known backs => exact .inl ⟨_, rfl, backs.mode⟩
  | counting known backs => exact .inl ⟨_, rfl, backs.mode⟩
  | waiting known place =>
      rcases place with away | queued | owner
      · cases away
      · cases queued
      · cases owner
        exact .inr (by simp [Phase.isMidway])
  | granted | leaving => exact .inr (by simp [Phase.isMidway])

namespace Session

def Midway (session : Session) (t : Thread) (id : LockId) (access : Access) : Prop :=
  ∃ p ∈ session.pending, p.call.thread = t ∧
    ∃ task ∈ p.call.tasks.head?, task.isMidway id access = true

theorem midway_of_phaseOf {session : Session} {t : Thread} {id : LockId} {access : Access}
    (midway : (phaseOf session.pending id t).isMidway access = true) :
    session.Midway t id access := by
  unfold phaseOf at midway
  split at midway
  case h_1 => cases midway
  case h_2 p found =>
    refine ⟨p, List.mem_of_find?_eq_some found, by simpa using List.find?_some found, ?_⟩
    unfold Call.phaseAt at midway
    split at midway
    case h_1 => cases midway
    case h_2 task rest tasks =>
      exact ⟨task, by rw [tasks]; rfl, Task.isMidway_of_phaseAt midway⟩

theorem Sound.record_or_midway {session : Session} (sound : session.Sound) {t : Thread}
    {id : LockId} {access : Access} (owner : (session.world.lock id).owns t access = true) :
    (∃ hold, (session.world.lock id).table.get? t = some hold ∧ hold.mode = access.mode) ∨
      session.Midway t id access := by
  have agrees := sound.agrees id
  have fits := agrees.each t
  rw [agrees.gate.owns_iff.mp owner] at fits
  exact fits.record_or_midway.imp_right midway_of_phaseOf

structure Matched (session : Session) (id : LockId) : Prop where
  distinct : (session.world.lock id).table.Distinct
  records : ∀ t hold, (t, hold) ∈ (session.world.lock id).table.entries →
    t.isKnown = true ∧ 1 ≤ hold.count
  exclusive : ∀ t hold, (t, hold) ∈ (session.world.lock id).table.entries →
    hold.mode = .exclusive →
      hold.count = 1 ∧ (session.world.lock id).table.entries = [(t, hold)]
  owned : ∀ t hold, (t, hold) ∈ (session.world.lock id).table.entries →
    ∃ access, hold.mode = access.mode ∧ (session.world.lock id).owns t access = true
  recorded : ∀ t access, (session.world.lock id).owns t access = true →
    (∃ hold, (t, hold) ∈ (session.world.lock id).table.entries ∧ hold.mode = access.mode) ∨
      session.Midway t id access
  settled : (∀ t access, ¬ session.Midway t id access) →
    (session.world.lock id).gate.readers.Nodup ∧
      (session.world.lock id).gate.readers.length =
        ((session.world.lock id).table.entries.filter fun entry => entry.2.mode = .shared).length ∧
      ((session.world.lock id).gate.writer.isSome = true ↔
        ∃ entry ∈ (session.world.lock id).table.entries, entry.2.mode = .exclusive)
  inserted : ∀ p ∈ session.pending, ∀ access purpose waited rest,
    p.call.tasks = .enter id access purpose (.record waited) :: rest →
      (session.world.lock id).table.get? p.call.thread = none
  released : ∀ p ∈ session.pending, ∀ access left rest,
    p.call.tasks = .leave id access (.unlatch left) :: rest →
      (session.world.lock id).owns p.call.thread access = true ∧ left.isSome = true
  remarked : ∀ p ∈ session.pending, ∀ access left rest,
    p.call.tasks = .leave id access (.remark left) :: rest → left.isSome = true

theorem Sound.fits {session : Session} (sound : session.Sound) {p : Pending}
    (member : p ∈ session.pending) {task : Task} {rest : List Task}
    (tasks : p.call.tasks = task :: rest) (id : LockId) :
    Fits p.call.thread (task.phaseAt id) ((session.world.lock id).table.get? p.call.thread)
      ((session.world.lock id).gate.stand p.call.thread) := by
  have fits := (sound.agrees id).each p.call.thread
  rw [phaseOf_of_mem sound.distinct member] at fits
  simpa only [Call.phaseAt, tasks] using fits

theorem Sound.matched {session : Session} (sound : session.Sound) (id : LockId) :
    session.Matched id := by
  have agrees := sound.agrees id
  refine ⟨agrees.table, ?_, ?_, ?_, ?_, ?_, ?_, ?_, ?_⟩
  · intro t hold member
    obtain ⟨known, access, -, backs⟩ :=
      agrees.owns_of_record (agrees.table.get?_eq_some_iff.mpr member)
    exact ⟨known, backs.positive⟩
  · intro t hold member mode
    have record := agrees.table.get?_eq_some_iff.mpr member
    exact ⟨(agrees.owns_exclusive_of_record record mode).2, agrees.alone member mode⟩
  · intro t hold member
    obtain ⟨-, access, owner, backs⟩ :=
      agrees.owns_of_record (agrees.table.get?_eq_some_iff.mpr member)
    exact ⟨access, backs.mode, owner⟩
  · intro t access owner
    simp only [← agrees.table.get?_eq_some_iff]
    exact sound.record_or_midway owner
  · intro nobody
    have settled (t : Thread) (access : Access)
        (owner : (session.world.lock id).owns t access = true) :=
      (sound.record_or_midway owner).resolve_right (nobody t access)
    refine ⟨agrees.gate.distinct.sublist (List.sublist_append_left ..), ?_, ?_⟩
    · have counted := (agrees.readers_perm settled).length_eq
      rwa [List.length_map] at counted
    · rw [Option.isSome_iff_exists]
      simp only [agrees.writer_iff_record settled]
      constructor
      · rintro ⟨t, hold, member, mode⟩
        exact ⟨(t, hold), member, mode⟩
      · rintro ⟨⟨t, hold⟩, member, mode⟩
        exact ⟨t, hold, member, mode⟩
  · intro p member access purpose waited rest tasks
    have fits := sound.fits member tasks id
    simp only [Task.phaseAt, Task.lock?, if_true, Task.phase] at fits
    exact fits.of_granted
  · intro p member access left rest tasks
    have fits := sound.fits member tasks id
    simp only [Task.phaseAt, Task.lock?, if_true, Task.phase] at fits
    exact ⟨agrees.gate.owns_iff.mpr fits.of_leaving.1, fits.of_leaving.2⟩
  · intro p member access left rest tasks
    have fits := sound.fits member tasks id
    simp only [Task.phaseAt, Task.lock?, if_true, Task.phase] at fits
    exact fits.of_remarking

theorem reachable_matched {failures : Failures} {session : Session}
    (reachable : Reachable failures session) (id : LockId) : session.Matched id :=
  reachable.sound.matched id

/-- Thread 1 has a shared hold and dumps a value, thread 2 has just been let in to read, and thread 3
waits to write. -/
def crowd : List Move :=
  List.flatten [
    .start (.bare 1) 0 (.enter 0 .shared "scan") :: List.replicate 5 (.step ⟨1⟩), [.finish ⟨1⟩],
    .start (.bare 2) 1 (.enter 0 .shared "scan") :: List.replicate 3 (.step ⟨2⟩),
    .start (.bare 3) 2 (.enter 0 .exclusive "update") :: List.replicate 2 (.step ⟨3⟩),
    [.start (.bare 1) 3 (.write {} (.text "heap" .done) .unlimited), .step ⟨1⟩]]

def crowded : Session := ((initial .empty).follow crowd).getD (initial .empty)

theorem crowded_reachable : Reachable .empty crowded :=
  Reachable.initial.follow (by decide) (rfl : (initial .empty).follow crowd = some crowded)

theorem crowded_pending : ∃ dumping waiting granted : Pending,
    crowded.pending = [dumping, waiting, granted] ∧
      dumping.call.thread = ⟨1⟩ ∧
      dumping.call.tasks = [.dump .result {} (.text "heap" .done)] ∧
      granted.call.thread = ⟨2⟩ ∧
      ∃ purpose waited, granted.call.tasks = [.enter 0 .shared purpose (.record waited)] :=
  ⟨_, _, _, rfl, rfl, rfl, rfl, _, _, rfl⟩

theorem crowd_matched :
    Reachable .empty crowded ∧ crowded.Midway ⟨2⟩ 0 .shared ∧ crowded.Matched 0 := by
  refine ⟨crowded_reachable, ?_, reachable_matched crowded_reachable 0⟩
  obtain ⟨dumping, waiting, granted, pending, -, -, thread, purpose, waited, tasks⟩ := crowded_pending
  refine ⟨granted, by simp [pending], thread, .enter 0 .shared purpose (.record waited), ?_, rfl⟩
  rw [tasks]
  rfl

end Session

end GuardedDump
