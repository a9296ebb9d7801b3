import GuardedDump.Proofs.Agreement
import GuardedDump.Proofs.Commands
import GuardedDump.Session.Schedule

namespace GuardedDump.Session

def phaseOf (pending : List Pending) (id : LockId) (t : Thread) : Phase :=
  match pending.find? fun p => p.call.thread == t with
  | none => .outside
  | some p => p.call.phaseAt id

def threads (pending : List Pending) : List Thread :=
  pending.map fun p => p.call.thread

theorem isBusy_iff (session : Session) (t : Thread) :
    session.isBusy t = true ↔ t ∈ threads session.pending := by
  simp [isBusy, threads]

theorem phaseOf_of_not_mem {pending : List Pending} {t : Thread} (idle : t ∉ threads pending)
    (id : LockId) : phaseOf pending id t = .outside := by
  have none : pending.find? (fun p => p.call.thread == t) = none := by
    rw [List.find?_eq_none]
    intro p member same
    exact idle (List.mem_map.mpr ⟨p, member, by simpa using same⟩)
  simp only [phaseOf, none]

theorem phaseOf_of_mem {pending : List Pending} (distinct : (threads pending).Nodup) {p : Pending}
    (member : p ∈ pending) (id : LockId) :
    phaseOf pending id p.call.thread = p.call.phaseAt id := by
  induction pending with
  | nil => cases member
  | cons q rest ih =>
      obtain ⟨first, later⟩ := List.nodup_cons.mp distinct
      unfold phaseOf
      by_cases same : q.call.thread = p.call.thread
      · rw [List.find?_cons_of_pos (by simpa using same)]
        rcases List.mem_cons.mp member with rfl | behind
        · rfl
        · exact absurd (List.mem_map.mpr ⟨p, behind, same.symm⟩) first
      · rw [List.find?_cons_of_neg (by simpa using same)]
        rcases List.mem_cons.mp member with rfl | behind
        · exact absurd rfl same
        · exact ih later behind

theorem stepOf_some {world world' : World} {t : Thread} {pending pending' : List Pending}
    (step : stepOf world t pending = some (world', pending')) :
    ∃ before p after call', pending = before ++ p :: after ∧ p.call.thread = t ∧
      p.call.step world = some (world', call') ∧
      pending' = before ++ { p with call := call' } :: after := by
  induction pending generalizing pending' with
  | nil => cases step
  | cons p rest ih =>
      unfold stepOf at step
      split at step
      case isTrue own =>
        split at step <;> cases step
        case h_2 call' stepped =>
          exact ⟨[], p, rest, call', rfl, own, Call.step_of_proceed? stepped, rfl⟩
      case isFalse =>
        split at step <;> cases step
        case h_2 stepped others =>
          obtain ⟨before, q, after, call', rfl, own, action, rfl⟩ := ih others
          exact ⟨p :: before, q, after, call', rfl, own, action, rfl⟩

/-- What one move can do to a session, a direct write into a table aside. -/
inductive Turn (session : Session) : Session → Prop where
  | start {ctx tag since operation} (idle : ctx.thread ∉ threads session.pending) :
      Turn session { session with
        pending := ⟨tag, since, operation, operation.call ctx⟩ :: session.pending }
  | step {before p later world call} (parts : session.pending = before ++ p :: later)
      (action : p.call.step session.world = some (world, call)) :
      Turn session { session with world, pending := before ++ { p with call } :: later }
  | finish {p} (member : p ∈ session.pending) (done : p.call.isDone = true) :
      Turn session (session.dismiss p.call.thread)
  | create {name timeout logger} :
      Turn session { session with world := (session.world.newLock name timeout logger).2 }
  | tune {after} (tuned : World.Tuned session.world after.world)
      (pending : after.pending = session.pending) : Turn session after

theorem move?_turn {session after : Session} {move : Move} (allowed : move.injects = false)
    (action : session.move? move = some after) : Turn session after := by
  cases move with
  | start ctx tag operation =>
      simp only [move?] at action
      split at action
      · cases action
      case isFalse idle =>
        cases action
        rw [isBusy_iff] at idle
        exact .start idle
  | step t =>
      simp only [move?] at action
      split at action
      · cases action
      case h_2 world pending stepped =>
        cases action
        obtain ⟨before, p, later, call, parts, -, own, rfl⟩ := stepOf_some stepped
        exact .step parts own
  | finish t =>
      simp only [move?] at action
      split at action
      case isFalse => cases action
      case isTrue finished =>
        cases action
        unfold isFinished at finished
        rw [List.any_eq_true] at finished
        obtain ⟨p, member, both⟩ := finished
        rw [Bool.and_eq_true, beq_iff_eq] at both
        obtain ⟨rfl, done⟩ := both
        exact .finish member done
  | command ctx command =>
      simp only [move?] at action
      split at action <;> cases action
      by_cases plain : command.isPlain = true
      · exact .tune (session.perform_tuned ctx plain) (session.perform_pending ctx command)
      · cases command with
        | newLock name timeout logger => exact .create
        | inject => cases allowed
        | _ => exact absurd rfl plain
  | advance d =>
      cases action
      exact .tune (World.tuned_of_locks rfl rfl) rfl

theorem Reachable.invariant {failures : Failures} {Inv : Session → Prop}
    (start : Inv (.initial failures))
    (turn : ∀ session after, Inv session → Turn session after → Inv after) {session : Session}
    (reachable : Reachable failures session) : Inv session := by
  induction reachable with
  | initial => exact start
  | next previous allowed action ih => exact turn _ _ ih (move?_turn allowed action)

structure Sound (session : Session) : Prop where
  distinct : (threads session.pending).Nodup
  orderly : ∀ p ∈ session.pending, p.call.Orderly
  agrees : ∀ id, (session.world.lock id).Agrees (phaseOf session.pending id)

theorem initial_sound (failures : Failures) : (initial failures).Sound := by
  refine ⟨List.nodup_nil, fun _ member => absurd member List.not_mem_nil, ?_⟩
  intro id
  have gate : ((initial failures).world.lock id).gate = .vacant := by cases id <;> rfl
  have table : ((initial failures).world.lock id).table = .empty := by cases id <;> rfl
  have unseized : ((initial failures).world.lock id).internal = none := by cases id <;> rfl
  refine ⟨?_, unseized, ?_, ?_⟩
  · rw [gate]
    exact Gate.vacant_orderly
  · rw [table]
    exact Table.empty_distinct
  · intro t
    rw [gate, table, Gate.stand_vacant]
    exact .absent

theorem operation_call_thread (operation : Operation) (ctx : Context) :
    (operation.call ctx).thread = ctx.thread := by
  cases operation <;> rfl

theorem operation_call_orderly (operation : Operation) (ctx : Context) :
    (operation.call ctx).Orderly := by
  cases operation <;> exact List.pairwise_singleton ..

theorem operation_call_phaseAt (operation : Operation) (ctx : Context) (id : LockId) :
    (operation.call ctx).phaseAt id = .outside := by
  apply Call.phaseAt_eq_outside
  intro task member
  cases operation <;> cases member <;> unfold Task.phaseAt <;> split <;> rfl

theorem phaseOf_start {pending : List Pending} {p : Pending} {id : LockId}
    (idle : p.call.thread ∉ threads pending) (fresh : p.call.phaseAt id = .outside) :
    phaseOf (p :: pending) id = phaseOf pending id := by
  funext u
  by_cases own : p.call.thread = u
  · subst own
    rw [phaseOf_of_not_mem idle]
    simp only [phaseOf, List.find?_cons_of_pos, beq_self_eq_true, fresh]
  · unfold phaseOf
    rw [List.find?_cons_of_neg (by simpa using own)]

theorem threads_step {before later : List Pending} {p : Pending} {call : Call}
    (same : call.thread = p.call.thread) :
    threads (before ++ { p with call } :: later) = threads (before ++ p :: later) := by
  simp [threads, same]

theorem phaseOf_step {before later : List Pending} {p : Pending} {call : Call} {id : LockId}
    (distinct : (threads (before ++ p :: later)).Nodup) (same : call.thread = p.call.thread) :
    phaseOf (before ++ { p with call } :: later) id =
      Function.update (phaseOf (before ++ p :: later) id) p.call.thread (call.phaseAt id) := by
  funext u
  by_cases own : u = p.call.thread
  · subst own
    rw [Function.update_self, ← same]
    apply phaseOf_of_mem (p := { p with call })
    · rw [threads_step same]
      exact distinct
    · simp
  · rw [Function.update_of_ne own]
    unfold phaseOf
    have other : p.call.thread ≠ u := Ne.symm own
    simp [List.find?_append, same, other]

theorem phaseOf_dismiss {pending : List Pending} {p : Pending} (distinct : (threads pending).Nodup)
    (member : p ∈ pending) (done : p.call.isDone = true) (id : LockId) :
    phaseOf (pending.filter fun q => q.call.thread != p.call.thread) id = phaseOf pending id := by
  funext u
  by_cases own : u = p.call.thread
  · subst own
    have ended : p.call.phaseAt id = .outside := by
      simp only [Call.isDone, List.isEmpty_iff] at done
      simp only [Call.phaseAt, done]
    rw [phaseOf_of_mem distinct member, ended]
    apply phaseOf_of_not_mem
    simp [threads]
  · have same : (pending.filter fun q => q.call.thread != p.call.thread).find?
        (fun q => q.call.thread == u) = pending.find? fun q => q.call.thread == u := by
      rw [List.find?_filter]
      congr 1
      funext q
      by_cases found : q.call.thread = u <;> simp [found, own]
    simp only [phaseOf, same]

theorem newLock_cases (world : World) (name : String) (timeout : Duration) (logger : Logger)
    (id : LockId) :
    (world.newLock name timeout logger).2.lock id = world.lock id ∨
      world.lock id = .create "" .zero .standard ∧
        (world.newLock name timeout logger).2.lock id = .create name timeout logger := by
  rcases Nat.lt_trichotomy id world.locks.length with known | rfl | beyond
  · exact .inl (by simp [World.newLock, World.lock, List.getElem?_append_left known])
  · exact .inr (by simp [World.newLock, World.lock])
  · refine .inl ?_
    have outside : (world.locks ++ [Lock.create name timeout logger])[id]? = none := by
      rw [List.getElem?_eq_none_iff, List.length_append]
      exact beyond
    have unknown : world.locks[id]? = none := List.getElem?_eq_none (Nat.le_of_lt beyond)
    simp only [World.newLock, World.lock, List.getD_eq_getElem?_getD, outside, unknown]

theorem lock_newLock (world : World) (name : String) (timeout : Duration) (logger : Logger)
    (id : LockId) :
    ((world.newLock name timeout logger).2.lock id).gate = (world.lock id).gate ∧
      ((world.newLock name timeout logger).2.lock id).internal = (world.lock id).internal ∧
      ((world.newLock name timeout logger).2.lock id).table = (world.lock id).table := by
  rcases newLock_cases world name timeout logger id with same | ⟨blank, created⟩
  · rw [same]
    exact ⟨rfl, rfl, rfl⟩
  · rw [blank, created]
    exact ⟨rfl, rfl, rfl⟩

theorem Sound.step {session : Session} (sound : session.Sound) {before later : List Pending}
    {p : Pending} {world : World} {call : Call} (parts : session.pending = before ++ p :: later)
    (action : p.call.step session.world = some (world, call)) :
    Sound { session with world, pending := before ++ { p with call } :: later } := by
  obtain ⟨distinct, orderly, agrees⟩ := sound
  rw [parts] at distinct orderly
  have same := Call.step_thread action
  have ordered : p.call.Orderly := orderly p (by simp)
  refine ⟨?_, ?_, ?_⟩
  · simp only [threads_step same]
    exact distinct
  · intro q member
    simp only [List.mem_append, List.mem_cons] at member
    rcases member with ahead | rfl | behind
    · exact orderly q (by simp [ahead])
    · exact Call.step_orderly ordered action
    · exact orderly q (by simp [behind])
  · intro id
    have agree := agrees id
    rw [parts] at agree
    have phase := phaseOf_of_mem distinct (p := p) (by simp) id
    obtain ⟨target, passage, lock⟩ := Call.step_passage ordered action id
    rw [← phase] at passage
    simp only [phaseOf_step distinct same, lock]
    split
    · exact agree.passage passage
    case isFalse unknown =>
      have blank : session.world.lock id = .create "" .zero .standard := by
        simp [World.lock, unknown]
      rw [blank] at agree passage ⊢
      exact agree.passage_vacant rfl rfl passage

theorem Sound.turn {session after : Session} (sound : session.Sound) (turn : Turn session after) :
    after.Sound := by
  cases turn with
  | @start ctx tag since operation idle =>
      rw [← operation_call_thread operation ctx] at idle
      refine ⟨List.nodup_cons.mpr ⟨idle, sound.distinct⟩, ?_, ?_⟩
      · intro p member
        rcases List.mem_cons.mp member with rfl | other
        · exact operation_call_orderly operation ctx
        · exact sound.orderly p other
      · intro id
        have same := phaseOf_start (p := ⟨tag, since, operation, operation.call ctx⟩) idle
          (operation_call_phaseAt operation ctx id)
        simp only [same]
        exact sound.agrees id
  | step parts action => exact sound.step parts action
  | finish member done =>
      refine ⟨sound.distinct.sublist (List.filter_sublist.map _), ?_, ?_⟩
      · intro q kept
        exact sound.orderly q (List.mem_filter.mp kept).1
      · intro id
        simp only [dismiss, phaseOf_dismiss sound.distinct member done]
        exact sound.agrees id
  | @create name timeout logger =>
      refine ⟨sound.distinct, sound.orderly, ?_⟩
      intro id
      obtain ⟨gate, internal, table⟩ := lock_newLock session.world name timeout logger id
      have agrees := sound.agrees id
      exact agrees.congr gate (internal.trans agrees.unseized) table
  | tune tuned pending =>
      refine ⟨?_, ?_, ?_⟩
      · rw [pending]
        exact sound.distinct
      · rw [pending]
        exact sound.orderly
      · intro id
        rw [pending]
        have agrees := sound.agrees id
        exact agrees.congr (tuned.gate id) ((tuned.internal id).trans agrees.unseized) (tuned.table id)

theorem Sound.unseized {session : Session} (sound : session.Sound) : session.world.Unseized :=
  fun id => (sound.agrees id).unseized

theorem Reachable.sound {failures : Failures} {session : Session}
    (reachable : Reachable failures session) : session.Sound :=
  reachable.invariant (initial_sound failures) fun _ _ => Sound.turn

end GuardedDump.Session
