import GuardedDump.Proofs.Exclusion

namespace GuardedDump.Session

/-- The session that a list of moves led to, each kept with the session that it was made in. -/
inductive Run (failures : Failures) : List (Session × Move) → Session → Prop where
  | initial : Run failures [] (.initial failures)
  | next {past : List (Session × Move)} {session after : Session} {move : Move}
      (previous : Run failures past session) (allowed : move.injects = false)
      (action : session.move? move = some after) : Run failures (past ++ [(session, move)]) after

theorem Run.reachable {failures : Failures} {past : List (Session × Move)} {session : Session}
    (run : Run failures past session) : Reachable failures session := by
  induction run with
  | initial => exact .initial
  | next _ allowed action ih => exact ih.next allowed action

def moments (session : Session) : List Move → List (Session × Move)
  | [] => []
  | move :: more =>
    match session.move? move with
    | none => []
    | some after => (session, move) :: after.moments more

theorem Run.follow {failures : Failures} {past : List (Session × Move)}
    {session after : Session} {moves : List Move} (run : Run failures past session)
    (allowed : ∀ move ∈ moves, move.injects = false) (schedule : session.follow moves = some after) :
    Run failures (past ++ session.moments moves) after := by
  induction moves generalizing past session with
  | nil =>
      cases schedule
      simpa only [moments, List.append_nil] using run
  | cons move more ih =>
      unfold Session.follow at schedule
      split at schedule
      · cases schedule
      case h_2 next action =>
        have first := run.next (allowed move (by simp)) action
        have rest := ih first (fun later member => allowed later (by simp [member])) schedule
        simpa only [moments, action, List.append_assoc, List.cons_append, List.nil_append] using rest

def callOf (pending : List Pending) (t : Thread) : Option Call :=
  (pending.find? fun p => p.call.thread == t).map Pending.call

def holdOf (session : Session) (id : LockId) (t : Thread) : Option Hold :=
  (session.world.lock id).table.get? t

section CallOf

variable {pending : List Pending} {t u : Thread} {p : Pending} {call : Call}

theorem callOf_cons_self (own : p.call.thread = t) : callOf (p :: pending) t = some p.call := by
  unfold callOf
  rw [List.find?_cons_of_pos (by simpa using own)]
  rfl

theorem callOf_cons_of_ne (other : p.call.thread ≠ t) :
    callOf (p :: pending) t = callOf pending t := by
  unfold callOf
  rw [List.find?_cons_of_neg (by simpa using other)]

theorem callOf_of_not_mem (idle : t ∉ threads pending) : callOf pending t = none := by
  unfold callOf
  rw [Option.map_eq_none_iff, List.find?_eq_none]
  intro p member same
  exact idle (List.mem_map.mpr ⟨p, member, by simpa using same⟩)

theorem callOf_eq_some (found : callOf pending t = some call) :
    ∃ p ∈ pending, p.call = call ∧ call.thread = t := by
  obtain ⟨p, first, rfl⟩ := Option.map_eq_some_iff.mp found
  exact ⟨p, List.mem_of_find?_eq_some first, rfl, by simpa using List.find?_some first⟩

theorem callOf_of_mem (distinct : (threads pending).Nodup) (member : p ∈ pending) :
    callOf pending p.call.thread = some p.call := by
  induction pending with
  | nil => cases member
  | cons q rest ih =>
      obtain ⟨first, later⟩ := List.nodup_cons.mp distinct
      rcases List.mem_cons.mp member with rfl | behind
      · exact callOf_cons_self rfl
      · have other : q.call.thread ≠ p.call.thread := fun same =>
          first (List.mem_map.mpr ⟨p, behind, same.symm⟩)
        rw [callOf_cons_of_ne other]
        exact ih later behind

theorem phaseOf_eq (pending : List Pending) (id : LockId) (t : Thread) :
    phaseOf pending id t =
      match callOf pending t with
      | none => .outside
      | some call => call.phaseAt id := by
  unfold phaseOf callOf
  cases pending.find? fun p => p.call.thread == t <;> rfl

theorem stepOf_callOf {world world' : World} {pending' : List Pending}
    (step : stepOf world t pending = some (world', pending')) :
    ∃ call call', callOf pending t = some call ∧ call.step world = some (world', call') ∧
      callOf pending' t = some call' ∧ ∀ u, u ≠ t → callOf pending' u = callOf pending u := by
  induction pending generalizing pending' with
  | nil => cases step
  | cons p rest ih =>
      unfold stepOf at step
      split at step
      case isTrue own =>
        split at step <;> cases step
        case h_2 call' onward =>
          have stepped := Call.step_of_proceed? onward
          have same : call'.thread = t := (Call.step_thread stepped).trans own
          refine ⟨p.call, call', callOf_cons_self own, stepped, callOf_cons_self same, ?_⟩
          intro u different
          rw [callOf_cons_of_ne (by rw [same]; exact Ne.symm different),
            callOf_cons_of_ne (by rw [own]; exact Ne.symm different)]
      case isFalse other =>
        split at step <;> cases step
        case h_2 stepped others =>
          obtain ⟨call, call', found, action, later, kept⟩ := ih others
          refine ⟨call, call', ?_, action, ?_, ?_⟩
          · rw [callOf_cons_of_ne other, found]
          · rw [callOf_cons_of_ne other, later]
          · intro u different
            by_cases same : p.call.thread = u
            · rw [callOf_cons_self same, callOf_cons_self same]
            · rw [callOf_cons_of_ne same, callOf_cons_of_ne same, kept u different]

theorem callOf_dismiss (t u : Thread) (pending : List Pending) :
    callOf (pending.filter fun p => p.call.thread != u) t =
      if t = u then none else callOf pending t := by
  unfold callOf
  rw [List.find?_filter]
  split
  case isTrue same =>
    subst same
    rw [Option.map_eq_none_iff, List.find?_eq_none]
    intro p _
    simp
  case isFalse different =>
    congr 2
    funext p
    by_cases same : p.call.thread = t <;> simp [same, different]

end CallOf

inductive Part (t : Thread) (session : Session) (move : Move) (after : Session) : Prop where
  | acts {call call' : Call} (own : move = .step t) (found : callOf session.pending t = some call)
      (step : call.step session.world = some (after.world, call'))
      (later : callOf after.pending t = some call')
  | begins {ctx : Context} {operation : Operation} (other : move ≠ .step t)
      (idle : callOf session.pending t = none)
      (later : callOf after.pending t = some (operation.call ctx))
      (holds : ∀ id, after.holdOf id t = session.holdOf id t)
  | ends {call : Call} (other : move ≠ .step t) (found : callOf session.pending t = some call)
      (done : call.tasks = []) (later : callOf after.pending t = none)
      (holds : ∀ id, after.holdOf id t = session.holdOf id t)
  | watches (other : move ≠ .step t) (later : callOf after.pending t = callOf session.pending t)
      (holds : ∀ id, after.holdOf id t = session.holdOf id t)

theorem step_holdOf_of_ne {session : Session} (sound : session.Sound) {t u : Thread}
    {call call' : Call} {world : World} (found : callOf session.pending u = some call)
    (step : call.step session.world = some (world, call')) (different : t ≠ u) (id : LockId) :
    (world.lock id).table.get? t = session.holdOf id t := by
  obtain ⟨p, member, rfl, rfl⟩ := callOf_eq_some found
  obtain ⟨target, passage, lock⟩ := Call.step_passage (sound.orderly p member) step id
  rw [lock]
  split
  · exact passage.get?_of_ne different
  · rfl

theorem move?_part {session after : Session} {move : Move} (sound : session.Sound)
    (allowed : move.injects = false) (action : session.move? move = some after) (t : Thread) :
    Part t session move after := by
  cases move with
  | start ctx tag operation =>
      simp only [move?] at action
      split at action
      · cases action
      case isFalse idle =>
        cases action
        rw [isBusy_iff] at idle
        have caller := operation_call_thread operation ctx
        by_cases own : ctx.thread = t
        · subst own
          exact .begins (by simp) (callOf_of_not_mem idle) (callOf_cons_self caller) fun _ => rfl
        · have other : (operation.call ctx).thread ≠ t := by rwa [caller]
          exact .watches (by simp) (callOf_cons_of_ne other) fun _ => rfl
  | step u =>
      simp only [move?] at action
      split at action
      · cases action
      case h_2 world pending stepped =>
        cases action
        obtain ⟨call, call', found, step, later, kept⟩ := stepOf_callOf stepped
        by_cases own : t = u
        · subst own
          exact .acts rfl found step later
        · refine .watches ?_ (kept t own) fun id => step_holdOf_of_ne sound found step own id
          rintro ⟨rfl⟩
          exact own rfl
  | finish u =>
      simp only [move?] at action
      split at action
      case isFalse => cases action
      case isTrue finished =>
        cases action
        unfold isFinished at finished
        rw [List.any_eq_true] at finished
        obtain ⟨p, member, both⟩ := finished
        rw [Bool.and_eq_true, beq_iff_eq] at both
        obtain ⟨rfl, done⟩ := both
        have left := callOf_dismiss t p.call.thread session.pending
        by_cases own : t = p.call.thread
        · subst own
          rw [if_pos rfl] at left
          exact .ends (by simp) (callOf_of_mem sound.distinct member) (List.isEmpty_iff.mp done) left
            fun _ => rfl
        · rw [if_neg own] at left
          exact .watches (by simp) left fun _ => rfl
  | command ctx command =>
      simp only [move?] at action
      split at action <;> cases action
      by_cases plain : command.isPlain = true
      · have tuned := session.perform_tuned ctx plain
        refine .watches (by simp) (by rw [session.perform_pending]) fun id => ?_
        unfold holdOf
        rw [tuned.table]
      · cases command with
        | newLock name timeout logger =>
            refine .watches (by simp) rfl fun id => ?_
            exact congrArg (Table.get? · t) (lock_newLock session.world name timeout logger id).2.2
        | inject => cases allowed
        | _ => exact absurd rfl plain
  | advance d =>
      cases action
      exact .watches (by simp) rfl fun _ => rfl

end GuardedDump.Session
