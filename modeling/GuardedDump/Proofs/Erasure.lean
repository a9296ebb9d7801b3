import GuardedDump.Proofs.Part

namespace GuardedDump

def Move.actor : Move → Option Thread
  | start ctx _ _ => some ctx.thread
  | step t => some t
  | finish t => some t
  | command ctx _ => some ctx.thread
  | advance _ => none

namespace Session

variable {failures : Failures} {session after : Session} {move : Move} {t u : Thread}

theorem perform_dismiss (session : Session) (t : Thread) (ctx : Context) (command : Command) :
    (session.dismiss t).perform ctx command =
      ((session.perform ctx command).1, (session.perform ctx command).2.dismiss t) := by
  have result (reply : Reply) (found : Except Panic Unit × World) :
      (session.dismiss t).ofResult reply found =
        ((session.ofResult reply found).1, (session.ofResult reply found).2.dismiss t) := by
    obtain ⟨outcome, world⟩ := found
    cases outcome <;> rfl
  have settings (settings : Settings) :
      (session.dismiss t).applied settings =
        ((session.applied settings).1, (session.applied settings).2.dismiss t) := by
    simp only [applied, dismiss]
    split <;> rfl
  cases command with
  | enterUnknown | writeUnguarded | writeBetween | render | restore =>
      simp only [perform, dismiss]
      split <;> rfl
  | insist id thread required =>
      simp only [perform, dismiss]
      split
      · rfl
      · exact result ..
  | report v handler => exact result ..
  | apply s => exact settings s
  | readAndApply reader environment =>
      simp only [perform]
      split
      · rfl
      · exact settings _
  | _ => rfl

theorem any_dismiss (session : Session) (different : u ≠ t) {kind : Pending → Bool}
    (own : ∀ p, kind p = true → p.call.thread = u) :
    (session.dismiss t).pending.any kind = session.pending.any kind := by
  unfold dismiss
  rw [List.any_filter]
  congr 1
  funext p
  cases chosen : kind p with
  | false => exact Bool.and_false _
  | true => simp [own p chosen, different]

theorem isBusy_dismiss (session : Session) (different : u ≠ t) :
    (session.dismiss t).isBusy u = session.isBusy u :=
  session.any_dismiss different fun _ same => by simpa using same

theorem isFinished_dismiss (session : Session) (different : u ≠ t) :
    (session.dismiss t).isFinished u = session.isFinished u :=
  session.any_dismiss different fun _ both => by simp_all

theorem stepOf_dismiss (world : World) (pending : List Pending) (different : u ≠ t) :
    stepOf world u (pending.filter fun p => p.call.thread != t) =
      (stepOf world u pending).map fun stepped =>
        (stepped.1, stepped.2.filter fun p => p.call.thread != t) := by
  induction pending with
  | nil => rfl
  | cons p rest ih =>
      by_cases own : p.call.thread = u
      · have kept : (p.call.thread != t) = true := by simpa [own] using different
        rw [List.filter_cons, if_pos kept]
        simp only [stepOf, own, if_true]
        cases stepped : p.call.proceed? world with
        | none => rfl
        | some next =>
            obtain ⟨world', call⟩ := next
            have same : (call.thread != t) = true := by
              rwa [Call.step_thread (Call.step_of_proceed? stepped)]
            simp [same]
      · simp only [stepOf, own, if_false]
        -- The calls of `t` are the ones that the filter drops; the step of `u` walks past them.
        by_cases mine : p.call.thread = t
        · rw [List.filter_cons_of_neg (by simp [mine]), ih]
          cases stepOf world u rest <;> simp [mine]
        · rw [List.filter_cons_of_pos (by simpa using mine)]
          simp only [stepOf, own, if_false, ih]
          cases stepOf world u rest <;> simp [mine]

theorem move?_dismiss (session : Session) (other : move.actor ≠ some t) :
    (session.dismiss t).move? move = (session.move? move).map fun after => after.dismiss t := by
  cases move with
  | start ctx tag operation =>
      have different : ctx.thread ≠ t := fun same => other (congrArg some same)
      simp only [move?, isBusy_dismiss session different]
      split
      · rfl
      · have kept : ((operation.call ctx).thread != t) = true := by
          simpa [operation_call_thread] using different
        simp [dismiss, kept]
  | step u =>
      have different : u ≠ t := fun same => other (congrArg some same)
      simp only [move?, dismiss, stepOf_dismiss session.world session.pending different]
      cases stepOf session.world u session.pending <;> rfl
  | finish u =>
      have different : u ≠ t := fun same => other (congrArg some same)
      simp only [move?, isFinished_dismiss session different]
      split
      · simp only [dismiss, Option.map_some, List.filter_filter, Bool.and_comm]
      · rfl
  | command ctx command =>
      have different : ctx.thread ≠ t := fun same => other (congrArg some same)
      have free : (session.dismiss t).world = session.world := rfl
      simp only [move?, isBusy_dismiss session different, perform_dismiss, free]
      split <;> rfl
  | advance d => rfl

/-- What the others do does not depend on the calls of `t`. -/
theorem follow_dismiss (session : Session) {moves : List Move}
    (others : ∀ move ∈ moves, move.actor ≠ some t) :
    (session.dismiss t).follow moves = (session.follow moves).map fun after => after.dismiss t := by
  induction moves generalizing session with
  | nil => rfl
  | cons move more ih =>
      unfold follow
      rw [move?_dismiss session (others move (by simp))]
      cases session.move? move with
      | none => rfl
      | some after => exact ih after fun later member => others later (by simp [member])

theorem move?_callOf (other : move.actor ≠ some t) (action : session.move? move = some after) :
    callOf after.pending t = callOf session.pending t := by
  cases move with
  | start ctx tag operation =>
      simp only [move?] at action
      split at action <;> cases action
      apply callOf_cons_of_ne
      rw [operation_call_thread]
      exact fun same => other (congrArg some same)
  | step u =>
      simp only [move?] at action
      split at action <;> cases action
      case h_2 world pending stepped =>
        obtain ⟨-, -, -, -, -, kept⟩ := stepOf_callOf stepped
        exact kept t fun same => other (congrArg some same.symm)
  | finish u =>
      simp only [move?] at action
      split at action <;> cases action
      refine (callOf_dismiss t u session.pending).trans (if_neg ?_)
      exact fun same => other (congrArg some same.symm)
  | command ctx command =>
      simp only [move?] at action
      split at action <;> cases action
      rw [perform_pending]
  | advance d =>
      cases action
      rfl

theorem follow_callOf {moves : List Move} (others : ∀ move ∈ moves, move.actor ≠ some t)
    (schedule : session.follow moves = some after) :
    callOf after.pending t = callOf session.pending t := by
  refine follow_invariant (P := fun later => callOf later.pending t = callOf session.pending t)
    ?_ schedule rfl
  intro move member middle next same action
  exact (move?_callOf (others move member) action).trans same

theorem follow_append (session : Session) (moves more : List Move) :
    session.follow (moves ++ more) =
      (session.follow moves).bind fun middle => middle.follow more := by
  induction moves generalizing session with
  | nil => rfl
  | cons move rest ih =>
      simp only [List.cons_append, follow]
      cases session.move? move with
      | none => rfl
      | some after => exact ih after

end Session

end GuardedDump
