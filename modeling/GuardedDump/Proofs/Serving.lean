import GuardedDump.Proofs.Turn
import Mathlib.Data.List.Nodup

namespace GuardedDump.Session

theorem stepOf_of_stepFirst {world : World} {pending : List Pending}
    {result : World × List Pending} (distinct : (threads pending).Nodup)
    (step : stepFirst world pending = some result) :
    ∃ t ∈ threads pending, stepOf world t pending = some result := by
  induction pending generalizing result with
  | nil => cases step
  | cons p rest ih =>
      obtain ⟨first, later⟩ := List.nodup_cons.mp distinct
      unfold stepFirst at step
      split at step
      case h_1 after call own =>
        refine ⟨p.call.thread, List.mem_cons_self, ?_⟩
        simp only [stepOf, if_true, own]
        exact step
      case h_2 =>
        split at step
        · cases step
        case h_2 after stepped others =>
          obtain ⟨t, member, moved⟩ := ih later others
          have other : p.call.thread ≠ t := by
            intro same
            rw [← same] at member
            exact first member
          refine ⟨t, List.mem_cons_of_mem _ member, ?_⟩
          simp only [stepOf, if_neg other, moved]
          exact step

theorem collect_dismiss {session : Session} (distinct : (threads session.pending).Nodup)
    {p : Pending} (member : p ∈ session.pending) (done : p.call.isDone = true) :
    (session.dismiss p.call.thread).collect.2 = session.collect.2 := by
  simp only [collect, dismiss, List.filter_filter]
  congr 1
  apply List.filter_congr
  intro q other
  cases ended : q.call.isDone with
  | true => rfl
  | false =>
      have different : q.call.thread ≠ p.call.thread := by
        intro same
        rw [List.inj_on_of_nodup_map distinct other member same, done] at ended
        cases ended
      simpa using different

namespace Reachable

variable {failures : Failures} {session : Session}

theorem run (reachable : Reachable failures session) (bound : Nat) :
    Reachable failures { session with
      world := (Session.run bound session.world session.pending).1
      pending := (Session.run bound session.world session.pending).2 } := by
  induction bound generalizing session with
  | zero => exact reachable
  | succ bound ih =>
      unfold Session.run
      split
      · exact reachable
      case h_2 world pending step =>
        obtain ⟨t, -, moved⟩ := stepOf_of_stepFirst reachable.sound.distinct step
        have action : session.move? (.step t) = some { session with world, pending } := by
          simp only [move?, moved]
        exact ih (reachable.next rfl action)

theorem settle (reachable : Reachable failures session) : Reachable failures session.settle :=
  reachable.run _

theorem start (reachable : Reachable failures session) {ctx : Context}
    (idle : session.isBusy ctx.thread = false) (tag : Nat) (operation : Operation) :
    Reachable failures (session.start ctx tag operation) := by
  have action : session.move? (.start ctx tag operation) = some { session with
      pending := ⟨tag, session.world.history.length, operation, operation.call ctx⟩ ::
        session.pending } := by
    simp only [move?, idle, Bool.false_eq_true, if_false]
  exact (reachable.next rfl action).settle

theorem collect (reachable : Reachable failures session) :
    Reachable failures session.collect.2 := by
  induction size : session.pending.length using Nat.strongRecOn generalizing session with
  | ind size ih =>
      subst size
      by_cases ended : ∃ p ∈ session.pending, p.call.isDone = true
      · obtain ⟨p, member, done⟩ := ended
        rw [← collect_dismiss reachable.sound.distinct member done]
        have fewer : (session.dismiss p.call.thread).pending.length < session.pending.length := by
          unfold dismiss
          rw [List.length_filter_lt_length_iff_exists]
          exact ⟨p, member, by simp⟩
        have action : session.move? (.finish p.call.thread) =
            some (session.dismiss p.call.thread) := by
          have finished : session.isFinished p.call.thread = true := by
            rw [isFinished, List.any_eq_true]
            exact ⟨p, member, by simp [done]⟩
          simp only [move?, finished, if_true]
        exact ih _ fewer (reachable.next rfl action) rfl
      · have all : session.pending.filter (fun p => !p.call.isDone) = session.pending := by
          rw [List.filter_eq_self]
          intro p member
          simpa using fun done => ended ⟨p, member, done⟩
        simp only [Session.collect, all]
        exact reachable

theorem execute (reachable : Reachable failures session) {ctx : Context} {request : Request}
    (allowed : ∀ command, request = .command command → (Move.command ctx command).injects = false)
    (tag : Nat) : Reachable failures (session.execute ctx tag request).2 := by
  unfold Session.execute
  split
  · exact reachable
  case isFalse idle =>
    rw [Bool.not_eq_true] at idle
    cases request with
    | operation operation =>
        have served := (reachable.start idle tag operation).collect
        simp only [operate]
        split
        · exact served
        · exact served
    | command command =>
        apply reachable.next (allowed command rfl)
        simp only [move?, idle, reachable.sound.unseized.seized, Bool.or_self, Bool.false_eq_true,
          if_false]

end Reachable

end GuardedDump.Session
