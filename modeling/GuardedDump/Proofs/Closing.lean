import GuardedDump.Proofs.Ledger

/-!
# Closing a lock

Closing looks at the table of a lock and, if that is empty, strikes the lock from the roster in a
second step. Whoever has a record when the lock is struck has made it between these two steps
(`Session.struck_lock_was_unused`), but such records there may be
(`Session.close_strikes_held_lock`).
-/

namespace GuardedDump

theorem Stride.records {world : World} {ctx : Context} {id : LockId} {task : Task}
    {later : Option Task} {mark : Option Mark} {target : Lock} {hold : Hold}
    (stride : Stride world ctx id task later mark target)
    (free : (world.lock id).table.get? ctx.thread = none)
    (held : target.table.get? ctx.thread = some hold) :
    ∃ access purpose waited, task = .enter id access purpose (.record waited) := by
  cases stride with
  | record => exact ⟨_, _, _, rfl⟩
  | reenter found | lower found | linger found | vacate found =>
      rw [free] at found
      cases found
  | _ => cases free.symm.trans held

namespace Call

variable {world world' : World} {call call' : Call} {id : LockId} {rest : List Task}

theorem step_retire (orderly : call.Orderly) (step : call.step world = some (world', call'))
    (tasks : call'.tasks = .retire id :: rest) :
    call.tasks = .close id :: rest ∧ (world.lock id).table.entries = [] ∧ world' = world := by
  cases before : call.tasks with
  | nil =>
      simp only [Call.step, before] at step
      cases step
  | cons task waiting =>
      unfold Orderly at orderly
      rw [before, List.pairwise_cons] at orderly
      have behind (member : Task.retire id ∈ waiting) : False := by
        rcases orderly.1 _ member with fresh | ⟨-, dump⟩
        · cases fresh
        · cases dump
      obtain ⟨-, less | ⟨front, unfolds, more⟩⟩ := step_tasks before step
      · rw [tasks] at less
        exact (behind (less.subset List.mem_cons_self)).elim
      · rw [tasks] at more
        cases unfolds with
        | close =>
            cases more
            simp only [Call.step, before, stepClose, Option.some.injEq] at step
            split at step
            case isTrue empty =>
              cases step
              exact ⟨rfl, List.isEmpty_iff.mp empty, rfl⟩
            case isFalse =>
              cases step
              exact absurd tasks (List.cons_ne_self _ _).symm
        | survey locks =>
            cases locks with
            | nil =>
                simp only [List.map_nil, List.nil_append] at more
                exact (behind (more ▸ List.mem_cons_self)).elim
            | cons entry locks => cases more
        | _ => cases more

end Call

namespace Session

def Records (session : Session) (t : Thread) (id : LockId) (move : Move) : Prop :=
  move = .step t ∧ ∃ call access purpose waited rest, callOf session.pending t = some call ∧
    call.tasks = .enter id access purpose (.record waited) :: rest

variable {failures : Failures} {past : List (Session × Move)} {session after : Session}
  {move : Move} {t : Thread} {id : LockId} {call : Call} {rest : List Task}

theorem Part.records {hold : Hold} (part : Part t session move after)
    (free : session.holdOf id t = none) (held : after.holdOf id t = some hold) :
    session.Records t id move := by
  have changed (same : after.holdOf id t = session.holdOf id t) : session.Records t id move := by
    rw [same, free] at held
    cases held
  cases part with
  | begins _ _ _ holds | ends _ _ _ _ holds | watches _ _ holds => exact changed (holds id)
  | @acts call call' own found step later =>
      cases tasks : call.tasks with
      | nil =>
          simp only [Call.step, tasks] at step
          cases step
      | cons task waiting =>
          by_cases here : task.lock? = some id
          · obtain ⟨-, -, -, rfl⟩ := callOf_eq_some found
            rcases Call.step_strides tasks here step with
              ⟨panic, same, -⟩ | ⟨onward, target, stride, -, lock⟩
            · exact changed (Lock.view_of_cede (fun lock => lock.table.get? call.thread) (fun _ => rfl) same)
            · unfold holdOf at held
              rw [lock] at held
              split at held
              · obtain ⟨access, purpose, waited, rfl⟩ := stride.records free held
                exact ⟨own, call, access, purpose, waited, waiting, found, tasks⟩
              · cases free.symm.trans held
          · exact changed (by unfold holdOf; rw [Call.step_lock_of_ne tasks here step])

theorem operation_call_no_retire (operation : Operation) (ctx : Context) :
    (operation.call ctx).tasks ≠ .retire id :: rest := by
  cases operation <;> exact nofun

theorem struck_lock_was_unused (run : Run failures past session)
    (found : callOf session.pending t = some call) (tasks : call.tasks = .retire id :: rest) :
    ∃ earlier look later, past = earlier ++ (look, .step t) :: later ∧
      (∃ call, callOf look.pending t = some call ∧ call.tasks = .close id :: rest) ∧
      (look.world.lock id).table.entries = [] ∧ (∀ moment ∈ later, moment.2 ≠ .step t) ∧
      ∀ u hold, session.holdOf id u = some hold →
        ∃ moment ∈ later, moment.1.Records u id moment.2 := by
  induction run generalizing call with
  | initial => cases found
  | @next past session after move previous allowed action ih =>
      have sound := previous.reachable.sound
      cases move?_part sound allowed action t with
      | @acts looking call' own seen step later =>
          -- The look itself: nobody has a record, and nothing has happened since.
          cases later.symm.trans found
          obtain ⟨p, member, rfl, -⟩ := callOf_eq_some seen
          obtain ⟨closing, empty, same⟩ := Call.step_retire (sound.orderly p member) step tasks
          refine ⟨past, session, [], by rw [own], ⟨p.call, seen, closing⟩, empty, ?_, ?_⟩
          · exact fun moment member => absurd member List.not_mem_nil
          · intro u hold held
            simp only [holdOf, same, Table.get?, empty] at held
            cases held
      | begins other idle later =>
          cases later.symm.trans found
          exact absurd tasks (operation_call_no_retire _ _)
      | ends other seen done later => cases later.symm.trans found
      | watches other later holds =>
          obtain ⟨earlier, look, between, rfl, closing, empty, idle, entered⟩ :=
            ih (later ▸ found) tasks
          refine ⟨earlier, look, between ++ [(session, move)], by simp, closing, empty, ?_, ?_⟩
          · intro moment member
            rcases List.mem_append.mp member with before | last
            · exact idle moment before
            · rw [List.mem_singleton.mp last]
              exact other
          · intro u hold held
            cases record : session.holdOf id u with
            | some former =>
                obtain ⟨moment, member, records⟩ := entered u former record
                exact ⟨moment, List.mem_append_left _ member, records⟩
            | none =>
                have records := (move?_part sound allowed action u).records record held
                exact ⟨(session, move), by simp, records⟩

/-- Thread 1 finds the main lock unused, and before it goes on thread 2 enters to read. -/
def overtaking : List Move :=
  List.flatten [
    [.start (.bare 1) 0 (.close 0), .step ⟨1⟩],
    .start (.bare 2) 1 (.enter 0 .shared "scan") :: List.replicate 5 (.step ⟨2⟩), [.finish ⟨2⟩]]

def overtaken : Session := ((initial .empty).follow overtaking).getD (initial .empty)

theorem overtaken_run : Run .empty ((initial .empty).moments overtaking) overtaken :=
  Run.initial.follow (by decide) (rfl : (initial .empty).follow overtaking = some overtaken)

theorem overtaken_struck_lock_was_unused :
    overtaken.holdOf 0 ⟨2⟩ = some ⟨.shared, "scan", 0, Frame.nowhere, 1⟩ ∧
      ∃ moment ∈ (initial .empty).moments overtaking, moment.1.Records ⟨2⟩ 0 moment.2 := by
  have held : overtaken.holdOf 0 ⟨2⟩ = some ⟨.shared, "scan", 0, Frame.nowhere, 1⟩ := by
    decide +kernel
  obtain ⟨earlier, look, later, past, -, -, -, entered⟩ :=
    @struck_lock_was_unused _ _ _ ⟨1⟩ 0 _ [] overtaken_run rfl rfl
  obtain ⟨moment, member, records⟩ := entered _ _ held
  refine ⟨held, moment, ?_, records⟩
  rw [past]
  exact List.mem_append_right _ (List.mem_cons_of_mem _ member)

theorem close_strikes_held_lock :
    ∃ session after hold, Reachable .empty session ∧ session.move? (.step ⟨1⟩) = some after ∧
      session.world.roster.get? mainLockName = some 0 ∧
      after.world.roster.get? mainLockName = none ∧
      session.holdOf 0 ⟨2⟩ = some hold ∧ after.holdOf 0 ⟨2⟩ = some hold := by
  refine ⟨overtaken, _, _, overtaken_run.reachable, rfl, ?_, ?_, rfl, ?_⟩ <;> decide +kernel

end Session

end GuardedDump
