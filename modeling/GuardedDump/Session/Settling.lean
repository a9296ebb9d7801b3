import GuardedDump.Dump.Unmoved
import GuardedDump.Session.Basic

namespace GuardedDump

namespace Task

theorem weight_mono {m n : Nat} (more : m ≤ n) (task : Task) : task.weight m ≤ task.weight n := by
  cases task <;> simp only [weight, Nat.le_refl]
  exact Nat.succ_le_succ (Nat.mul_le_mul_left _ more)

theorem weights_mono {m n : Nat} (more : m ≤ n) (tasks : List Task) :
    weights m tasks ≤ weights n tasks := by
  induction tasks with
  | nil => exact Nat.le_refl _
  | cons task rest ih => exact Nat.add_le_add (task.weight_mono more) ih

theorem weights_append (n : Nat) (left right : List Task) :
    weights n (left ++ right) = weights n left + weights n right := by
  induction left with
  | nil => simp [weights]
  | cons task rest ih => simp only [List.cons_append, weights, ih]; omega

theorem weights_filter (n : Nat) (keep : Task → Bool) (tasks : List Task) :
    weights n (tasks.filter keep) ≤ weights n tasks := by
  induction tasks with
  | nil => exact Nat.le_refl _
  | cons task rest ih =>
    rw [List.filter_cons]
    split <;> simp only [weights] <;> omega

theorem weights_visits (n : Nat) (locks : List (String × LockId)) (selection : Selection) :
    weights n (locks.map fun entry => visit entry.2 selection) = visitWeight * locks.length := by
  induction locks with
  | nil => rfl
  | cons entry rest ih =>
    simp only [List.map_cons, weights, weight, ih, List.length_cons, Nat.mul_succ]
    omega

end Task

theorem Roster.size_strike (roster : Roster) (name : String) (id : LockId) :
    (roster.strike name id).size ≤ roster.size := by
  unfold strike
  split
  · exact List.length_filter_le ..
  · exact Nat.le_refl _

theorem Roster.length_ordered (roster : Roster) : roster.ordered.length = roster.size :=
  (Order.sort_perm byName roster.entries).length_eq

theorem World.roster_logLine (world : World) (t : Thread) (logger : Logger) (line : Option String) :
    (world.logLine t logger line).roster = world.roster := by
  cases line <;> rfl

namespace Call

theorem weight_unwind (n : Nat) (call : Call) : call.unwind.weight n ≤ call.weight n :=
  Task.weights_filter n Task.isLeave call.tasks

theorem weight_abandon (n : Nat) (call : Call) (panic : Panic) :
    (call.abandon panic).weight n ≤ call.weight n :=
  weight_unwind n _

theorem weight_settle (n : Nat) (call : Call) (role : Role) (receipt : Receipt) :
    (call.settle role receipt).weight n ≤ call.weight n := by
  unfold settle
  split
  · exact Nat.le_refl _
  · exact Nat.le_refl _
  · exact weight_unwind n _
  · exact weight_unwind n _

theorem stepEnter_weight {world world' : World} {call call' : Call} {id : LockId} {access : Access}
    {purpose : String} {point : EnterPoint}
    (step : stepEnter world call id access purpose point = some (world', call')) (n : Nat) :
    call'.weight n < point.weight + call.weight n ∧ world'.roster = world.roster := by
  unfold stepEnter at step
  cases point with
  | consult =>
    simp only at step
    split at step <;> cases step
    · exact ⟨by simp only [crash, weight, Task.weights, EnterPoint.weight]; omega, rfl⟩
    all_goals
      exact ⟨by simp only [next, weight, Task.weights, Task.weight, EnterPoint.weight]; omega, rfl⟩
  | ask =>
    cases step
    exact ⟨by simp only [next, weight, Task.weights, Task.weight, EnterPoint.weight]; omega,
      world.roster_logLine ..⟩
  | wait since =>
    simp only at step
    split at step <;> cases step
    exact ⟨by simp only [next, weight, Task.weights, Task.weight, EnterPoint.weight]; omega, rfl⟩
  | record waited =>
    cases step
    exact ⟨by simp only [next, weight, Task.weights, Task.weight, EnterPoint.weight]; omega, rfl⟩
  | tally waited =>
    cases step
    exact ⟨by simp only [EnterPoint.weight]; omega, world.roster_logLine ..⟩
  | reentered =>
    cases step
    exact ⟨by simp only [EnterPoint.weight]; omega, world.roster_logLine ..⟩

theorem stepLeave_weight {world world' : World} {call call' : Call} {id : LockId} {access : Access}
    {point : LeavePoint} (step : stepLeave world call id access point = some (world', call'))
    (n : Nat) :
    call'.weight n < point.weight + call.weight n ∧ world'.roster = world.roster := by
  unfold stepLeave at step
  cases point with
  | drop =>
    simp only at step
    split at step
    case h_1 =>
      cases step
      exact ⟨by simp only [crash, weight, Task.weights, LeavePoint.weight]; omega, rfl⟩
    case h_2 =>
      split at step <;> cases step <;>
        exact ⟨by simp only [next, weight, Task.weights, Task.weight, LeavePoint.weight]; omega, rfl⟩
  | unlatch hold =>
    cases step
    exact ⟨by simp only [next, weight, Task.weights, Task.weight, LeavePoint.weight]; omega, rfl⟩
  | remark hold =>
    cases hold with
    | none =>
      cases step
      exact ⟨by simp only [crash, weight, Task.weights, LeavePoint.weight]; omega, rfl⟩
    | some hold =>
      cases step
      exact ⟨by simp only [LeavePoint.weight]; omega, world.roster_logLine ..⟩

theorem stepDemand_weight (world : World) (call : Call) (role : Role) (p : Precondition)
    (value : Value) (n : Nat) :
    (stepDemand world call role p value).2.weight n < value.size + 2 + call.weight n ∧
      (stepDemand world call role p value).1.roster = world.roster := by
  have unmoved := (world.demand_unmoved (call.ctx.inside role.way) p).roster
  unfold stepDemand
  split
  case h_1 panic after outcome =>
    rw [outcome] at unmoved
    have := weight_abandon n call panic
    exact ⟨by simp only; omega, unmoved⟩
  case h_2 v after outcome =>
    rw [outcome] at unmoved
    have := weight_settle n call role ⟨0, some v.toFailure⟩
    exact ⟨by simp only; omega, unmoved⟩
  case h_3 after outcome =>
    rw [outcome] at unmoved
    exact ⟨by simp only [next, weight, Task.weights, Task.weight]; omega, unmoved⟩

theorem stepDump_weight (world : World) (call : Call) (role : Role) (p : Precondition)
    (value : Value) (n : Nat) :
    (stepDump world call role p value).2.weight n < value.size + 1 + call.weight n ∧
      (stepDump world call role p value).1 = world := by
  cases value with
  | done =>
    have := weight_settle n { call with writer := call.writer.pop.2 } role call.writer.pop.1
    exact ⟨by simp only [stepDump, weight] at *; omega, rfl⟩
  | bytes part rest =>
    refine ⟨?_, rfl⟩
    simp only [stepDump, next, weight, Task.weights, Task.weight, Value.size]
    omega
  | listing lock selection rest =>
    refine ⟨?_, rfl⟩
    simp only [stepDump, next, weight, Task.weights, Task.weight, Value.size]
    omega
  | guarded way precondition inner rest =>
    refine ⟨?_, rfl⟩
    simp only [stepDump, next, weight, Task.weights, Task.weight, Value.size]
    omega
  | raise message =>
    have := weight_abandon n call (.raised message)
    exact ⟨by simp only [stepDump]; omega, rfl⟩

theorem stepSurvey_weight (world : World) (call : Call) (selection : Selection) :
    (stepSurvey world call selection).2.weight world.roster.size <
      Task.visitWeight * world.roster.size + 1 + call.weight world.roster.size ∧
      (stepSurvey world call selection).1.roster = world.roster := by
  simp only [stepSurvey]
  split
  case h_1 failure _ =>
    refine ⟨?_, rfl⟩
    exact Nat.lt_of_le_of_lt (Task.weights_filter _ Task.isLeave call.tasks) (by
      simp only [weight]; omega)
  case h_2 =>
    refine ⟨?_, rfl⟩
    simp only [weight, Task.weights_append, Task.weights_visits, Roster.length_ordered]
    omega

theorem stepVisit_weight (world : World) (call : Call) (id : LockId) (selection : Selection)
    (n : Nat) :
    (stepVisit world call id selection).2.weight n < Task.visitWeight + call.weight n ∧
      (stepVisit world call id selection).1.roster = world.roster := by
  simp only [stepVisit]
  split <;> refine ⟨?_, rfl⟩ <;>
    simp only [next, weight, Task.weights, Task.weight, Task.visitWeight, Task.entering,
      Task.leaving, EnterPoint.weight, LeavePoint.weight, Value.size] <;>
    omega

theorem step_weight {world world' : World} {call call' : Call}
    (step : call.step world = some (world', call')) :
    call'.weight world.roster.size < call.weight world.roster.size ∧
      world'.roster.size ≤ world.roster.size := by
  unfold Call.step at step
  split at step
  · cases step
  case h_2 task rest tasks =>
    have total : call.weight world.roster.size =
        task.weight world.roster.size + Task.weights world.roster.size rest := by
      simp only [weight, tasks, Task.weights]
    rw [total]
    cases task with
    | enter id access purpose point =>
      obtain ⟨less, same⟩ := stepEnter_weight step world.roster.size
      exact ⟨less, same ▸ Nat.le_refl _⟩
    | leave id access point =>
      obtain ⟨less, same⟩ := stepLeave_weight step world.roster.size
      exact ⟨less, same ▸ Nat.le_refl _⟩
    | close id =>
      simp only [Option.some.injEq, stepClose] at step
      split at step <;> cases step <;>
        exact ⟨by simp only [next, weight, Task.weights, Task.weight]; omega, Nat.le_refl _⟩
    | retire id =>
      cases step
      exact ⟨by simp only [weight, Task.weight]; omega, Roster.size_strike ..⟩
    | survey selection =>
      obtain ⟨less, same⟩ := stepSurvey_weight world { call with tasks := rest } selection
      simp only [Option.some.injEq] at step
      rw [step] at less same
      exact ⟨less, same ▸ Nat.le_refl _⟩
    | visit id selection =>
      obtain ⟨less, same⟩ :=
        stepVisit_weight world { call with tasks := rest } id selection world.roster.size
      simp only [Option.some.injEq] at step
      rw [step] at less same
      exact ⟨less, same ▸ Nat.le_refl _⟩
    | demand role p value =>
      obtain ⟨less, same⟩ :=
        stepDemand_weight world { call with tasks := rest } role p value world.roster.size
      simp only [Option.some.injEq] at step
      rw [step] at less same
      exact ⟨less, same ▸ Nat.le_refl _⟩
    | dump role p value =>
      obtain ⟨less, same⟩ :=
        stepDump_weight world { call with tasks := rest } role p value world.roster.size
      simp only [Option.some.injEq] at step
      rw [step] at less same
      exact ⟨less, same ▸ Nat.le_refl _⟩

end Call

namespace Session

theorem weight_mono {m n : Nat} (more : m ≤ n) (pending : List Pending) :
    weight m pending ≤ weight n pending := by
  induction pending with
  | nil => exact Nat.le_refl _
  | cons p rest ih => exact Nat.add_le_add (Task.weights_mono more _) ih

theorem stepFirst_weight {world world' : World} {pending pending' : List Pending}
    (step : stepFirst world pending = some (world', pending')) :
    weight world.roster.size pending' < weight world.roster.size pending ∧
      world'.roster.size ≤ world.roster.size := by
  induction pending generalizing pending' with
  | nil => cases step
  | cons p rest ih =>
    unfold stepFirst at step
    split at step
    case h_1 after call own =>
      cases step
      obtain ⟨less, kept⟩ := Call.step_weight (Call.step_of_proceed? own)
      exact ⟨by simp only [weight]; omega, kept⟩
    case h_2 =>
      split at step
      · cases step
      case h_2 after stepped others =>
        cases step
        obtain ⟨less, kept⟩ := ih others
        exact ⟨by simp only [weight]; omega, kept⟩

theorem run_rests {bound : Nat} {world : World} {pending : List Pending}
    (enough : weight world.roster.size pending ≤ bound) :
    stepFirst (run bound world pending).1 (run bound world pending).2 = none := by
  induction bound generalizing world pending with
  | zero =>
    cases step : stepFirst world pending with
    | none => exact step
    | some next =>
      have := (stepFirst_weight step).1
      omega
  | succ bound ih =>
    unfold run
    split
    case h_1 rest => exact rest
    case h_2 after stepped step =>
      obtain ⟨less, kept⟩ := stepFirst_weight step
      have := weight_mono kept stepped
      exact ih (by omega)

theorem settle_rests (session : Session) :
    stepFirst session.settle.world session.settle.pending = none :=
  run_rests (Nat.le_refl _)

end Session

end GuardedDump
