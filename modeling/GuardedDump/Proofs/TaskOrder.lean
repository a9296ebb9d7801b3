import GuardedDump.Call

namespace GuardedDump

namespace Task

inductive Unfolds : Task → List Task → Prop where
  | enter {id access purpose point later} :
      Unfolds (.enter id access purpose point) [.enter id access purpose later]
  | leave {id access point later} : Unfolds (.leave id access point) [.leave id access later]
  | close {id} : Unfolds (.close id) [.retire id]
  | survey {selection} (locks : List (String × LockId)) :
      Unfolds (.survey selection) (locks.map fun entry => .visit entry.2 selection)
  | held {id selection role p value} : Unfolds (.visit id selection) [.demand role p value]
  | visit {id selection role p value purpose} : Unfolds (.visit id selection)
      [.entering id .shared purpose, .demand role p value, .leaving id .shared]
  | demand {role p value} : Unfolds (.demand role p value) [.dump role p value]
  | dump {role p value rest} : Unfolds (.dump role p value) [.dump role p rest]
  | guarded {role p value way q inner rest} :
      Unfolds (.dump role p value) [.demand (.inner way) q inner, .dump role p rest]

def isFresh : Task → Bool
  | enter _ _ _ .consult => true
  | leave _ _ .drop => true
  | close _ => true
  | survey _ => true
  | visit _ _ => true
  | demand _ _ _ => true
  | _ => false

def isDump : Task → Bool
  | dump _ _ _ => true
  | _ => false

def isWrite : Task → Bool
  | demand _ _ _ => true
  | dump _ _ _ => true
  | _ => false

def Before (task later : Task) : Prop :=
  later.isFresh = true ∨ task.isWrite = true ∧ later.isDump = true

theorem isDump_of_fresh {task : Task} (fresh : task.isFresh = true) : task.isDump = false := by
  cases task <;> first | rfl | cases fresh

theorem Before.isFresh {task later : Task} (before : task.Before later)
    (other : task.isWrite = false) : later.isFresh = true := by
  rcases before with fresh | ⟨write, -⟩
  · exact fresh
  · rw [other] at write
    cases write

theorem Unfolds.isWrite {task : Task} {front : List Task} (unfolds : task.Unfolds front)
    (write : task.isWrite = true) : ∀ first ∈ front, first.isWrite = true := by
  cases unfolds <;> simp_all [Task.isWrite]

theorem Unfolds.no_dump {task : Task} {front : List Task} (unfolds : task.Unfolds front)
    (other : task.isWrite = false) : ∀ first ∈ front, first.isDump = false := by
  intro first member
  cases unfolds with
  | survey locks =>
      obtain ⟨entry, -, rfl⟩ := List.mem_map.mp member
      rfl
  | visit =>
      simp only [List.mem_cons, List.not_mem_nil, or_false] at member
      rcases member with rfl | rfl | rfl <;> rfl
  | demand | dump | guarded => cases other
  | _ =>
      cases List.mem_singleton.mp member
      rfl

theorem Unfolds.pairwise {task : Task} {front : List Task} (unfolds : task.Unfolds front) :
    front.Pairwise Before := by
  cases unfolds with
  | survey locks =>
      rw [List.pairwise_map]
      exact List.pairwise_of_forall fun _ _ => .inl rfl
  | visit => simp [Before, Task.isFresh, leaving]
  | guarded => simp [Before, Task.isWrite, isDump]
  | _ => exact List.pairwise_singleton ..

theorem Unfolds.before {task later : Task} {front : List Task} (unfolds : task.Unfolds front)
    (behind : task.Before later) : ∀ first ∈ front, first.Before later := by
  intro first member
  rcases behind with fresh | ⟨write, dump⟩
  · exact .inl fresh
  · exact .inr ⟨unfolds.isWrite write first member, dump⟩

end Task

namespace Call

def Orderly (call : Call) : Prop :=
  call.tasks.Pairwise Task.Before

theorem unwind_tasks (call : Call) : call.unwind.tasks.Sublist call.tasks :=
  List.filter_sublist

theorem settle_tasks (call : Call) (role : Role) (receipt : Receipt) :
    (call.settle role receipt).tasks.Sublist call.tasks := by
  unfold settle
  split
  · exact .refl _
  · exact .refl _
  · exact List.filter_sublist
  · exact List.filter_sublist

@[simp] theorem settle_ctx (call : Call) (role : Role) (receipt : Receipt) :
    (call.settle role receipt).ctx = call.ctx := by
  unfold settle
  split <;> rfl

variable {world world' : World} {call call' : Call} {task : Task} {rest : List Task}

theorem stepEnter_tasks {id : LockId} {access : Access} {purpose : String} {point : EnterPoint}
    (step : stepEnter world call id access purpose point = some (world', call')) :
    call'.ctx = call.ctx ∧ (call'.tasks.Sublist call.tasks ∨
      ∃ later, call'.tasks = .enter id access purpose later :: call.tasks) := by
  unfold stepEnter at step
  cases point with
  | consult =>
      simp only at step
      split at step <;> cases step
      · exact ⟨rfl, .inl (List.nil_sublist _)⟩
      · exact ⟨rfl, .inr ⟨_, rfl⟩⟩
      · exact ⟨rfl, .inr ⟨_, rfl⟩⟩
  | ask =>
      cases step
      exact ⟨rfl, .inr ⟨_, rfl⟩⟩
  | wait since =>
      simp only at step
      split at step <;> cases step
      exact ⟨rfl, .inr ⟨_, rfl⟩⟩
  | record waited =>
      cases step
      exact ⟨rfl, .inr ⟨_, rfl⟩⟩
  | tally waited =>
      cases step
      exact ⟨rfl, .inl (.refl _)⟩
  | reentered =>
      cases step
      exact ⟨rfl, .inl (.refl _)⟩

theorem stepLeave_tasks {id : LockId} {access : Access} {point : LeavePoint}
    (step : stepLeave world call id access point = some (world', call')) :
    call'.ctx = call.ctx ∧ (call'.tasks.Sublist call.tasks ∨
      ∃ later, call'.tasks = .leave id access later :: call.tasks) := by
  unfold stepLeave at step
  cases point with
  | drop =>
      simp only at step
      split at step
      case h_1 =>
        cases step
        exact ⟨rfl, .inl (List.nil_sublist _)⟩
      case h_2 =>
        split at step <;> cases step
        · exact ⟨rfl, .inl (.refl _)⟩
        · exact ⟨rfl, .inr ⟨_, rfl⟩⟩
  | unlatch hold =>
      cases step
      exact ⟨rfl, .inr ⟨_, rfl⟩⟩
  | remark hold =>
      cases hold <;> cases step
      · exact ⟨rfl, .inl (List.nil_sublist _)⟩
      · exact ⟨rfl, .inl (.refl _)⟩

theorem stepDemand_tasks (world : World) (call : Call) (role : Role) (p : Precondition)
    (value : Value) :
    (stepDemand world call role p value).2.ctx = call.ctx ∧
      ((stepDemand world call role p value).2.tasks.Sublist call.tasks ∨
        (world.demand (call.ctx.inside role.way) p).1 = .ok none ∧
          (stepDemand world call role p value).2.tasks = .dump role p value :: call.tasks) := by
  unfold stepDemand
  split
  case h_1 panic after outcome => exact ⟨rfl, .inl (unwind_tasks _)⟩
  case h_2 v after outcome => exact ⟨settle_ctx .., .inl (settle_tasks ..)⟩
  case h_3 after outcome => exact ⟨rfl, .inr ⟨by rw [outcome], rfl⟩⟩

theorem stepDump_tasks (world : World) (call : Call) (role : Role) (p : Precondition)
    (value : Value) :
    (stepDump world call role p value).2.ctx = call.ctx ∧
      ((stepDump world call role p value).2.tasks.Sublist call.tasks ∨
        (∃ rest, (stepDump world call role p value).2.tasks = .dump role p rest :: call.tasks) ∨
        ∃ way q inner rest, (stepDump world call role p value).2.tasks =
          .demand (.inner way) q inner :: .dump role p rest :: call.tasks) := by
  cases value with
  | done => exact ⟨settle_ctx .., .inl (settle_tasks ..)⟩
  | bytes part rest => exact ⟨rfl, .inr (.inl ⟨rest, rfl⟩)⟩
  | listing lock selection rest => exact ⟨rfl, .inr (.inl ⟨rest, rfl⟩)⟩
  | guarded way q inner rest => exact ⟨rfl, .inr (.inr ⟨_, q, inner, rest, rfl⟩)⟩
  | raise message => exact ⟨rfl, .inl (unwind_tasks _)⟩

theorem stepSurvey_tasks (world : World) (call : Call) (selection : Selection) :
    (stepSurvey world call selection).2.ctx = call.ctx ∧
      ((stepSurvey world call selection).2.tasks.Sublist call.tasks ∨
        (stepSurvey world call selection).2.tasks =
          world.roster.ordered.map (fun entry => .visit entry.2 selection) ++ call.tasks) := by
  simp only [stepSurvey]
  split
  · exact ⟨rfl, .inl (unwind_tasks _)⟩
  · exact ⟨rfl, .inr rfl⟩

theorem step_tasks (tasks : call.tasks = task :: rest)
    (step : call.step world = some (world', call')) :
    call'.ctx = call.ctx ∧ (call'.tasks.Sublist rest ∨
      ∃ front, task.Unfolds front ∧ call'.tasks = front ++ rest) := by
  unfold Call.step at step
  rw [tasks] at step
  cases task with
  | enter id access purpose point =>
      obtain ⟨same, less | ⟨later, more⟩⟩ := stepEnter_tasks step
      · exact ⟨same, .inl less⟩
      · exact ⟨same, .inr ⟨_, .enter, more⟩⟩
  | leave id access point =>
      obtain ⟨same, less | ⟨later, more⟩⟩ := stepLeave_tasks step
      · exact ⟨same, .inl less⟩
      · exact ⟨same, .inr ⟨_, .leave, more⟩⟩
  | close id =>
      simp only [stepClose, Option.some.injEq] at step
      split at step <;> cases step
      · exact ⟨rfl, .inr ⟨_, .close, rfl⟩⟩
      · exact ⟨rfl, .inl (.refl _)⟩
  | retire id =>
      cases step
      exact ⟨rfl, .inl (.refl _)⟩
  | survey selection =>
      have shape := stepSurvey_tasks world { call with tasks := rest } selection
      rw [Option.some.inj step] at shape
      obtain ⟨same, less | more⟩ := shape
      · exact ⟨same, .inl less⟩
      · exact ⟨same, .inr ⟨_, .survey _, more⟩⟩
  | visit id selection =>
      simp only [stepVisit, Option.some.injEq] at step
      split at step <;> cases step
      · exact ⟨rfl, .inr ⟨_, .held, rfl⟩⟩
      · exact ⟨rfl, .inr ⟨_, .visit, rfl⟩⟩
  | demand role p value =>
      have shape := stepDemand_tasks world { call with tasks := rest } role p value
      rw [Option.some.inj step] at shape
      obtain ⟨same, less | ⟨-, more⟩⟩ := shape
      · exact ⟨same, .inl less⟩
      · exact ⟨same, .inr ⟨_, .demand, more⟩⟩
  | dump role p value =>
      have shape := stepDump_tasks world { call with tasks := rest } role p value
      rw [Option.some.inj step] at shape
      obtain ⟨same, less | ⟨later, more⟩ | ⟨_, q, inner, later, more⟩⟩ := shape
      · exact ⟨same, .inl less⟩
      · exact ⟨same, .inr ⟨_, .dump, more⟩⟩
      · exact ⟨same, .inr ⟨_, .guarded, more⟩⟩

theorem step_thread (step : call.step world = some (world', call')) :
    call'.thread = call.thread := by
  cases tasks : call.tasks with
  | nil =>
      simp only [Call.step, tasks] at step
      cases step
  | cons task rest => exact congrArg Context.thread (step_tasks tasks step).1

theorem step_orderly (orderly : call.Orderly) (step : call.step world = some (world', call')) :
    call'.Orderly := by
  cases tasks : call.tasks with
  | nil =>
      simp only [Call.step, tasks] at step
      cases step
  | cons task rest =>
      unfold Orderly at orderly ⊢
      rw [tasks, List.pairwise_cons] at orderly
      obtain ⟨behind, ordered⟩ := orderly
      obtain ⟨-, less | ⟨front, unfolds, more⟩⟩ := step_tasks tasks step
      · exact ordered.sublist less
      · rw [more, List.pairwise_append]
        exact ⟨unfolds.pairwise, ordered,
          fun first member later member' => unfolds.before (behind later member') first member⟩

end Call

end GuardedDump
