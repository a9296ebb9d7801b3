import GuardedDump.Proofs.Ledger

namespace GuardedDump

theorem Access.mode_inj {wish access : Access} : wish.mode = access.mode ↔ wish = access :=
  Access.mode_injective.eq_iff

def Hold.share (hold : Hold) (mode : Mode) : Int :=
  if hold.mode = mode then hold.count else 0

namespace Table

def holds (table : Table) (mode : Mode) : List (Thread × Hold) :=
  table.entries.filter fun entry => entry.2.mode = mode

def depth (table : Table) (mode : Mode) : Int :=
  (table.holds mode).foldr (fun entry deep => entry.2.count + deep) 0

def shareOf (table : Table) (t : Thread) (mode : Mode) : Int :=
  ((table.get? t).map fun hold => hold.share mode).getD 0

theorem depth_cons (t : Thread) (hold : Hold) (entries : List (Thread × Hold)) (mode : Mode) :
    depth ⟨(t, hold) :: entries⟩ mode = hold.share mode + depth ⟨entries⟩ mode := by
  unfold depth holds Hold.share
  by_cases same : hold.mode = mode
  · simp [same]
  · simp [same]

theorem depth_erase {table : Table} (distinct : table.Distinct) (t : Thread) (mode : Mode) :
    (table.erase t).depth mode + table.shareOf t mode = table.depth mode := by
  obtain ⟨entries⟩ := table
  induction entries with
  | nil => rfl
  | cons entry rest ih =>
      obtain ⟨owner, hold⟩ := entry
      obtain ⟨first, later⟩ := List.nodup_cons.mp distinct
      rw [depth_cons]
      by_cases own : owner = t
      · subst own
        have others : rest.filter (fun entry => entry.1 != owner) = rest := by
          rw [List.filter_eq_self]
          intro entry member
          have apart : entry.1 ≠ owner := fun same => first (List.mem_map.mpr ⟨entry, member, same⟩)
          simpa using apart
        simp only [erase, shareOf, get?, List.filter_cons, List.find?_cons, bne_self_eq_false,
          beq_self_eq_true, others]
        exact Int.add_comm _ _
      · have kept := ih later
        have share : shareOf ⟨(owner, hold) :: rest⟩ t mode = shareOf ⟨rest⟩ t mode := by
          simp [shareOf, get?, own]
        have left : (erase ⟨(owner, hold) :: rest⟩ t).depth mode =
            hold.share mode + (erase ⟨rest⟩ t).depth mode := by
          rw [← depth_cons owner]
          simp [erase, own]
        rw [share, left, Int.add_assoc, kept]

theorem depth_insert {table : Table} (distinct : table.Distinct) (t : Thread) (hold : Hold)
    (mode : Mode) :
    (table.insert t hold).depth mode + table.shareOf t mode =
      hold.share mode + table.depth mode := by
  have erased := depth_erase distinct t mode
  have inserted : (table.insert t hold).depth mode =
      hold.share mode + (table.erase t).depth mode := depth_cons ..
  omega

theorem shareOf_none {table : Table} {t : Thread} (free : table.get? t = none) (mode : Mode) :
    table.shareOf t mode = 0 := by
  simp [shareOf, free]

theorem shareOf_some {table : Table} {t : Thread} {hold : Hold} (held : table.get? t = some hold)
    (mode : Mode) : table.shareOf t mode = hold.share mode := by
  simp [shareOf, held]

end Table

/-- Holds that a task has recorded and not counted, less those that it has given up on its way. -/
def Task.owing (id : LockId) (access : Access) : Task → Int
  | enter lock wish _ (.tally _) => if lock = id ∧ wish = access then 1 else 0
  | enter lock wish _ .reentered => if lock = id ∧ wish = access then 1 else 0
  | leave lock wish (.unlatch _) => if lock = id ∧ wish = access then -1 else 0
  | leave lock wish (.remark _) => if lock = id ∧ wish = access then -1 else 0
  | _ => 0

theorem Task.owing_of_outside {task : Task} {id : LockId} (outside : task.phaseAt id = .outside)
    (access : Access) : task.owing id access = 0 := by
  unfold phaseAt at outside
  split at outside
  case isTrue own =>
    cases task with
    | enter lock wish purpose point => cases point <;> first | rfl | cases outside
    | leave lock wish point => cases point <;> first | rfl | cases outside
    | _ => rfl
  case isFalse other =>
    have away (lock : LockId) (elsewhere : some lock ≠ some id) : lock ≠ id :=
      fun same => elsewhere (by rw [same])
    cases task with
    | enter lock wish purpose point => cases point <;> simp [owing, away lock other]
    | leave lock wish point => cases point <;> simp [owing, away lock other]
    | _ => rfl

theorem Hold.Backs.shared_of_ne {hold : Hold} {access : Access} (backs : hold.Backs access)
    (mode : hold.mode ≠ .exclusive) : hold.mode = .shared := by
  cases access with
  | shared => exact backs.mode
  | exclusive => exact absurd backs.mode mode

theorem Stride.balance {world : World} {ctx : Context} {id : LockId} {task : Task}
    {later : Option Task} {mark : Option Mark} {target : Lock} {stand : Stand}
    (stride : Stride world ctx id task later mark target)
    (distinct : (world.lock id).table.Distinct)
    (fits : Fits ctx.thread (task.phaseAt id) ((world.lock id).table.get? ctx.thread) stand)
    (access : Access) :
    (target.acquired access : Int) + (later.map (Task.owing id access)).getD 0 +
        (world.lock id).table.depth access.mode =
      (world.lock id).acquired access + task.owing id access +
        (if mark = some (.left access) then 1 else 0) + target.table.depth access.mode := by
  have inserted (hold : Hold) := Table.depth_insert distinct ctx.thread hold access.mode
  generalize found : (world.lock id).table.get? ctx.thread = record at fits
  cases stride with
  | consult | ask | welcome | unlatch =>
      simp [Task.owing, Lock.ask, Lock.unlatch, Lock.cede, Lock.acquired]
  | @remark wish =>
      by_cases same : wish = access
      · subst same
        simp only [Task.owing, and_self, if_true, Option.map_none, Option.getD_none]
        omega
      · simp [Task.owing, same]
  | @tally wish | @retally wish =>
      by_cases same : wish = access <;> simp [Task.owing, same]
  | @record wish purpose =>
      -- Nobody who has just been let in has a record yet, so the new one replaces none.
      rw [Task.phaseAt_own rfl] at fits
      rw [fits.of_granted] at found
      have added := inserted ⟨wish.mode, purpose, world.now, ctx.origin, 1⟩
      rw [Table.shareOf_none found] at added
      by_cases same : wish = access <;>
        simp [Task.owing, Hold.share, Access.mode_inj, same] at added ⊢ <;> omega
  | @reenter purpose hold held mode =>
      cases found.symm.trans held
      obtain ⟨-, _, -, backs⟩ := fits.backs
      have shared : hold.mode = Access.shared.mode := backs.shared_of_ne mode
      have added := inserted { hold with count := hold.count + 1 }
      rw [Table.shareOf_some held] at added
      by_cases same : Access.shared = access <;>
        simp [Task.owing, Hold.share, shared, Access.mode_inj, same] at added ⊢ <;> omega
  | @lower hold held mode more =>
      have shared : hold.mode = Access.shared.mode := mode
      have added := inserted { hold with count := hold.count - 1 }
      rw [Table.shareOf_some held] at added
      by_cases same : Access.shared = access <;>
        simp [Task.owing, Hold.share, shared, Access.mode_inj, same] at added ⊢ <;> omega
  | @linger hold held mode more =>
      -- An exclusive hold is never deeper than one level.
      cases found.symm.trans held
      obtain ⟨-, _, -, backs⟩ := fits.backs
      have single := backs.single (Access.mode_injective (backs.mode.symm.trans mode))
      omega
  | @vacate wish hold held mode last =>
      cases found.symm.trans held
      obtain ⟨-, _, -, backs⟩ := fits.backs
      have single : hold.count = 1 := Int.le_antisymm last backs.positive
      have erased := Table.depth_erase distinct ctx.thread access.mode
      rw [Table.shareOf_some held] at erased
      by_cases same : wish = access <;>
        simp [Task.owing, Hold.share, mode, Access.mode_inj, single, same, Lock.cede, Lock.acquired]
          at erased ⊢ <;>
        omega

/-- A lock that does not exist lets nobody in, so nothing is counted there. -/
theorem Stride.still_of_blank {world : World} {ctx : Context} {id : LockId} {task : Task}
    {later : Option Task} {mark : Option Mark} {target : Lock}
    (stride : Stride world ctx id task later mark target) (gate : (world.lock id).gate = .vacant)
    (table : (world.lock id).table = .empty)
    (fits : Fits ctx.thread (task.phaseAt id) ((world.lock id).table.get? ctx.thread)
      ((world.lock id).gate.stand ctx.thread)) :
    target.acquired = (world.lock id).acquired ∧ target.table = (world.lock id).table ∧
      target.contentions = (world.lock id).contentions := by
  have free : (world.lock id).table.get? ctx.thread = none := by
    rw [table]
    rfl
  cases stride with
  | record | tally | retally =>
      rw [Task.phaseAt_own rfl, free, gate, Gate.stand_vacant] at fits
      cases fits
  | reenter held | lower held | linger held | vacate held =>
      rw [free] at held
      cases held
  | _ => exact ⟨rfl, rfl, rfl⟩

namespace Call

variable {world world' : World} {call call' : Call} {id : LockId}

def owing (call : Call) (id : LockId) (access : Access) : Int :=
  match call.tasks with
  | [] => 0
  | task :: _ => task.owing id access

theorem owing_of_outside (outside : call.phaseAt id = .outside) (access : Access) :
    call.owing id access = 0 := by
  unfold phaseAt at outside
  unfold owing
  split
  · rfl
  case h_2 task rest tasks =>
    rw [tasks] at outside
    exact Task.owing_of_outside outside access

theorem step_counts {task : Task} {rest : List Task} (tasks : call.tasks = task :: rest)
    (own : task.lock? = some id)
    (fits : Fits call.thread (task.phaseAt id) ((world.lock id).table.get? call.thread)
      ((world.lock id).gate.stand call.thread))
    (step : call.step world = some (world', call')) :
    (∃ panic, (world'.lock id).cede = (world.lock id).cede ∧ call' = call.crash panic ∧
        call.mark world id = none ∧
        task.phaseAt id = .outside) ∨
      ∃ later target, Stride world call.ctx id task later (call.mark world id) target ∧
        call' = Call.resume { call with tasks := rest } later ∧
        (world'.lock id).acquired = target.acquired ∧ (world'.lock id).table = target.table ∧
        (world'.lock id).contentions = target.contentions := by
  rw [mark_own tasks own]
  rcases step_strides tasks own step with
    ⟨panic, same, rfl, unmarked, quiet | remark⟩ | ⟨later, target, stride, rfl, lock⟩
  · exact .inl ⟨panic, same, rfl, unmarked, (Task.phaseAt_own own).trans quiet⟩
  · rw [Task.phaseAt_own own, remark] at fits
    cases fits.of_remarking
  · refine .inr ⟨later, target, stride, rfl, ?_⟩
    rw [lock]
    split
    · exact ⟨rfl, rfl, rfl⟩
    case isFalse unknown =>
      have blank : world.lock id = .create "" .zero .standard := by
        simp [World.lock, unknown]
      obtain ⟨acquired, table, contentions⟩ :=
        stride.still_of_blank (by rw [blank]; rfl) (by rw [blank]; rfl) fits
      exact ⟨acquired.symm, table.symm, contentions.symm⟩

theorem step_balance (orderly : call.Orderly) (distinct : (world.lock id).table.Distinct)
    (fits : Fits call.thread (call.phaseAt id) ((world.lock id).table.get? call.thread)
      ((world.lock id).gate.stand call.thread))
    (step : call.step world = some (world', call')) (access : Access) :
    ((world'.lock id).acquired access : Int) + call'.owing id access +
        (world.lock id).table.depth access.mode =
      (world.lock id).acquired access + call.owing id access +
        (if call.mark world id = some (.left access) then 1 else 0) +
        (world'.lock id).table.depth access.mode := by
  cases tasks : call.tasks with
  | nil =>
      simp only [Call.step, tasks] at step
      cases step
  | cons task rest =>
      simp only [phaseAt, tasks] at fits
      have owed : call.owing id access = task.owing id access := by simp only [owing, tasks]
      rw [owed]
      by_cases own : task.lock? = some id
      · rcases step_counts tasks own fits step with
          ⟨panic, same, rfl, unmarked, outside⟩ | ⟨later, target, stride, rfl, acquired, table, -⟩
        · have table := Lock.view_of_cede Lock.table (fun _ => rfl) same
          have acquired := Lock.view_of_cede Lock.acquired (fun _ => rfl) same
          rw [unmarked, Task.owing_of_outside outside, table, acquired]
          simp [crash, owing]
        · have ahead : (Call.resume { call with tasks := rest } later).owing id access =
              (later.map (Task.owing id access)).getD 0 := by
            cases later with
            | none => exact owing_of_outside (orderly.phaseAt_rest tasks id) access
            | some next => rfl
          rw [ahead, acquired, table]
          exact stride.balance distinct fits access
      · rw [mark_other tasks own, step_lock_of_ne tasks own step,
          Task.owing_of_outside (Task.phaseAt_of_ne own),
          owing_of_outside (step_phaseAt_of_ne orderly tasks own step)]
        simp

theorem step_leave {access : Access} {point : LeavePoint} {rest : List Task}
    (tasks : call.tasks = .leave id access point :: rest)
    (step : call.step world = some (world', call')) :
    if call.mark world id = some (.left access) then call' = { call with tasks := rest }
    else (∃ panic, call' = call.crash panic) ∨
      ∃ onward, call'.tasks = .leave id access onward :: rest := by
  have own : (Task.leave id access point).lock? = some id := rfl
  rw [mark_own tasks own]
  rcases step_strides tasks own step with
    ⟨panic, -, rfl, unmarked, -⟩ | ⟨later, target, stride, rfl, -⟩
  · have none : (Task.leave id access point).mark world call.ctx = none := unmarked
    rw [none]
    exact .inl ⟨panic, rfl⟩
  · generalize made : (Task.leave id access point).mark world call.ctx = mark at stride
    cases stride with
    | lower | remark => exact (if_pos rfl).mpr rfl
    | linger | vacate | unlatch => exact .inr ⟨_, rfl⟩

end Call

namespace Session

variable {failures : Failures} {past : List (Session × Move)} {session after : Session}
  {move : Move} {id : LockId} {access : Access}

def leaves (session : Session) (id : LockId) (access : Access) : Move → Bool
  | .step t => session.mark t id (.step t) = some (.left access)
  | _ => false

def departures (id : LockId) (access : Access) (past : List (Session × Move)) : Nat :=
  past.countP fun moment => moment.1.leaves id access moment.2

def owing (pending : List Pending) (id : LockId) (access : Access) : Int :=
  pending.foldr (fun p owed => p.call.owing id access + owed) 0

def Balanced (session : Session) (id : LockId) (access : Access) (departed : Nat) : Prop :=
  ((session.world.lock id).acquired access : Int) + owing session.pending id access =
    departed + (session.world.lock id).table.depth access.mode

theorem owing_cons (p : Pending) (pending : List Pending) (id : LockId) (access : Access) :
    owing (p :: pending) id access = p.call.owing id access + owing pending id access := rfl

theorem owing_of_outside {pending : List Pending}
    (outside : ∀ p ∈ pending, p.call.phaseAt id = .outside) (access : Access) :
    owing pending id access = 0 := by
  induction pending with
  | nil => rfl
  | cons p rest ih =>
      rw [owing_cons, Call.owing_of_outside (outside p (by simp)) access,
        ih fun q member => outside q (by simp [member])]
      rfl

theorem owing_split (before later : List Pending) (p : Pending) (id : LockId) (access : Access) :
    owing (before ++ p :: later) id access =
      p.call.owing id access + owing (before ++ later) id access := by
  induction before with
  | nil => rfl
  | cons q rest ih =>
      rw [List.cons_append, List.cons_append, owing_cons, owing_cons, ih]
      omega

theorem owing_filter (keep : Pending → Bool) (pending : List Pending)
    (idle : ∀ p ∈ pending, keep p = false → p.call.owing id access = 0) :
    owing (pending.filter keep) id access = owing pending id access := by
  induction pending with
  | nil => rfl
  | cons p rest ih =>
      have others := ih fun q member => idle q (by simp [member])
      cases kept : keep p with
      | true => rw [List.filter_cons_of_pos kept, owing_cons, owing_cons, others]
      | false =>
          rw [List.filter_cons_of_neg (by simp [kept]), others, owing_cons, idle p (by simp) kept,
            Int.zero_add]

theorem newLock_counts (world : World) (name : String) (timeout : Duration) (logger : Logger)
    (id : LockId) :
    ((world.newLock name timeout logger).2.lock id).acquired = (world.lock id).acquired ∧
      ((world.newLock name timeout logger).2.lock id).contentions = (world.lock id).contentions := by
  rcases newLock_cases world name timeout logger id with same | ⟨blank, created⟩
  · rw [same]
    exact ⟨rfl, rfl⟩
  · rw [blank, created]
    exact ⟨rfl, rfl⟩

theorem Balanced.congr {n : Nat} (balanced : session.Balanced id access n)
    (acquired : (after.world.lock id).acquired = (session.world.lock id).acquired)
    (table : (after.world.lock id).table = (session.world.lock id).table)
    (owed : owing after.pending id access = owing session.pending id access) :
    after.Balanced id access n := by
  unfold Balanced
  rw [acquired, table, owed]
  exact balanced

theorem Balanced.next {n : Nat} (sound : session.Sound) (allowed : move.injects = false)
    (action : session.move? move = some after) (balanced : session.Balanced id access n) :
    after.Balanced id access (n + if session.leaves id access move then 1 else 0) := by
  cases move with
  | start ctx tag operation =>
      simp only [move?] at action
      split at action <;> cases action
      refine balanced.congr rfl rfl ?_
      have fresh := Call.owing_of_outside (operation_call_phaseAt operation ctx id) access
      rw [owing_cons, fresh, Int.zero_add]
  | step t =>
      simp only [move?] at action
      split at action
      · cases action
      case h_2 world pending stepped =>
        cases action
        obtain ⟨before, p, later, call, parts, rfl, step, rfl⟩ := stepOf_some stepped
        have member : p ∈ session.pending := by rw [parts]; simp
        have fits := (sound.agrees id).each p.call.thread
        rw [phaseOf_of_mem sound.distinct member] at fits
        have change := Call.step_balance (sound.orderly p member) (sound.agrees id).table fits step
          access
        have marked : session.mark p.call.thread id (.step p.call.thread) =
            p.call.mark session.world id := by
          simp [mark, callOf_of_mem sound.distinct member]
        unfold Balanced at balanced ⊢
        simp only [parts, owing_split, leaves, marked] at balanced ⊢
        by_cases left : p.call.mark session.world id = some (.left access)
        · simp only [left, decide_true, if_true] at change ⊢
          push_cast
          omega
        · simp only [left, decide_false, if_false, Bool.false_eq_true] at change ⊢
          push_cast
          omega
  | finish t =>
      simp only [move?] at action
      split at action
      case isFalse => cases action
      case isTrue finished =>
        cases action
        unfold isFinished at finished
        rw [List.any_eq_true] at finished
        obtain ⟨p, member, both⟩ := finished
        rw [Bool.and_eq_true, beq_iff_eq] at both
        obtain ⟨rfl, done⟩ := both
        refine balanced.congr rfl rfl (owing_filter _ _ ?_)
        intro q other gone
        have same : q.call = p.call := by
          have thread : q.call.thread = p.call.thread := by simpa using gone
          have first := callOf_of_mem sound.distinct other
          rw [thread, callOf_of_mem sound.distinct member] at first
          exact (Option.some.inj first).symm
        rw [same]
        simp only [Call.owing, List.isEmpty_iff.mp done]
  | command ctx command =>
      simp only [move?] at action
      split at action <;> cases action
      by_cases plain : command.isPlain = true
      · have tuned := session.perform_tuned ctx plain
        exact balanced.congr (tuned.acquired id) (tuned.table id) (by rw [session.perform_pending])
      · cases command with
        | newLock name timeout logger =>
            obtain ⟨acquired, -⟩ := newLock_counts session.world name timeout logger id
            exact balanced.congr acquired (lock_newLock session.world name timeout logger id).2.2 rfl
        | inject => cases allowed
        | _ => exact absurd rfl plain
  | advance d =>
      cases action
      exact balanced.congr rfl rfl rfl

theorem Run.balanced (run : Run failures past session) (id : LockId) (access : Access) :
    session.Balanced id access (departures id access past) := by
  induction run with
  | initial => cases id <;> cases access <;> rfl
  | @next past session after move previous allowed action ih =>
      have counted : departures id access (past ++ [(session, move)]) =
          departures id access past + if session.leaves id access move then 1 else 0 := by
        unfold departures
        rw [List.countP_append, List.countP_singleton]
      rw [counted]
      exact ih.next previous.reachable.sound allowed action

end Session

end GuardedDump
