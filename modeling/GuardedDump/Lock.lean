import GuardedDump.Duration.Printer
import GuardedDump.Gate
import GuardedDump.Panic
import GuardedDump.Remark
import GuardedDump.Selection
import GuardedDump.Table
import GuardedDump.Failure

/-!
# Locks that know their holders

A lock is a gate, a table of holds with a mutex of its own, and counters of acquisitions, which
have no upper bound here. Each operation is a sequence of atomic transitions on one lock, which other
threads may come between:

* entering: `consult` the table, `ask` at the gate and wait for it, `record` the hold, `tally` it;
* leaving: `drop` one level of the hold, `unlatch` the gate once the hold is gone.

`consult`, `record` and `drop` are critical sections: they take the mutex of the table and give it
back. To read the table takes the mutex too, but nothing can come between taking it and giving it
back, so what only reads is a function of the lock.
-/

namespace GuardedDump

structure Lock where
  name : String
  timeout : Duration
  logger : Logger
  level : Nat
  gate : Gate
  internal : Option Thread
  table : Table
  sharedCount : Nat
  exclusiveCount : Nat
  contentions : Nat

namespace Lock

def create (name : String) (timeout : Duration) (logger : Logger) : Lock where
  name := name
  timeout := timeout
  logger := logger
  level := 1
  gate := .vacant
  internal := none
  table := .empty
  sharedCount := 0
  exclusiveCount := 0
  contentions := 0

def clampLevel (level : Int) : Nat :=
  if level < 0 then 0 else if 3 < level then 3 else level.toNat

def setLevel (lock : Lock) (level : Int) : Lock :=
  { lock with level := clampLevel level }

def remark (lock : Lock) (r : Remark) : Option String :=
  if Nat.ble 3 lock.level then
    some ("[" ++ lock.name ++ "] " ++ r.action ++ " for purpose '" ++ r.purpose ++ "'" ++ r.tail)
  else none

def overdueText (lock : Lock) (d : Duration) (r : Remark) : String :=
  "[" ++ lock.name ++ "] WARNING: " ++ r.action ++ " for purpose '" ++ r.purpose ++ "' took " ++ d.text ++
    " exceeding timeout of " ++ lock.timeout.text ++ r.tail

/-- The line about an action that took `d`: a warning if that is too long, unless the lock is
silent. -/
def timedRemark (lock : Lock) (d : Duration) (r : Remark) : Option String :=
  if d.exceeds lock.timeout then
    if lock.level == 0 then none else some (lock.overdueText d r)
  else lock.remark r

/-- To take the mutex. Nobody does while another thread has it (`Call.waits`). -/
def seize (lock : Lock) (t : Thread) : Lock :=
  { lock with internal := some t }

def cede (lock : Lock) : Lock :=
  { lock with internal := none }

@[simp] theorem table_cede (lock : Lock) : lock.cede.table = lock.table := rfl

@[simp] theorem gate_cede (lock : Lock) : lock.cede.gate = lock.gate := rfl

theorem cede_of_free {lock : Lock} (free : lock.internal = none) : lock.cede = lock := by
  unfold cede
  rw [← free]

/-- What a lock shows, the mutex of its table aside, is the same before and after taking it. -/
theorem view_of_cede {α : Type} {after before : Lock} (view : Lock → α)
    (blind : ∀ lock : Lock, view lock.cede = view lock) (same : after.cede = before.cede) :
    view after = view before := by
  rw [← blind, same, blind]

inductive Entry where
  | fresh
  | reentered
  deriving DecidableEq

/-- Look a thread up. A shared hold is re-entered on the spot; any other hold is misuse. -/
def consult (lock : Lock) (t : Thread) (access : Access) : Except Panic Entry × Lock :=
  if !t.isKnown then (.error (.unknownThread lock.name t), lock)
  else
    let lock := lock.seize t
    match lock.table.get? t, access with
    | none, _ => (.ok .fresh, lock.cede)
    | some hold, .shared =>
      if hold.mode = .exclusive then (.error (.sharedUnderExclusive lock.name t), lock.cede)
      else
        let deeper := { hold with count := hold.count + 1 }
        (.ok .reentered, cede { lock with table := lock.table.insert t deeper })
    | some hold, .exclusive => (.error (.exclusiveUnderHold lock.name t hold.mode), lock.cede)

def ask (lock : Lock) (t : Thread) (access : Access) : Lock :=
  { lock with gate := lock.gate.request t access }

def owns (lock : Lock) (t : Thread) (access : Access) : Bool :=
  lock.gate.owns t access

def record (lock : Lock) (t : Thread) (hold : Hold) : Lock :=
  let lock := lock.seize t
  cede { lock with table := lock.table.insert t hold }

theorem consult_eq (lock : Lock) (t : Thread) (access : Access) : lock.consult t access =
    if !t.isKnown then (.error (.unknownThread lock.name t), lock)
    else
      match lock.table.get? t, access with
      | none, _ => (.ok .fresh, lock.cede)
      | some hold, .shared =>
        if hold.mode = .exclusive then (.error (.sharedUnderExclusive lock.name t), lock.cede)
        else (.ok .reentered, lock.record t { hold with count := hold.count + 1 })
      | some hold, .exclusive => (.error (.exclusiveUnderHold lock.name t hold.mode), lock.cede) :=
  rfl

def tally (lock : Lock) (access : Access) : Lock :=
  { lock with
    sharedCount := if access = .shared then lock.sharedCount + 1 else lock.sharedCount
    exclusiveCount := if access = .exclusive then lock.exclusiveCount + 1 else lock.exclusiveCount }

def tallyWait (lock : Lock) (waited : Duration) : Lock :=
  { lock with
    contentions := if waited.exceeds lock.timeout then lock.contentions + 1 else lock.contentions }

def acquired (lock : Lock) : Access → Nat
  | .shared => lock.sharedCount
  | .exclusive => lock.exclusiveCount

@[simp] theorem acquired_cede (lock : Lock) : lock.cede.acquired = lock.acquired := rfl

@[simp] theorem acquired_tally (lock : Lock) (wish access : Access) :
    (lock.tally wish).acquired access =
      lock.acquired access + if wish = access then 1 else 0 := by
  cases wish <;> cases access <;> rfl

@[simp] theorem acquired_tallyWait (lock : Lock) (waited : Duration) (access : Access) :
    (lock.tallyWait waited).acquired access = lock.acquired access := by
  cases access <;> rfl

@[simp] theorem table_tally (lock : Lock) (access : Access) :
    (lock.tally access).table = lock.table := rfl

@[simp] theorem table_tallyWait (lock : Lock) (waited : Duration) :
    (lock.tallyWait waited).table = lock.table := rfl

@[simp] theorem table_record (lock : Lock) (t : Thread) (hold : Hold) :
    (lock.record t hold).table = lock.table.insert t hold := rfl

@[simp] theorem acquired_record (lock : Lock) (t : Thread) (hold : Hold) :
    (lock.record t hold).acquired = lock.acquired := rfl

/-- Give back one level of a hold. The hold itself comes back once it is gone from the table. -/
def drop (lock : Lock) (t : Thread) (access : Access) : Except Panic (Option Hold) × Lock :=
  let lock := lock.seize t
  -- The mutex is given back on every way out, also after a panic.
  match lock.table.get? t with
  | none => (.error (.notHolder lock.name t access), lock.cede)
  | some hold =>
    if hold.mode = access.mode then
      let left := { hold with count := hold.count - 1 }
      if 0 < left.count then (.ok none, cede { lock with table := lock.table.insert t left })
      else (.ok (some left), cede { lock with table := lock.table.erase t })
    else (.error (.notHolder lock.name t access), lock.cede)

theorem drop_eq (lock : Lock) (t : Thread) (access : Access) : lock.drop t access =
    match lock.table.get? t with
    | none => (.error (.notHolder lock.name t access), lock.cede)
    | some hold =>
      if hold.mode = access.mode then
        if 0 < hold.count - 1 then (.ok none, lock.record t { hold with count := hold.count - 1 })
        else
          (.ok (some { hold with count := hold.count - 1 }),
            cede { lock with table := lock.table.erase t })
      else (.error (.notHolder lock.name t access), lock.cede) :=
  rfl

def unlatch (lock : Lock) (t : Thread) (access : Access) : Lock :=
  { lock with gate := lock.gate.release t access }

def hasHold (lock : Lock) (t : Thread) : Bool :=
  (lock.table.get? t).isSome

def hasExclusiveHold (lock : Lock) (t : Thread) : Bool :=
  match lock.table.get? t with
  | none => false
  | some hold => hold.mode == .exclusive

def heldBy (lock : Lock) (t : Thread) : Option Hold :=
  if t.isKnown then lock.table.get? t else none

def check (lock : Lock) (t : Thread) (required : Access) (site : String) : Option Violation :=
  match lock.heldBy t with
  | none => some ⟨{
      lock := lock.name, thread := t, required := required.mode,
      holding := false, heldMode := .shared, caller := site }, none⟩
  | some hold =>
    if hold.mode.grants required then none
    else some ⟨{
      lock := lock.name, thread := t, required := required.mode,
      holding := true, heldMode := hold.mode, caller := site }, none⟩

def headLine (lock : Lock) : String :=
  lock.name ++ ": " ++ Numeral.ofNat lock.table.size ++ " holder(s)\n"

def holdLine (now : Instant) (entry : Thread × Hold) : String :=
  "  - " ++ entry.1.label ++ ": " ++ entry.2.text ++ ", held " ++
    ((entry.2.age now).round .microsecond).text ++ "\n"

def countLine (lock : Lock) : String :=
  "  acquired: shared=" ++ Numeral.ofNat lock.sharedCount ++ " exclusive=" ++
    Numeral.ofNat lock.exclusiveCount ++ " contentions=" ++ Numeral.ofNat lock.contentions ++ "\n"

def listed (lock : Lock) (selection : Selection) : List (Thread × Hold) :=
  lock.table.ordered.filter fun entry => selection.shows entry.2.mode

def listing (lock : Lock) (selection : Selection) (now : Instant) : List String :=
  lock.headLine :: (lock.listed selection).map (holdLine now) ++ [lock.countLine]

def payloads (lock : Lock) (selection : Selection) (now : Instant) : List (List UInt8) :=
  (lock.listing selection now).map Text.bytes

end Lock

end GuardedDump
