import GuardedDump.Dump

namespace GuardedDump

inductive EnterPoint where
  | consult
  | ask
  | wait (since : Instant)
  | record (waited : Duration)
  | tally (waited : Duration)
  | reentered

inductive LeavePoint where
  | drop
  | unlatch (hold : Option Hold)
  | remark (hold : Option Hold)

inductive Role where
  | result
  /-- It counts for a survey, and a failure gets `title` in front. -/
  | block (title : String)
  /-- It is dropped: the write is part of a dump, this way from the call. -/
  | inner (way : Way)

def Role.way : Role → Way
  | inner way => way
  | _ => .direct

@[simp] theorem Role.way_result : Role.result.way = .direct := rfl

@[simp] theorem Role.way_inner (way : Way) : (Role.inner way).way = way := rfl

inductive Task where
  | enter (lock : LockId) (access : Access) (purpose : String) (point : EnterPoint)
  | leave (lock : LockId) (access : Access) (point : LeavePoint)
  | close (lock : LockId)
  | retire (lock : LockId)
  | survey (selection : Selection)
  | visit (lock : LockId) (selection : Selection)
  | demand (role : Role) (precondition : Precondition) (value : Value)
  | dump (role : Role) (precondition : Precondition) (value : Value)

def EnterPoint.weight : EnterPoint → Nat
  | consult => 5
  | ask => 4
  | wait _ => 3
  | record _ => 2
  | tally _ => 1
  | reentered => 1

def LeavePoint.weight : LeavePoint → Nat
  | drop => 3
  | unlatch _ => 2
  | remark _ => 1

namespace Task

def visitWeight : Nat := 12

def weight (locks : Nat) : Task → Nat
  | enter _ _ _ point => point.weight
  | leave _ _ point => point.weight
  | close _ => 2
  | retire _ => 1
  | survey _ => visitWeight * locks + 1
  | visit _ _ => visitWeight
  | demand _ _ value => value.size + 2
  | dump _ _ value => value.size + 1

def weights (locks : Nat) : List Task → Nat
  | [] => 0
  | task :: rest => task.weight locks + weights locks rest

def isLeave : Task → Bool
  | leave _ _ _ => true
  | _ => false

/-- The lock whose table the next step of `t` looks into. -/
def table? (t : Thread) : Task → Option LockId
  | enter id _ _ .consult => if t.isKnown then some id else none
  | enter id _ _ (.record _) => some id
  | leave id _ .drop => some id
  | close id => some id
  | visit id _ => some id
  | demand _ p _ =>
    match p.checker with
    | .lock id => if (p.self.getD t).isKnown then some id else none
    | .rule _ => none
  | dump _ _ (.listing id _ _) => some id
  | _ => none

def entering (lock : LockId) (access : Access) (purpose : String) : Task :=
  enter lock access purpose .consult

def leaving (lock : LockId) (access : Access) : Task :=
  leave lock access .drop

end Task

end GuardedDump
