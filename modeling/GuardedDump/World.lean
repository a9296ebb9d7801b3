import GuardedDump.Failures
import GuardedDump.Frame
import GuardedDump.Hooks
import GuardedDump.Lock
import GuardedDump.Roster

namespace GuardedDump

inductive Happening where
  | logged (logger : Logger) (text : String)
  | delivered (handler : Handler) (violation : Violation)
  | exited (code : Nat)

structure Event where
  thread : Thread
  happening : Happening

structure World where
  now : Instant
  locks : List Lock
  roster : Roster
  hooks : Hooks
  warned : List String
  failures : Failures
  history : List Event

structure Context where
  thread : Thread
  stack : List Frame
  trace : String

namespace Context

def origin (ctx : Context) : String := Frame.origin ctx.stack

def callSite (ctx : Context) : String := Frame.callSite ctx.stack

end Context

/-- The way from the beginning of a write to a write inside it: what the stack and the trace have
there besides. -/
structure Way where
  frames : List Frame
  trace : String → String

namespace Way

def direct : Way := ⟨[], id⟩

def further (outer inner : Way) : Way := ⟨inner.frames ++ outer.frames, inner.trace ∘ outer.trace⟩

end Way

namespace Context

def inside (ctx : Context) (way : Way) : Context where
  thread := ctx.thread
  stack := way.frames ++ ctx.stack
  trace := way.trace ctx.trace

@[simp] theorem inside_direct (ctx : Context) : ctx.inside .direct = ctx := rfl

theorem inside_further (ctx : Context) (outer inner : Way) :
    ctx.inside (outer.further inner) = (ctx.inside outer).inside inner := by
  simp [inside, Way.further]

end Context

namespace World

def mainLock : LockId := 0

def initial (failures : Failures) : World where
  now := 0
  locks := [.create mainLockName .second .standard]
  roster := Roster.empty.enroll mainLockName mainLock
  hooks := .initial
  warned := []
  failures := failures
  history := []

/-- A lock by number. Numbers not given out stand for a lock nobody uses. -/
def lock (world : World) (id : LockId) : Lock :=
  world.locks.getD id (.create "" .zero .standard)

def setLock (world : World) (id : LockId) (lock : Lock) : World :=
  { world with locks := world.locks.set id lock }

@[simp] theorem lock_setLock_self (world : World) (id : LockId) (lock : Lock)
    (known : id < world.locks.length) : (world.setLock id lock).lock id = lock := by
  simp [World.lock, setLock, known]

theorem lock_setLock_of_ne (world : World) {id other : LockId} (different : other ≠ id)
    (lock : Lock) : (world.setLock id lock).lock other = world.lock other := by
  simp [World.lock, setLock, List.getElem?_set_ne (Ne.symm different)]

theorem lock_setLock (world : World) (id : LockId) (lock : Lock) :
    (world.setLock id lock).lock id = if id < world.locks.length then lock else world.lock id := by
  split
  case isTrue known => exact lock_setLock_self world id lock known
  case isFalse unknown => simp [World.lock, setLock, unknown]

@[simp] theorem setLock_lock (world : World) (id : LockId) :
    world.setLock id (world.lock id) = world := by
  have same : world.locks.set id (world.lock id) = world.locks := by
    by_cases known : id < world.locks.length
    · rw [World.lock, List.getD_eq_getElem?_getD, List.getElem?_eq_getElem known, Option.getD_some,
        List.set_getElem_self]
    · exact List.set_eq_of_length_le (Nat.le_of_not_lt known)
  unfold setLock
  rw [same]

def modifyLock (world : World) (id : LockId) (f : Lock → Lock) : World :=
  world.setLock id (f (world.lock id))

def seized (world : World) : Bool :=
  world.locks.any fun lock => lock.internal.isSome

def newLock (world : World) (name : String) (timeout : Duration) (logger : Logger) :
    LockId × World :=
  let id := world.locks.length
  (id, { world with
    locks := world.locks ++ [.create name timeout logger]
    roster := world.roster.enroll name id })

def emit (world : World) (t : Thread) (happening : Happening) : World :=
  { world with history := world.history ++ [⟨t, happening⟩] }

def logText (text : String) : String :=
  if Text.endsWith text "\n" then text else text ++ "\n"

theorem logText_eq (text : String) :
    logText text = if text.toList.getLast? = some '\n' then text else text ++ "\n" := by
  have last : Text.endsWith text "\n" = true ↔ text.toList.getLast? = some '\n' := by
    rw [Text.endsWith, List.isSuffixOf_iff_suffix, List.getLast?_eq_some_iff]
    exact ⟨fun ⟨before, whole⟩ => ⟨before, whole.symm⟩, fun ⟨before, whole⟩ => ⟨before, whole.symm⟩⟩
  simp only [logText, last]

theorem logText_bracketed (text : String) : logText (text ++ ")") = text ++ ")\n" := by
  have bracket : ")".toList.getLast? = some ')' := by decide
  rw [logText_eq, String.toList_append, List.getLast?_append, bracket, Option.some_or,
    if_neg (by decide), String.append_assoc]
  rfl

theorem logText_closes (text : String) : (logText text).toList.getLast? = some '\n' ∧
    (logText text = text ∨ logText text = text ++ "\n") := by
  have newline : "\n".toList.getLast? = some '\n' := by decide
  rw [logText_eq]
  split
  case isTrue closed => exact ⟨closed, .inl rfl⟩
  case isFalse =>
    rw [String.toList_append, List.getLast?_append, newline]
    exact ⟨rfl, .inr rfl⟩

def log (world : World) (t : Thread) (logger : Logger) (text : String) : World :=
  world.emit t (.logged logger (logText text))

def logLine (world : World) (t : Thread) (logger : Logger) : Option String → World
  | none => world
  | some text => world.log t logger text

@[simp] theorem locks_logLine (world : World) (t : Thread) (logger : Logger)
    (line : Option String) : (world.logLine t logger line).locks = world.locks := by
  cases line <;> rfl

@[simp] theorem lock_logLine (world : World) (t : Thread) (logger : Logger) (line : Option String)
    (id : LockId) : (world.logLine t logger line).lock id = world.lock id := by
  cases line <;> rfl

def advance (world : World) (d : Duration) : World :=
  { world with now := world.now + d.ns }

end World

end GuardedDump
