import GuardedDump.Session.Request

/-!
# Schedules

`Session.execute` lets every call run as far as it can before the next request. A schedule is a list
of finer moves: between any two atomic steps of a call another thread may take a step, start or end
a call, or change a setting, and time may pass. `Reachable` collects the sessions that some schedule
leads to, without the command that writes into a table of holds directly.
-/

namespace GuardedDump

def Context.bare (number : UInt64) : Context := ⟨⟨number⟩, [], ""⟩

inductive Move where
  | start (ctx : Context) (tag : Nat) (operation : Operation)
  | step (t : Thread)
  | finish (t : Thread)
  | command (ctx : Context) (command : Command)
  | advance (d : Duration)

/-- The move puts a hold into a table without entering the lock. -/
def Move.injects : Move → Bool
  | .command _ (.inject ..) => true
  | _ => false

namespace Session

def stepOf (world : World) (t : Thread) : List Pending → Option (World × List Pending)
  | [] => none
  | p :: more =>
    if p.call.thread = t then
      match p.call.proceed? world with
      | none => none
      | some (world, call) => some (world, { p with call } :: more)
    else
      match stepOf world t more with
      | none => none
      | some (world, stepped) => some (world, p :: stepped)

def isFinished (session : Session) (t : Thread) : Bool :=
  session.pending.any fun p => p.call.thread == t && p.call.isDone

def dismiss (session : Session) (t : Thread) : Session :=
  { session with pending := session.pending.filter fun p => p.call.thread != t }

def move? (session : Session) : Move → Option Session
  | .start ctx tag operation =>
    if session.isBusy ctx.thread then none
    else some { session with
      pending := ⟨tag, session.world.history.length, operation, operation.call ctx⟩ :: session.pending }
  | .step t =>
    match stepOf session.world t session.pending with
    | none => none
    | some (world, pending) => some { session with world, pending }
  | .finish t => if session.isFinished t then some (session.dismiss t) else none
  | .command ctx command =>
    -- A command is done at once, so no thread may be inside a table.
    if session.isBusy ctx.thread || session.world.seized then none
    else some (session.perform ctx command).2
  | .advance d => some { session with world := session.world.advance d }

def follow (session : Session) : List Move → Option Session
  | [] => some session
  | move :: more =>
    match session.move? move with
    | none => none
    | some after => after.follow more

inductive Reachable (failures : Failures) : Session → Prop where
  | initial : Reachable failures (.initial failures)
  | next {session after : Session} {move : Move} (previous : Reachable failures session)
      (allowed : move.injects = false) (action : session.move? move = some after) :
      Reachable failures after

theorem follow_invariant {P : Session → Prop} {session after : Session} {moves : List Move}
    (kept : ∀ move ∈ moves, ∀ middle next, P middle → middle.move? move = some next → P next)
    (schedule : session.follow moves = some after) (here : P session) : P after := by
  induction moves generalizing session with
  | nil =>
    cases schedule
    exact here
  | cons move more ih =>
    unfold Session.follow at schedule
    split at schedule
    · cases schedule
    case h_2 next action =>
      have first := kept move (by simp) session next here action
      exact ih (fun later member => kept later (by simp [member])) schedule first

theorem Reachable.follow {failures : Failures} {session after : Session} {moves : List Move}
    (reachable : Reachable failures session) (allowed : ∀ move ∈ moves, move.injects = false)
    (run : session.follow moves = some after) : Reachable failures after := by
  refine follow_invariant ?_ run reachable
  intro move member middle next reached action
  exact reached.next (allowed move member) action

end Session

end GuardedDump
