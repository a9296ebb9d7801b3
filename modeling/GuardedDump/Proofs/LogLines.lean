import GuardedDump.Proofs.Routing

namespace GuardedDump

theorem Text.startsWith_iff {text start : String} :
    startsWith text start = true ↔ start.toList <+: text.toList := by
  simp [startsWith]

theorem Text.startsWith_append {text start : String} (starts : startsWith text start = true)
    (more : String) : startsWith (text ++ more) start = true := by
  rw [startsWith_iff] at starts ⊢
  rw [String.toList_append]
  exact starts.trans (List.prefix_append ..)

theorem Text.startsWith_other {text start other : String} {c d : Char}
    (first : start.toList.head? = some c) (second : other.toList.head? = some d) (different : c ≠ d)
    (starts : startsWith text start = true) : startsWith text other = false := by
  have head {beginning : String} {e : Char} (opens : beginning.toList.head? = some e)
      (starts : startsWith text beginning = true) : text.toList.head? = some e := by
    obtain ⟨tail, parts⟩ := startsWith_iff.mp starts
    rw [← parts, List.head?_append, opens]
    rfl
  rw [Bool.eq_false_iff]
  intro starts'
  have same := (head first starts).symm.trans (head second starts')
  exact different (Option.some.inj same)

theorem World.logText_starts {text start : String} (starts : Text.startsWith text start = true) :
    Text.startsWith (logText text) start = true := by
  unfold logText
  split
  · exact starts
  · exact Text.startsWith_append starts "\n"

theorem World.warningText_starts (v : Violation) :
    Text.startsWith (warningText v) "WARNING: lock invariant violated: " = true := by
  unfold warningText
  iterate 4 apply Text.startsWith_append
  exact Text.startsWith_iff.mpr (List.prefix_refl _)

theorem World.logText_warningText (v : Violation) :
    logText (warningText v) = "WARNING: lock invariant violated: " ++ v.text ++ " (at " ++
      v.finding.caller ++ ")\n" :=
  logText_bracketed _

theorem World.fatalText_starts (v : Violation) (trace : String) :
    Text.startsWith (fatalText v trace) "FATAL: lock invariant violated: " = true := by
  unfold fatalText
  iterate 5 apply Text.startsWith_append
  exact Text.startsWith_iff.mpr (List.prefix_refl _)

def Event.isRemark (event : Event) : Bool :=
  match event.happening with
  | .logged _ text => Text.startsWith text "["
  | _ => false

namespace Lock

variable {lock : Lock} {text : String}

def event? (lock : Lock) (t : Thread) (line : Option String) : Option Event :=
  line.map fun text => ⟨t, .logged lock.logger (World.logText text)⟩

theorem remark_starts {r : Remark} (said : lock.remark r = some text) :
    Text.startsWith text "[" = true := by
  unfold remark at said
  split at said <;> cases said
  simp [Text.startsWith_iff]

theorem timedRemark_starts {d : Duration} {r : Remark} (said : lock.timedRemark d r = some text) :
    Text.startsWith text "[" = true := by
  unfold timedRemark at said
  split at said
  · split at said <;> cases said
    simp [Text.startsWith_iff, overdueText]
  · exact remark_starts said

theorem closeWarning_starts (lock : Lock) :
    Text.startsWith (Call.closeWarning lock) "[" = true := by
  simp [Text.startsWith_iff, Call.closeWarning]

theorem event?_isRemark {t : Thread} {line : Option String} {event : Event}
    (starts : ∀ text, line = some text → Text.startsWith text "[" = true)
    (said : lock.event? t line = some event) : event.isRemark = true := by
  obtain ⟨text, rfl, rfl⟩ := Option.map_eq_some_iff.mp said
  exact World.logText_starts (starts text rfl)

end Lock

theorem World.history_logLine (world : World) (t : Thread) (lock : Lock) (line : Option String) :
    (world.logLine t lock.logger line).history = world.history ++ (lock.event? t line).toList := by
  cases line with
  | none => exact (List.append_nil _).symm
  | some text => rfl

def Task.line? (world : World) (ctx : Context) : Task → Option Event
  | enter id access purpose .ask =>
    (world.lock id).event? ctx.thread
      ((world.lock id).remark ⟨access, .requested, purpose, ctx.thread, ctx.origin⟩)
  | enter id access purpose (.tally waited) =>
    (world.lock id).event? ctx.thread
      ((world.lock id).timedRemark waited ⟨access, .acquisition, purpose, ctx.thread, ctx.origin⟩)
  | enter id access purpose .reentered =>
    (world.lock id).event? ctx.thread
      ((world.lock id).remark ⟨access, .reentered, purpose, ctx.thread, ctx.origin⟩)
  | leave id access (.remark (some hold)) =>
    (world.lock id).event? ctx.thread ((world.lock id).timedRemark (hold.age world.now)
      ⟨access, .held, hold.purpose, ctx.thread, hold.origin⟩)
  | close id =>
    (world.lock id).event? ctx.thread
      (if (world.lock id).table.entries.isEmpty then none
      else some (Call.closeWarning (world.lock id)))
  | _ => none

theorem Task.line?_isRemark {world : World} {ctx : Context} {task : Task} {event : Event}
    (said : task.line? world ctx = some event) : event.isRemark = true := by
  unfold line? at said
  split at said
  · exact Lock.event?_isRemark (fun _ => Lock.remark_starts) said
  · exact Lock.event?_isRemark (fun _ => Lock.timedRemark_starts) said
  · exact Lock.event?_isRemark (fun _ => Lock.remark_starts) said
  · exact Lock.event?_isRemark (fun _ => Lock.timedRemark_starts) said
  · refine Lock.event?_isRemark ?_ said
    intro text warned
    split at warned <;> cases warned
    exact Lock.closeWarning_starts _
  · cases said

namespace Call

variable {world world' : World} {call call' : Call}

def line? (world : World) (call : Call) : Option Event :=
  match call.tasks with
  | [] => none
  | task :: _ => task.line? world call.ctx

theorem stepEnter_line {id : LockId} {access : Access} {purpose : String} {point : EnterPoint}
    (step : stepEnter world call id access purpose point = some (world', call')) :
    world'.history = world.history ++
      ((Task.enter id access purpose point).line? world call.ctx).toList := by
  cases point with
  | consult =>
      simp only [stepEnter] at step
      split at step <;> cases step <;> exact (List.append_nil _).symm
  | wait since =>
      simp only [stepEnter] at step
      split at step <;> cases step
      exact (List.append_nil _).symm
  | record waited =>
      cases step
      exact (List.append_nil _).symm
  | ask | tally | reentered =>
      cases step
      exact world.history_logLine ..

theorem stepLeave_line {id : LockId} {access : Access} {point : LeavePoint}
    (step : stepLeave world call id access point = some (world', call')) :
    world'.history = world.history ++
      ((Task.leave id access point).line? world call.ctx).toList := by
  cases point with
  | drop =>
      simp only [stepLeave] at step
      split at step
      · cases step
        exact (List.append_nil _).symm
      · split at step <;> cases step <;> exact (List.append_nil _).symm
  | unlatch left =>
      cases step
      exact (List.append_nil _).symm
  | remark left =>
      cases left with
      | none =>
          cases step
          exact (List.append_nil _).symm
      | some hold =>
          cases step
          exact world.history_logLine ..

theorem step_line (quiet : call.account? world = none)
    (step : call.step world = some (world', call')) :
    world'.history = world.history ++ (call.line? world).toList ∧ world'.warned = world.warned := by
  cases tasks : call.tasks with
  | nil =>
      simp only [Call.step, tasks] at step
      cases step
  | cons task rest =>
      unfold Call.step at step
      unfold line?
      rw [tasks] at step ⊢
      cases task with
      | enter id access purpose point =>
          have line := stepEnter_line
            (show stepEnter world { call with tasks := rest } id access purpose point = _ from step)
          exact ⟨line, (stepEnter_touches step).warned⟩
      | leave id access point =>
          have line := stepLeave_line
            (show stepLeave world { call with tasks := rest } id access point = _ from step)
          exact ⟨line, (stepLeave_touches step).warned⟩
      | close id =>
          simp only [stepClose, Option.some.injEq] at step
          simp only [Task.line?]
          split at step
          case isTrue empty =>
            cases step
            rw [if_pos empty]
            exact ⟨(List.append_nil _).symm, rfl⟩
          case isFalse held =>
            cases step
            rw [if_neg held]
            exact ⟨rfl, rfl⟩
      | retire id =>
          cases step
          exact ⟨(List.append_nil _).symm, rfl⟩
      | survey selection =>
          simp only [stepSurvey, Option.some.injEq] at step
          split at step <;> cases step <;> exact ⟨(List.append_nil _).symm, rfl⟩
      | visit id selection =>
          simp only [stepVisit, Option.some.injEq] at step
          split at step <;> cases step <;> exact ⟨(List.append_nil _).symm, rfl⟩
      | demand role p value =>
          unfold account? at quiet
          rw [tasks] at quiet
          cases quiet
      | dump role p value =>
          have same := stepDump_world world { call with tasks := rest } role p value
          rw [Option.some.inj step] at same
          rw [show world' = world from same]
          exact ⟨(List.append_nil _).symm, rfl⟩

end Call

def Move.forgets : Move → Bool
  | .command _ .forgetWarnings => true
  | _ => false

def Move.warns : Move → Bool
  | .command _ (.warn ..) => true
  | _ => false

namespace Session

variable {session after : Session} {move : Move}

/-- The line that a move without checks adds to the log. -/
def line? (session : Session) : Move → Option Event
  | .step t => (callOf session.pending t).bind (Call.line? session.world)
  | .command ctx (.warn key text) =>
    if session.world.warned.contains key then none
    else some ⟨ctx.thread, .logged session.world.hooks.diagnostics (World.logText text)⟩
  | _ => none

theorem line?_isRemark {event : Event} (indirect : move.warns = false)
    (said : session.line? move = some event) : event.isRemark = true := by
  unfold line? at said
  split at said
  · obtain ⟨call, -, line⟩ := Option.bind_eq_some_iff.mp said
    unfold Call.line? at line
    split at line
    · cases line
    · exact Task.line?_isRemark line
  · cases indirect
  · cases said

theorem applied_warned (session : Session) (settings : Settings) :
    (session.applied settings).2.world.warned = session.world.warned :=
  applied_keeps World.warned (fun _ _ _ => rfl) session settings

theorem perform_line (session : Session) (ctx : Context) {command : Command}
    (quiet : command.account? session.world ctx = none) :
    (session.perform ctx command).2.world.history =
      session.world.history ++ (session.line? (.command ctx command)).toList ∧
    ((Move.command ctx command).warns = false →
      (session.perform ctx command).2.world.warned =
        if (Move.command ctx command).forgets then [] else session.world.warned) := by
  cases command with
  | isHeld | check | insist | writeUnguarded | writeBetween | render | format | report | abort =>
      cases quiet
  | warn key text =>
      simp only [perform, World.warn, line?]
      refine ⟨?_, fun direct => absurd direct.symm Bool.false_ne_true⟩
      split
      · exact (List.append_nil _).symm
      · rfl
  | forgetWarnings => exact ⟨(List.append_nil _).symm, fun _ => rfl⟩
  | enterUnknown | restore =>
      simp only [perform]
      split <;> exact ⟨(List.append_nil _).symm, fun _ => rfl⟩
  | apply settings =>
      exact ⟨(session.applied_history settings).trans (List.append_nil _).symm,
        fun _ => session.applied_warned settings⟩
  | readAndApply reader environment =>
      simp only [perform]
      split
      · exact ⟨(List.append_nil _).symm, fun _ => rfl⟩
      · exact ⟨(session.applied_history _).trans (List.append_nil _).symm,
          fun _ => session.applied_warned _⟩
  | _ => exact ⟨(List.append_nil _).symm, fun _ => rfl⟩

theorem move?_line (action : session.move? move = some after)
    (quiet : session.notices? move = none) :
    after.world.history = session.world.history ++ (session.line? move).toList ∧
      (move.warns = false →
        after.world.warned = if move.forgets then [] else session.world.warned) := by
  rw [notices?, Option.map_eq_none_iff] at quiet
  cases move with
  | start ctx tag operation =>
      simp only [move?] at action
      split at action <;> cases action
      exact ⟨(List.append_nil _).symm, fun _ => rfl⟩
  | step t =>
      simp only [move?] at action
      split at action <;> cases action
      case h_2 world pending stepped =>
        obtain ⟨call, call', found, step, -, -⟩ := stepOf_callOf stepped
        simp only [account?, found, Option.bind_some] at quiet
        obtain ⟨history, warned⟩ := Call.step_line quiet step
        simp only [line?, found, Option.bind_some]
        exact ⟨history, fun _ => warned⟩
  | finish t =>
      simp only [move?] at action
      split at action <;> cases action
      exact ⟨(List.append_nil _).symm, fun _ => rfl⟩
  | command ctx command =>
      simp only [move?] at action
      split at action <;> cases action
      exact session.perform_line ctx quiet
  | advance d =>
      cases action
      exact ⟨(List.append_nil _).symm, fun _ => rfl⟩

def adds (moment : Session × Move) : List Event :=
  match moment.1.move? moment.2 with
  | none => []
  | some after => after.world.history.drop moment.1.world.history.length

theorem adds_eq {more : List Event} (action : session.move? move = some after)
    (history : after.world.history = session.world.history ++ more) :
    adds (session, move) = more := by
  simp only [adds, action, history, List.drop_left]

end Session

end GuardedDump
