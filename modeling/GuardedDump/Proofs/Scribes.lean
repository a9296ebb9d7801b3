import GuardedDump.Desk
import GuardedDump.Proofs.Scores
import Mathlib.Logic.Relation

/-!
# One scribe at a shared sink

A scribe goes through its value as it would alone: it sends the payloads of its score in their order,
counts a payload when all of it is stored, and ends as the score says (`Scribe.Tells`). What other
scribes do in between can only keep it waiting for the mutex. Every atomic part brings it closer to
its end (`Scribe.Tells.step`). With the sink to itself it does to the sink what a call with a sink of
its own does (`Scribe.writes_as_call`).
-/

namespace GuardedDump

/-- The tasks that are left of a write whose check was passed, with the meters they write through.
Every value that is being dumped has a meter of its own; the outermost one has counted `total`. -/
inductive Task.Metered : List Task → List Meter → Nat → Prop where
  | outer (p : Precondition) (value : Value) (total : Nat) :
      Metered [.dump .result p value] [⟨total, none⟩] total
  | dump (way : Way) (p : Precondition) (value : Value) (count : Nat) {tasks : List Task}
      {meters : List Meter} {total : Nat} (within : Metered tasks meters total) :
      Metered (.dump (.inner way) p value :: tasks) (⟨count, none⟩ :: meters) total
  | demand (way : Way) (p : Precondition) (value : Value) {tasks : List Task} {meters : List Meter}
      {total : Nat} (within : Metered tasks meters total) :
      Metered (.demand (.inner way) p value :: tasks) meters total

namespace Task.Metered

variable {tasks : List Task} {meters : List Meter} {total : Nat}

theorem isOpen (metered : Metered tasks meters total) (sink : Sink) :
    Writer.isOpen ⟨meters, sink⟩ = true := by
  induction metered with
  | outer p value total => rfl
  | dump way p value count within ih => exact ih
  | demand way p value within ih => exact ih

theorem credit (metered : Metered tasks meters total) (count : Nat) :
    Metered tasks (meters.map (·.add ⟨count, none⟩)) (total + count) := by
  induction metered with
  | outer p value total => exact .outer p value (total + count)
  | dump way p value own within ih => exact .dump way p value (own + count) ih
  | demand way p value within ih => exact .demand way p value ih

theorem no_leave (metered : Metered tasks meters total) : tasks.filter Task.isLeave = [] := by
  induction metered with
  | outer p value total => rfl
  | dump way p value count within ih => exact ih
  | demand way p value within ih => exact ih

theorem head (metered : Metered tasks meters total) :
    (∃ way p value more, tasks = .demand (.inner way) p value :: more) ∨
      ∃ role p value more, tasks = .dump role p value :: more := by
  cases metered with
  | outer p value total => exact .inr ⟨.result, p, value, [], rfl⟩
  | dump way p value count within => exact .inr ⟨.inner way, p, value, _, rfl⟩
  | demand way p value within => exact .inl ⟨way, p, value, _, rfl⟩

theorem replace {role : Role} {p : Precondition} {value : Value}
    (metered : Metered (.dump role p value :: tasks) meters total) (other : Value) :
    Metered (.dump role p other :: tasks) meters total := by
  cases metered with
  | outer p value total => exact .outer p other total
  | dump way p value count within => exact .dump way p other count within

end Task.Metered

def Sink.cost : List (List UInt8) → Nat
  | [] => 0
  | payload :: more => payload.length + 2 + cost more

def Value.cost (world : World) : Value → Nat
  | done => 1
  | bytes part rest => part.length + 2 + rest.cost world
  | listing lock selection rest =>
    Sink.cost ((world.lock lock).payloads selection world.now) + 1 + rest.cost world
  | guarded _ _ inner rest => inner.cost world + rest.cost world + 2
  | raise _ => 1

theorem Value.cost_lines (world : World) (lines : List (List UInt8)) (rest : Value) :
    (lines.foldr bytes rest).cost world = Sink.cost lines + rest.cost world := by
  induction lines with
  | nil => exact (Nat.zero_add _).symm
  | cons line more ih => simp only [List.foldr_cons, cost, ih, Sink.cost, Nat.add_assoc]

def Task.cost (world : World) : Task → Nat
  | dump _ _ value => value.cost world
  | demand _ _ value => value.cost world + 1
  | _ => 0

def Task.costs (world : World) : List Task → Nat
  | [] => 0
  | task :: more => task.cost world + costs world more

def Score.result (score : Score) : Except Panic Receipt :=
  score.ending.map fun _ => ⟨score.payloads.flatten.length, none⟩

namespace Call

structure Dumps (base : World) (score : Score) (sent : List (List UInt8)) (total : Nat) (call : Call) :
    Prop where
  metered : Task.Metered call.tasks call.writer.meters total
  calm : call.panic = none
  score : score = (Task.scores call.ctx base call.tasks).behind sent

structure Ends (score : Score) (sent : List (List UInt8)) (total : Nat) (call : Call) : Prop where
  tasks : call.tasks = []
  payloads : score.payloads = sent
  panicked : ∀ panic, score.ending = .error panic → call.panic = some panic
  returned : score.ending = .ok () → call.panic = none ∧ call.receipt = ⟨total, none⟩

structure Thinks (base : World) (score : Score) (sent : List (List UInt8)) (total : Nat) (call : Call)
    (world' : World) (call' : Call) : Prop where
  kin : base.Kin world'
  cheaper : Task.costs base call'.tasks < Task.costs base call.tasks
  goes : call'.Dumps base score sent total ∨ call'.Ends score sent total

variable {base world world' : World} {call call' : Call} {score : Score} {sent : List (List UInt8)}
  {total : Nat}

theorem Ends.of_panic {panic : Panic} (tasks : call.tasks = []) (panics : call.panic = some panic)
    (last : score = ⟨sent ++ [], .error panic⟩) : call.Ends score sent total := by
  subst last
  refine ⟨tasks, List.append_nil sent, ?_, ?_⟩
  · intro other error
    cases error
    exact panics
  · intro calm
    cases calm

theorem Dumps.demand {way : Way} {p : Precondition} {value : Value} {tasks : List Task}
    (dumps : call.Dumps base score sent total) (kin : base.Kin world)
    (head : call.tasks = .demand (.inner way) p value :: tasks)
    (stepped : call.step world = some (world', call')) :
    call.Thinks base score sent total world' call' := by
  obtain ⟨ctx, _, ⟨meters, sink⟩, receipt, _⟩ := call
  obtain ⟨metered, calm, same⟩ := dumps
  cases head
  cases calm
  cases metered with | demand _ _ _ within =>
  have checked := kin.trans (world.demand_kin (ctx.inside way) p)
  have plan : score = ((Value.gated (value.score (ctx.inside way) base) .rest
      (world.verdict (ctx.inside way) p)).andThen (Task.scores ctx base tasks)).behind sent := by
    rw [same, kin.verdict, ← Task.score_alone]
    rfl
  simp only [step, stepDemand, Role.way_inner, Option.some.injEq] at stepped
  rw [World.verdict] at plan
  generalize world.demand (ctx.inside way) p = demand at checked stepped plan
  obtain ⟨result, next⟩ := demand
  rcases result with panic | (none | v)
  · cases stepped
    have ended := within.no_leave
    refine ⟨checked, ?_, .inr (.of_panic ended rfl plan)⟩
    simp only [abandon, unwind, ended, Task.costs, Task.cost]
    omega
  · cases stepped
    refine ⟨checked, ?_, .inl ⟨.dump way p value 0 within, rfl, ?_⟩⟩
    · simp only [Call.next, Task.costs, Task.cost]
      omega
    · rw [plan]
      exact congrArg (fun first => Score.behind sent (first.andThen (Task.scores ctx base tasks)))
        (Score.andThen_rest (value.score (ctx.inside way) base))
  · cases stepped
    refine ⟨checked, ?_, .inl ⟨within, rfl, plan⟩⟩
    simp only [settle, Task.costs, Task.cost]
    omega

theorem Dumps.done {role : Role} {p : Precondition} {tasks : List Task}
    (dumps : call.Dumps base score sent total) (kin : base.Kin world)
    (head : call.tasks = .dump role p .done :: tasks)
    (stepped : call.step world = some (world', call')) :
    call.Thinks base score sent total world' call' := by
  obtain ⟨ctx, _, ⟨meters, sink⟩, receipt, _⟩ := call
  obtain ⟨metered, calm, same⟩ := dumps
  cases head
  cases calm
  subst same
  cases metered with
  | outer p value total =>
      cases stepped
      refine ⟨kin, Nat.one_pos, .inr ⟨rfl, List.append_nil sent, ?_, fun _ => ⟨rfl, rfl⟩⟩⟩
      intro panic error
      cases error
  | dump way p value count within =>
      cases stepped
      refine ⟨kin, ?_, .inl ⟨within, rfl, rfl⟩⟩
      simp only [Writer.pop, settle, Task.costs, Task.cost, Value.cost]
      omega

theorem Dumps.guarded {role : Role} {way : Way} {q p : Precondition} {inner rest : Value}
    {tasks : List Task}
    (dumps : call.Dumps base score sent total) (kin : base.Kin world)
    (head : call.tasks = .dump role q (.guarded way p inner rest) :: tasks)
    (stepped : call.step world = some (world', call')) :
    call.Thinks base score sent total world' call' := by
  obtain ⟨ctx, _, writer, receipt, panic⟩ := call
  obtain ⟨metered, calm, same⟩ := dumps
  cases head
  cases stepped
  refine ⟨kin, ?_, .inl ⟨.demand _ p inner (metered.replace rest), calm, ?_⟩⟩
  · simp only [next, Task.costs, Task.cost, Value.cost]
    omega
  · rw [same]
    exact congrArg (Score.behind sent) 
      (Task.scores_guarded ctx base role way q p inner rest tasks).symm

theorem Dumps.raise {role : Role} {p : Precondition} {message : String} {tasks : List Task}
    (dumps : call.Dumps base score sent total) (kin : base.Kin world)
    (head : call.tasks = .dump role p (.raise message) :: tasks)
    (stepped : call.step world = some (world', call')) :
    call.Thinks base score sent total world' call' := by
  obtain ⟨ctx, _, writer, receipt, panic⟩ := call
  obtain ⟨metered, calm, same⟩ := dumps
  cases head
  cases stepped
  have ended : tasks.filter Task.isLeave = [] := metered.no_leave
  refine ⟨kin, ?_, .inr (.of_panic ended rfl same)⟩
  simp only [abandon, unwind, ended, Task.costs, Task.cost, Value.cost]
  omega

end Call

namespace SerialSink

variable {serial taken : SerialSink} {transfer : Transfer} {t : Thread} {payload : List UInt8}

theorem begin?_unfailing (unfailing : serial.sink.Unfailing)
    (begun : serial.begin? t payload = some (transfer, taken)) :
    serial.owner = none ∧ transfer = ⟨⟨payload.length, none⟩, payload⟩ ∧
      taken = { serial with owner := some t } := by
  obtain ⟨owner, sink⟩ := serial
  cases owner with
  | some other => cases begun
  | none =>
      simp only [begin?, take?, Option.map_some, Option.some.injEq, Prod.mk.injEq] at begun
      obtain ⟨rfl, rfl⟩ := begun
      rw [unfailing]
      exact ⟨rfl, by rw [List.take_length], rfl⟩

theorem begin?_of_free (free : serial.owner = none) (t : Thread) (payload : List UInt8) :
    (serial.begin? t payload).isSome = true := by
  simp only [begin?, take?, free, Option.map_some, Option.isSome_some]

end SerialSink

def Job.score (job : Job) (world : World) : Score :=
  job.value.score job.ctx world

namespace Scribe

/-- Where a scribe is with `score`, in a world that checks cannot tell from `base`. The payloads of
`sent` are with the sink, the last of them maybe in part. -/
inductive Tells (base : World) : Score → List (List UInt8) → Scribe → Prop where
  | ready (job : Job) (passes : base.objection job.ctx job.precondition = none) :
      Tells base (job.score base) [] job.scribe
  | idle {score : Score} {sent : List (List UInt8)} {call : Call}
      (dumps : call.Dumps base score sent sent.flatten.length) : Tells base score sent ⟨call, none⟩
  | sends {score : Score} {sent : List (List UInt8)} {call : Call} {total count : Nat}
      (rest : List UInt8) (dumps : call.Dumps base score sent total)
      (counts : total + count = sent.flatten.length) :
      Tells base score sent ⟨call, some ⟨⟨count, none⟩, rest⟩⟩
  | ended {score : Score} {sent : List (List UInt8)} {call : Call}
      (ends : call.Ends score sent sent.flatten.length) : Tells base score sent ⟨call, none⟩

def cost (base : World) (scribe : Scribe) : Nat :=
  Task.costs base scribe.call.tasks +
    match scribe.transfer with
    | none => 0
    | some transfer => transfer.rest.length + 1

def costs (base : World) : List Scribe → Nat
  | [] => 0
  | scribe :: more => scribe.cost base + costs base more

theorem costs_set {base : World} {scribes : List Scribe} {i : Nat} {scribe after : Scribe}
    (found : scribes[i]? = some scribe) (cheaper : after.cost base < scribe.cost base) :
    costs base (scribes.set i after) < costs base scribes := by
  induction scribes generalizing i with
  | nil => cases found
  | cons first more ih =>
      cases i with
      | zero =>
          cases found
          exact Nat.add_lt_add_right cheaper (costs base more)
      | succ i => exact Nat.add_lt_add_left (ih found) (first.cost base)

inductive Moves (base : World) (score : Score) (sent : List (List UInt8)) (serial : SerialSink)
    (scribe : Scribe) : SerialSink → Scribe → Prop where
  | thinks {after : Scribe} (idle : scribe.transfer = none) (still : after.transfer = none)
      (tells : after.Tells base score sent) : Moves base score sent serial scribe serial after
  | begins {after : Scribe} (t : Thread) (part : List UInt8) (idle : scribe.transfer = none)
      (free : serial.owner = none)
      (holds : after.transfer = some ⟨⟨part.length, none⟩, part⟩)
      (tells : after.Tells base score (sent ++ [part])) :
      Moves base score sent serial scribe { serial with owner := some t } after
  | stores {after : Scribe} (receipt : Receipt) (byte : UInt8) (rest : List UInt8)
      (holds : scribe.transfer = some ⟨receipt, byte :: rest⟩)
      (still : after.transfer = some ⟨receipt, rest⟩) (tells : after.Tells base score sent) :
      Moves base score sent serial scribe (serial.store byte) after
  | finishes {after : Scribe} (receipt : Receipt) (holds : scribe.transfer = some ⟨receipt, []⟩)
      (idle : after.transfer = none) (tells : after.Tells base score sent) :
      Moves base score sent serial scribe serial.finish after

variable {base world world' : World} {score : Score} {sent : List (List UInt8)}
  {serial serial' : SerialSink} {scribe scribe' : Scribe} {call : Call}

structure Advances (base : World) (score : Score) (sent : List (List UInt8)) (serial : SerialSink)
    (scribe : Scribe) (world' : World) (serial' : SerialSink) (scribe' : Scribe) : Prop where
  kin : base.Kin world'
  cheaper : scribe'.cost base < scribe.cost base
  moves : scribe.Moves base score sent serial serial' scribe'

theorem advances_of_thinks
    (thinks : ∀ world' call', call.step world = some (world', call') →
      call.Thinks base score sent sent.flatten.length world' call')
    (stepped : think world serial ⟨call, none⟩ = some (world', serial', scribe')) :
    Advances base score sent serial ⟨call, none⟩ world' serial' scribe' := by
  simp only [think, Option.map_eq_some_iff, Prod.exists, Prod.mk.injEq] at stepped
  obtain ⟨next, after, moved, rfl, rfl, rfl⟩ := stepped
  obtain ⟨kin, cheaper, goes⟩ := thinks next after moved
  refine ⟨kin, cheaper, .thinks rfl rfl ?_⟩
  rcases goes with dumps | ends
  · exact .idle dumps
  · exact .ended ends

theorem advances_of_bytes {role : Role} {p : Precondition} {part : List UInt8} {rest : Value}
    {tasks : List Task} (dumps : call.Dumps base score sent sent.flatten.length)
    (kin : base.Kin world) (unfailing : serial.sink.Unfailing)
    (head : call.tasks = .dump role p (.bytes part rest) :: tasks)
    (stepped : step world serial ⟨call, none⟩ = some (world', serial', scribe')) :
    Advances base score sent serial ⟨call, none⟩ world' serial' scribe' := by
  obtain ⟨ctx, _, writer, receipt, panic⟩ := call
  obtain ⟨metered, calm, same⟩ := dumps
  cases head
  have opened : writer.isOpen = true := metered.isOpen writer.sink
  simp only [step, opened, if_true, Option.map_eq_some_iff, Prod.exists, Prod.mk.injEq] at stepped
  obtain ⟨transfer, taken, begun, rfl, rfl, rfl⟩ := stepped
  obtain ⟨free, rfl, rfl⟩ := SerialSink.begin?_unfailing unfailing begun
  refine ⟨kin, ?_, .begins ctx.thread part rfl free rfl (.sends _ ⟨metered.replace rest, calm, ?_⟩ ?_)⟩
  · simp only [cost, Task.costs, Task.cost, Value.cost]
    omega
  · rw [same, ← Score.behind_behind]
    exact congrArg (Score.behind sent)
      (Score.behind_andThen [part] (rest.score (ctx.inside role.way) base) (Task.scores ctx base tasks))
  · simp only [List.flatten_append, List.length_append, List.flatten_cons,
      List.flatten_nil, List.append_nil]

theorem advances_of_listing {role : Role} {p : Precondition} {lock : LockId} {selection : Selection}
    {rest : Value} {tasks : List Task} (dumps : call.Dumps base score sent sent.flatten.length)
    (kin : base.Kin world) (head : call.tasks = .dump role p (.listing lock selection rest) :: tasks)
    (stepped : step world serial ⟨call, none⟩ = some (world', serial', scribe')) :
    Advances base score sent serial ⟨call, none⟩ world' serial' scribe' := by
  obtain ⟨ctx, _, writer, receipt, panic⟩ := call
  obtain ⟨metered, calm, same⟩ := dumps
  cases head
  cases stepped
  rw [kin.lock, kin.now]
  refine ⟨kin, ?_, .thinks rfl rfl (.idle ⟨metered.replace _, calm, ?_⟩)⟩
  · simp only [cost, Task.costs, Task.cost, Value.cost, Value.cost_lines]
    omega
  · rw [same]
    simp only [Task.scores, Task.score, Value.score_lines]
    rfl

theorem Tells.step (tells : scribe.Tells base score sent) (kin : base.Kin world)
    (unfailing : serial.sink.Unfailing)
    (stepped : scribe.step world serial = some (world', serial', scribe')) :
    scribe.Advances base score sent serial world' serial' scribe' := by
  cases tells with
  | ready job passes =>
      obtain ⟨ctx, p, value⟩ := job
      have silent : world.objection ctx p = none := (kin.objection ctx p).mpr passes
      have moved : (world, serial, Scribe.mk
          ⟨ctx, [.dump .result p value], (Writer.ofSink .unlimited).push, ⟨0, none⟩, none⟩ none) =
          (world', serial', scribe') := by
        simpa [Scribe.step, think, Job.scribe, Operation.call, Call.start, Call.step,
          Call.stepDemand, World.demand_of_no_objection silent, Call.next] using stepped
      cases moved
      refine ⟨kin, ?_, .thinks rfl rfl (.idle ⟨.outer p value 0, rfl, ?_⟩)⟩
      · exact Nat.lt_succ_self _
      · exact (Score.andThen_rest _).symm
  | @idle _ _ call dumps =>
      obtain ⟨ctx, tasks, writer, receipt, panic⟩ := call
      rcases dumps.metered.head with ⟨way, p, value, more, head⟩ | ⟨role, p, value, more, head⟩
      · cases head
        exact advances_of_thinks (fun _ _ => dumps.demand kin rfl) stepped
      · cases head
        cases value with
        | done => exact advances_of_thinks (fun _ _ => dumps.done kin rfl) stepped
        | bytes part rest => exact advances_of_bytes dumps kin unfailing rfl stepped
        | listing lock selection rest => exact advances_of_listing dumps kin rfl stepped
        | guarded way p inner rest => exact advances_of_thinks (fun _ _ => dumps.guarded kin rfl) stepped
        | raise message => exact advances_of_thinks (fun _ _ => dumps.raise kin rfl) stepped
  | sends rest dumps counts =>
      cases rest with
      | nil => 
          cases stepped
          refine ⟨kin, ?_, .finishes _ rfl rfl (.idle ⟨?_, dumps.calm, dumps.score⟩)⟩
          · exact Nat.lt_succ_self _
          · rw [← counts]
            exact dumps.metered.credit _
      | cons byte rest =>
          cases stepped
          refine ⟨kin, ?_, .stores _ byte rest rfl rfl (.sends rest dumps counts)⟩
          exact Nat.lt_succ_self _
  | ended ends =>
      simp [Scribe.step, think, Call.step, ends.tasks] at stepped

theorem Tells.can_step (tells : scribe.Tells base score sent) (waiting : scribe.isDone = false)
    (mutex : serial.owner = none ∨ scribe.transfer.isSome = true) (world : World) :
    (scribe.step world serial).isSome = true := by
  cases tells with
  | ready job passes => rfl
  | @idle _ _ call dumps =>
      obtain ⟨ctx, tasks, writer, receipt, panic⟩ := call
      have free : serial.owner = none := mutex.resolve_right Bool.false_ne_true
      rcases dumps.metered.head with ⟨way, p, value, more, head⟩ | ⟨role, p, value, more, head⟩
      · cases head
        rfl
      · cases head
        cases value with
        | bytes part rest =>
            have opened : writer.isOpen = true := dumps.metered.isOpen writer.sink
            have begins := SerialSink.begin?_of_free free ctx.thread part
            simp only [Scribe.step, opened, if_true, Option.isSome_map]
            exact begins
        | done | listing | guarded | raise => rfl
  | sends rest dumps counts => cases rest <;> rfl
  | ended ends => simp [isDone, Call.isDone, ends.tasks] at waiting

theorem Tells.starts_score (tells : scribe.Tells base score sent) : sent <+: score.payloads := by
  cases tells with
  | ready job passes => exact List.nil_prefix
  | idle dumps =>
      rw [dumps.score]
      exact List.prefix_append _ _
  | sends rest dumps counts =>
      rw [dumps.score]
      exact List.prefix_append _ _
  | ended ends => exact ends.payloads ▸ List.prefix_rfl

theorem Tells.done (tells : scribe.Tells base score sent) (done : scribe.isDone = true) :
    score.payloads = sent ∧ scribe.result? = some score.result := by
  cases tells with
  | ready job passes => cases done
  | @idle _ _ call dumps =>
      obtain ⟨ctx, tasks, writer, receipt, panic⟩ := call
      rcases dumps.metered.head with ⟨way, p, value, more, head⟩ | ⟨role, p, value, more, head⟩
      · cases head
        cases done
      · cases head
        cases done
  | sends rest dumps counts => simp [isDone] at done
  | ended ends =>
      refine ⟨ends.payloads, ?_⟩
      rw [result?, if_pos done]
      cases ending : score.ending with
      | error panic => simp only [ends.panicked panic ending, Score.result, ending, Except.map]
      | ok =>
          obtain ⟨calm, receipt⟩ := ends.returned ending
          simp only [calm, receipt, Score.result, ending, Except.map, ends.payloads]

def Leads (world : World) : SerialSink × Scribe → SerialSink × Scribe → Prop :=
  Relation.ReflTransGen fun before after =>
    before.2.step world before.1 = some (world, after.1, after.2)

theorem stores_all (world : World) (call : Call) (receipt : Receipt) (rest : List UInt8)
    (serial : SerialSink) :
    Leads world (serial, ⟨call, some ⟨receipt, rest⟩⟩)
      (rest.foldl SerialSink.store serial, ⟨call, some ⟨receipt, []⟩⟩) := by
  induction rest generalizing serial with
  | nil => exact .refl
  | cons byte rest ih => exact .head rfl (ih (serial.store byte))

/-- What a scribe does with a text byte by byte is what a call does with it at once, to a sink of its
own. -/
theorem writes_as_call {role : Role} {p : Precondition} {part : List UInt8} {rest : Value}
    {tasks : List Task} (head : call.tasks = .dump role p (.bytes part rest) :: tasks)
    (opened : call.writer.isOpen = true) (world : World) (sink : Sink) :
    ∃ after last, Leads world (.ofSink sink, ⟨call, none⟩) (.ofSink last, ⟨after, none⟩) ∧
      { call with writer := { call.writer with sink } }.step world =
        some (world, { after with writer := { after.writer with sink := last } }) := by
  obtain ⟨ctx, _, writer, receipt, panic⟩ := call
  cases head
  let accepted := (sink.write part).1
  let last := (sink.write part).2
  let next : Call := ⟨ctx, .dump role p rest :: tasks, writer, receipt, panic⟩
  let taken : SerialSink := ⟨some ctx.thread, sink⟩
  let bytes := part.take accepted.count
  refine ⟨{ next with writer := writer.credit accepted }, last, ?_, ?_⟩
  · have begins : step world (.ofSink sink)
        ⟨⟨ctx, .dump role p (.bytes part rest) :: tasks, writer, receipt, panic⟩, none⟩ =
          some (world, taken, ⟨next, some ⟨accepted, bytes⟩⟩) := by
      simp only at opened
      simp only [step, opened, if_true]
      rfl
    have finishes : step world (bytes.foldl SerialSink.store taken) ⟨next, some ⟨accepted, []⟩⟩ =
        some (world, .ofSink last, ⟨{ next with writer := writer.credit accepted }, none⟩) := by
      rw [SerialSink.foldl_store]
      rfl
    exact .head begins (.tail (stores_all world next accepted bytes taken) finishes)
  · have lane : Writer.isOpen ⟨writer.meters, sink⟩ = true := opened
    have written := Writer.write_of_isOpen lane part
    simp only [Call.step, Call.stepDump, Writer.put, written]
    rfl

end Scribe

end GuardedDump
