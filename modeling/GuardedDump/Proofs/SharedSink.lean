import GuardedDump.Proofs.Scribes

namespace GuardedDump

open SerialSink (Transfer)

theorem Sink.Unfailing.honest {sink : Sink} (unfailing : sink.Unfailing) : sink.Honest := by
  intro call stored payload
  rw [unfailing]
  exact ⟨Nat.le_refl _, fun less => absurd less (Nat.lt_irrefl _)⟩

theorem World.write_result {world : World} {ctx : Context} {p : Precondition} {sink : Sink}
    (passes : world.objection ctx p = none) (unfailing : sink.Unfailing) (value : Value) :
    (world.write ctx p value (.ofSink sink)).1 = (value.score ctx world).result := by
  have metered := Writer.metered_ofSink sink (value.payloads ctx world)
  obtain ⟨accepted, -⟩ := unfailing.steady.deliver (value.payloads ctx world)
  obtain ⟨bytes, -, -, count, complete⟩ := Sink.deliver_stored unfailing.honest (value.payloads ctx world)
  rw [complete accepted] at count
  have receipt : (sink.deliver (value.payloads ctx world)).1 =
      ⟨(value.payloads ctx world).flatten.length, none⟩ := by
    rw [← count, ← accepted]
  rw [write_of_no_objection passes, writeUnguarded, value.dump_eq_script ctx (Writer.push_latching _)]
  simp only [Score.result, Value.score]
  rw [Writer.metered] at metered
  cases (value.script ctx world).1 with
  | error panic => rfl
  | ok => simp only [metered, receipt, Except.map]

namespace Desk

abbrev Log := List (Nat × List UInt8)

def Log.bytes (log : Log) : List UInt8 :=
  log.flatMap Prod.snd

def Log.of (log : Log) (i : Nat) : List (List UInt8) :=
  (log.filter fun entry => entry.1 == i).map Prod.snd

theorem Log.of_snoc_self (log : Log) (i : Nat) (part : List UInt8) :
    of (log ++ [(i, part)]) i = log.of i ++ [part] := by
  simp [of]

theorem Log.of_snoc_of_ne (log : Log) {i k : Nat} (different : k ≠ i) (part : List UInt8) :
    of (log ++ [(k, part)]) i = log.of i := by
  simp [of, different]

def heldBy (i : Nat) : Option (Nat × Transfer) → Option Transfer
  | some (k, transfer) => if k = i then some transfer else none
  | none => none

/-- What a sink that started with `old` has stored of the payloads of a log. Only the last of them
may be half stored, by the scribe that has the mutex. -/
inductive Filled (old : List UInt8) : Log → Option (Nat × Transfer) → List UInt8 → Prop where
  | free (log : Log) : Filled old log none (old ++ log.bytes)
  | busy (log : Log) (k : Nat) (part : List UInt8) (gone : List UInt8) (transfer : Transfer)
      (parts : part = gone ++ transfer.rest) :
      Filled old (log ++ [(k, part)]) (some (k, transfer)) (old ++ log.bytes ++ gone)

namespace Filled

variable {old stored rest : List UInt8} {log : Log} {i : Nat} {receipt : Receipt}

theorem begin (filled : Filled old log none stored) (i : Nat) (part : List UInt8) (receipt : Receipt) :
    Filled old (log ++ [(i, part)]) (some (i, ⟨receipt, part⟩)) stored := by
  cases filled
  rw [← List.append_nil (old ++ log.bytes)]
  exact .busy log i part [] _ rfl

theorem store {byte : UInt8} (filled : Filled old log (some (i, ⟨receipt, byte :: rest⟩)) stored) :
    Filled old log (some (i, ⟨receipt, rest⟩)) (stored ++ [byte]) := by
  cases filled with | busy earlier _ part gone _ parts =>
  rw [List.append_assoc]
  apply Filled.busy
  rw [parts, List.append_assoc]
  rfl

theorem finish (filled : Filled old log (some (i, ⟨receipt, []⟩)) stored) :
    Filled old log none stored := by
  cases filled with | busy earlier _ part gone _ parts =>
  have whole : old ++ earlier.bytes ++ gone = old ++ Log.bytes (earlier ++ [(i, part)]) := by
    rw [List.append_nil] at parts
    simp [Log.bytes, parts]
  rw [whole]
  exact .free _

theorem mem_log {transfer : Transfer} (filled : Filled old log (some (i, transfer)) stored) :
    ∃ part, (i, part) ∈ log := by
  cases filled with | busy earlier _ part gone _ parts =>
  exact ⟨part, List.mem_concat_self⟩

end Filled

structure Keeps (base : World) (sink : Sink) (jobs : List Job) (log : Log)
    (pending : Option (Nat × Transfer)) (desk : Desk) : Prop where
  kin : base.Kin desk.world
  policy : desk.serial.sink.policy = sink.policy
  mutex : desk.serial.owner.isSome = pending.isSome
  filled : Filled sink.stored log pending desk.serial.sink.stored
  length : desk.scribes.length = jobs.length
  places : ∀ entry ∈ log, entry.1 < jobs.length
  scribes : ∀ i job scribe, jobs[i]? = some job → desk.scribes[i]? = some scribe →
    scribe.transfer = heldBy i pending ∧ scribe.Tells base (job.score base) (log.of i)

variable {base world : World} {sink : Sink} {jobs : List Job} {log log' : Log}
  {pending pending' : Option (Nat × Transfer)} {desk desk' : Desk} {i : Nat} {moves : List Nat}

theorem start_keeps (sink : Sink)
    (pass : ∀ job ∈ jobs, base.objection job.ctx job.precondition = none) :
    (start base sink jobs).Keeps base sink jobs [] none where
  kin := .refl base
  policy := rfl
  mutex := rfl
  filled := by
    have empty : Filled sink.stored [] none (sink.stored ++ []) := .free []
    rwa [List.append_nil] at empty
  length := List.length_map _
  places := nofun
  scribes := by
    intro i job scribe known found
    simp only [start, List.getElem?_map, known, Option.map_some, Option.some.injEq] at found
    subst found
    exact ⟨rfl, .ready job (pass job (List.mem_of_getElem? known))⟩

theorem Keeps.seat (keeps : desk.Keeps base sink jobs log pending) {job : Job}
    (known : jobs[i]? = some job) : ∃ scribe, desk.scribes[i]? = some scribe := by
  have bound : i < desk.scribes.length := keeps.length ▸ (List.getElem?_eq_some_iff.mp known).1
  exact ⟨desk.scribes[i], List.getElem?_eq_getElem bound⟩

theorem Keeps.job (keeps : desk.Keeps base sink jobs log pending) {scribe : Scribe}
    (found : desk.scribes[i]? = some scribe) : ∃ job, jobs[i]? = some job := by
  have bound : i < jobs.length := keeps.length ▸ (List.getElem?_eq_some_iff.mp found).1
  exact ⟨jobs[i], List.getElem?_eq_getElem bound⟩

theorem heldBy_eq_some {transfer : Transfer} (held : heldBy i pending = some transfer) :
    pending = some (i, transfer) := by
  cases pending with
  | none => cases held
  | some owner =>
      obtain ⟨k, own⟩ := owner
      by_cases same : k = i
      · simp only [heldBy, same, if_true, Option.some.injEq] at held
        rw [same, held]
      · simp [heldBy, same] at held

theorem heldBy_self (i : Nat) (transfer : Transfer) :
    heldBy i (some (i, transfer)) = some transfer := if_pos rfl

theorem heldBy_of_ne {k : Nat} (different : k ≠ i) (transfer : Transfer) :
    heldBy k (some (i, transfer)) = none := if_neg different.symm

theorem Keeps.scribes_set (keeps : desk.Keeps base sink jobs log pending) {job : Job}
    {after : Scribe} (known : jobs[i]? = some job) (held : after.transfer = heldBy i pending')
    (tells : after.Tells base (job.score base) (Log.of log' i))
    (others : ∀ k, k ≠ i → heldBy k pending' = heldBy k pending ∧ log'.of k = log.of k) (k : Nat)
    (other : Job) (scribe : Scribe) (there : jobs[k]? = some other)
    (found : (desk.scribes.set i after)[k]? = some scribe) :
    scribe.transfer = heldBy k pending' ∧ scribe.Tells base (other.score base) (log'.of k) := by
  by_cases same : k = i
  · subst same
    rw [known] at there
    cases there
    rw [List.getElem?_set_self'] at found
    obtain ⟨_, _, rfl⟩ := Option.map_eq_some_iff.mp found
    exact ⟨held, tells⟩
  · rw [List.getElem?_set_ne (Ne.symm same)] at found
    rw [(others k same).1, (others k same).2]
    exact keeps.scribes k other scribe there found

def cost (base : World) (desk : Desk) : Nat :=
  Scribe.costs base desk.scribes

theorem Keeps.advance {job : Job} {scribe after : Scribe} {world' : World} {serial' : SerialSink}
    (keeps : desk.Keeps base sink jobs log pending) (known : jobs[i]? = some job)
    (held : scribe.transfer = heldBy i pending) (kin : base.Kin world')
    (moves : scribe.Moves base (job.score base) (log.of i) desk.serial serial' after) :
    ∃ log' pending', Keeps base sink jobs log' pending'
      ⟨world', serial', desk.scribes.set i after⟩ := by
  have length : (desk.scribes.set i after).length = jobs.length :=
    List.length_set.trans keeps.length
  have bound : i < jobs.length := (List.getElem?_eq_some_iff.mp known).1
  have filled := keeps.filled
  cases moves with
  | thinks quiet still tells =>
      refine ⟨log, pending, kin, keeps.policy, keeps.mutex, filled, length, keeps.places, ?_⟩
      apply keeps.scribes_set known
      · rw [still, ← held, quiet]
      · exact tells
      · exact fun k different => ⟨rfl, rfl⟩
  | begins t part quiet free holds tells =>
      have mutex := keeps.mutex
      rw [free] at mutex
      cases pending with
      | some owner => cases mutex
      | none =>
          refine ⟨log ++ [(i, part)], some (i, _), kin, keeps.policy, rfl, filled.begin i part _,
            length, ?_, keeps.scribes_set known (holds.trans (heldBy_self i _).symm) ?_ ?_⟩
          · intro entry member
            rcases List.mem_append.mp member with earlier | latest
            · exact keeps.places entry earlier
            · rw [List.mem_singleton.mp latest]
              exact bound
          · rw [Log.of_snoc_self]
            exact tells
          · intro k different
            exact ⟨heldBy_of_ne different _, log.of_snoc_of_ne different.symm part⟩
  | stores receipt byte rest holds still tells =>
      obtain rfl := heldBy_eq_some (held.symm.trans holds)
      refine ⟨log, some (i, ⟨receipt, rest⟩), kin, keeps.policy, keeps.mutex, filled.store, length,
        keeps.places, keeps.scribes_set known (still.trans (heldBy_self i _).symm) tells ?_⟩
      intro k different
      rw [heldBy_of_ne different, heldBy_of_ne different]
      exact ⟨rfl, rfl⟩
  | finishes receipt holds quiet tells =>
      obtain rfl := heldBy_eq_some (held.symm.trans holds)
      refine ⟨log, none, kin, keeps.policy, rfl, filled.finish, length, keeps.places,
        keeps.scribes_set known quiet tells ?_⟩
      intro k different
      exact ⟨(heldBy_of_ne different _).symm, rfl⟩

theorem Keeps.step (keeps : desk.Keeps base sink jobs log pending) (unfailing : sink.Unfailing)
    (moved : desk.step? i = some desk') :
    (∃ log' pending', desk'.Keeps base sink jobs log' pending') ∧
      desk'.cost base < desk.cost base := by
  simp only [step?, Option.bind_eq_some_iff, Option.map_eq_some_iff, Prod.exists] at moved
  obtain ⟨scribe, found, world', serial', after, stepped, rfl⟩ := moved
  obtain ⟨job, known⟩ := keeps.job found
  obtain ⟨held, tells⟩ := keeps.scribes i job scribe known found
  have steady : desk.serial.sink.Unfailing := by
    intro call stored payload
    rw [keeps.policy]
    exact unfailing call stored payload
  obtain ⟨kin, cheaper, moves⟩ := tells.step keeps.kin steady stepped
  exact ⟨keeps.advance known held kin moves, Scribe.costs_set found cheaper⟩

theorem Keeps.run (keeps : desk.Keeps base sink jobs log pending) (unfailing : sink.Unfailing)
    (run : desk.run? moves = some desk') :
    (∃ log' pending', desk'.Keeps base sink jobs log' pending') ∧
      moves.length + desk'.cost base ≤ desk.cost base := by
  induction moves generalizing desk log pending with
  | nil =>
      cases run
      exact ⟨⟨log, pending, keeps⟩, Nat.le_of_eq (Nat.zero_add _)⟩
  | cons i more ih =>
      obtain ⟨next, moved, rest⟩ := Option.bind_eq_some_iff.mp run
      obtain ⟨⟨log', pending', kept⟩, cheaper⟩ := keeps.step unfailing moved
      obtain ⟨last, bound⟩ := ih kept rest
      refine ⟨last, ?_⟩
      rw [List.length_cons]
      omega

theorem Keeps.owner {k : Nat} {transfer : Transfer}
    (keeps : desk.Keeps base sink jobs log (some (k, transfer))) : ∃ job, jobs[k]? = some job := by
  obtain ⟨part, member⟩ := keeps.filled.mem_log
  have bound : k < jobs.length := keeps.places (k, part) member
  exact ⟨jobs[k], List.getElem?_eq_getElem bound⟩

theorem Keeps.goes_on (keeps : desk.Keeps base sink jobs log pending)
    (unfinished : desk.isDone = false) : ∃ i, (desk.step? i).isSome = true := by
  have can_step (i : Nat) (scribe : Scribe) (found : desk.scribes[i]? = some scribe)
      (waiting : scribe.isDone = false)
      (mutex : desk.serial.owner = none ∨ scribe.transfer.isSome = true) :
      (desk.step? i).isSome = true := by
    obtain ⟨job, known⟩ := keeps.job found
    have tells := (keeps.scribes i job scribe known found).2
    simpa [step?, found] using tells.can_step waiting mutex desk.world
  cases pending with
  | none =>
      have free : desk.serial.owner = none := by simpa using keeps.mutex
      obtain ⟨scribe, member, waiting⟩ := List.all_eq_false.mp unfinished
      obtain ⟨i, found⟩ := List.getElem?_of_mem member
      exact ⟨i, can_step i scribe found (Bool.eq_false_iff.mpr waiting) (.inl free)⟩
  | some owner =>
      obtain ⟨k, transfer⟩ := owner
      obtain ⟨job, known⟩ := keeps.owner
      obtain ⟨scribe, found⟩ := keeps.seat known
      have held := (keeps.scribes k job scribe known found).1
      rw [heldBy_self] at held
      refine ⟨k, can_step k scribe found ?_ (.inr ?_)⟩
      · simp only [Scribe.isDone, held, Option.isNone_some, Bool.and_false]
      · rw [held]
        rfl

theorem Keeps.ends (keeps : desk.Keeps base sink jobs log pending) (unfailing : sink.Unfailing) :
    ∃ moves last, desk.run? moves = some last ∧ last.isDone = true := by
  -- On what the scribes have left to do together.
  induction left : desk.cost base using Nat.strongRecOn generalizing desk log pending with
  | _ left ih =>
      cases done : desk.isDone with
      | true => exact ⟨[], desk, rfl, done⟩
      | false =>
          obtain ⟨i, can_step⟩ := keeps.goes_on done
          obtain ⟨next, moved⟩ := Option.isSome_iff_exists.mp can_step
          obtain ⟨⟨log', pending', kept⟩, cheaper⟩ := keeps.step unfailing moved
          obtain ⟨moves, last, run, ended⟩ := ih (next.cost base) (left ▸ cheaper) kept rfl
          exact ⟨i :: moves, last, Option.bind_eq_some_iff.mpr ⟨next, moved, run⟩, ended⟩

/-- What the sink looks like in the middle of a run: the payloads of `log` are whole, each scribe's
in the order that it writes them, and behind them is the beginning `gone` of one more. -/
structure Shows (world : World) (sink : Sink) (jobs : List Job) (log : Log) (gone : List UInt8)
    (desk : Desk) : Prop where
  stored : desk.serial.sink.stored = sink.stored ++ log.bytes ++ gone
  places : ∀ entry ∈ log, entry.1 < jobs.length
  order : ∀ (i : Nat) (job : Job), jobs[i]? = some job →
    log.of i <+: job.value.payloads job.ctx world
  half : gone = [] ∨ ∃ (i : Nat) (job : Job) (part : List UInt8), jobs[i]? = some job ∧
    log.of i ++ [part] <+: job.value.payloads job.ctx world ∧ gone <+: part

structure Untorn (world : World) (sink : Sink) (jobs : List Job) (desk : Desk) : Prop where
  meanwhile : ∃ log gone, desk.Shows world sink jobs log gone
  whole : desk.isDone = true → desk.serial.owner = none ∧
    ∃ log : Log, desk.serial.sink.stored = sink.stored ++ log.bytes ∧
      (∀ entry ∈ log, entry.1 < jobs.length) ∧
      ∀ (i : Nat) (job : Job), jobs[i]? = some job → log.of i = job.value.payloads job.ctx world
  returns : ∀ (i : Nat) (job : Job) (scribe : Scribe), jobs[i]? = some job →
    desk.scribes[i]? = some scribe → scribe.isDone = true →
    scribe.result? = some ((job.value.script job.ctx world).1.map fun _ =>
        ⟨(job.value.payloads job.ctx world).flatten.length, none⟩) ∧
      scribe.result? = some (world.write job.ctx job.precondition job.value (.ofSink sink)).1
  goes_on : desk.isDone = false → ∃ i, (desk.step? i).isSome = true
  ends : ∃ moves last, desk.run? moves = some last ∧ last.isDone = true

theorem Keeps.order (keeps : desk.Keeps base sink jobs log pending) {job : Job}
    (known : jobs[i]? = some job) : log.of i <+: job.value.payloads job.ctx base := by
  obtain ⟨scribe, found⟩ := keeps.seat known
  exact (keeps.scribes i job scribe known found).2.starts_score

theorem Keeps.shows (keeps : desk.Keeps base sink jobs log pending) :
    ∃ log gone, desk.Shows base sink jobs log gone := by
  have filled := keeps.filled
  generalize contents : desk.serial.sink.stored = stored at filled
  cases filled with
  | free =>
      exact ⟨log, [], contents.trans (List.append_nil _).symm, keeps.places,
        fun i job known => keeps.order known, .inl rfl⟩
  | busy earlier k part gone transfer parts =>
      refine ⟨earlier, gone, contents, ?_, ?_, .inr ?_⟩
      · exact fun entry member => keeps.places entry (List.mem_append_left _ member)
      · intro i job known
        have all := keeps.order known
        rw [Log.of, List.filter_append, List.map_append] at all
        exact (List.prefix_append _ _).trans all
      · obtain ⟨job, known⟩ := keeps.owner
        have all := keeps.order known
        rw [Log.of_snoc_self] at all
        exact ⟨k, job, part, known, all, parts ▸ List.prefix_append _ _⟩

theorem Keeps.done (keeps : desk.Keeps base sink jobs log pending) (done : desk.isDone = true)
    {job : Job} (known : jobs[i]? = some job) :
    heldBy i pending = none ∧ log.of i = job.value.payloads job.ctx base := by
  obtain ⟨scribe, found⟩ := keeps.seat known
  obtain ⟨held, tells⟩ := keeps.scribes i job scribe known found
  have ended : scribe.isDone = true := List.all_eq_true.mp done scribe (List.mem_of_getElem? found)
  have idle := ended
  simp only [Scribe.isDone, Bool.and_eq_true, Option.isNone_iff_eq_none] at idle
  exact ⟨held.symm.trans idle.2, (tells.done ended).1.symm⟩

theorem Keeps.untorn (keeps : desk.Keeps base sink jobs log pending) (unfailing : sink.Unfailing)
    (pass : ∀ job ∈ jobs, base.objection job.ctx job.precondition = none) :
    desk.Untorn base sink jobs := by
  refine ⟨keeps.shows, ?_, ?_, keeps.goes_on, keeps.ends unfailing⟩
  · intro done
    cases pending with
    | some owner =>
        obtain ⟨job, known⟩ := keeps.owner
        have idle := (keeps.done done known).1
        rw [heldBy_self] at idle
        cases idle
    | none =>
        have filled := keeps.filled
        generalize contents : desk.serial.sink.stored = stored at filled
        cases filled with | free =>
        exact ⟨by simpa using keeps.mutex, log, rfl, keeps.places,
          fun i job known => (keeps.done done known).2⟩
  · intro i job scribe known found ended
    have result := ((keeps.scribes i job scribe known found).2.done ended).2
    have passes := pass job (List.mem_of_getElem? known)
    exact ⟨result, result.trans (congrArg some
      (World.write_result passes unfailing job.value).symm)⟩

theorem shared_sink_keeps_payloads_whole (unfailing : sink.Unfailing)
    (pass : ∀ job ∈ jobs, world.objection job.ctx job.precondition = none)
    (run : (start world sink jobs).run? moves = some desk) :
    desk.Untorn world sink jobs ∧ moves.length ≤ (start world sink jobs).cost world := by
  obtain ⟨⟨log, pending, keeps⟩, bound⟩ := (start_keeps sink pass).run unfailing run
  exact ⟨keeps.untorn unfailing pass, Nat.le_trans (Nat.le_add_right _ _) bound⟩

def board : Sink := { Sink.unlimited with stored := Text.bytes "log:" }

def pair : List Job := [
  ⟨.bare 7, World.admitted, .text "ab" <| .guarded .direct World.admitted (.text "c" .done) <|
    .text "d" .done⟩,
  ⟨.bare 8, World.admitted, .text "xyz" .done⟩]

/-- Thread 8 writes in the middle of the dump of thread 7, which moves meanwhile. -/
def turns : List Nat :=
  [0, 1, 0, 0, 0, 0, 1, 1, 0, 1, 1, 1, 1] ++ List.replicate 9 0

def paired : Desk :=
  ((start (.initial .empty) board pair).run? turns).getD (start (.initial .empty) board pair)

theorem pair_keeps_payloads_whole :
    board.Unfailing ∧
      (∀ job ∈ pair, (World.initial .empty).objection job.ctx job.precondition = none) ∧
      (start (.initial .empty) board pair).run? turns = some paired ∧
      paired.Untorn (.initial .empty) board pair ∧ paired.isDone = true ∧
      paired.serial.sink.stored = Text.bytes "log:abxyzcd" ∧
      ∃ log : Log, Text.bytes "log:abxyzcd" = board.stored ++ log.bytes ∧
        log.of 0 = [Text.bytes "ab", Text.bytes "c", Text.bytes "d"] ∧ log.of 1 = [Text.bytes "xyz"] := by
  have unfailing : board.Unfailing := fun _ _ _ => rfl
  have pass : ∀ job ∈ pair, (World.initial .empty).objection job.ctx job.precondition = none := by
    intro job member
    rcases List.mem_pair.mp member with rfl | rfl
    · rfl
    · rfl
  have run : (start (.initial .empty) board pair).run? turns = some paired := rfl
  have done : paired.isDone = true := by decide +kernel
  have stored : paired.serial.sink.stored = Text.bytes "log:abxyzcd" := by decide +kernel
  obtain ⟨untorn, -⟩ := shared_sink_keeps_payloads_whole unfailing pass run
  obtain ⟨-, log, whole, -, order⟩ := untorn.whole done
  refine ⟨unfailing, pass, run, untorn, done, stored, log, stored.symm.trans whole, ?_, ?_⟩
  · exact order 0 _ rfl
  · exact order 1 _ rfl

end Desk

end GuardedDump
