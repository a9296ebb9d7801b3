import GuardedDump.Proofs.Ordered
import GuardedDump.Proofs.Ownership
import GuardedDump.Proofs.Survey
import GuardedDump.Session.Settling
import Mathlib.Data.Nat.Bitwise

namespace GuardedDump

theorem Table.mem_insert {table : Table} {t : Thread} {hold : Hold} {entry : Thread × Hold} :
    entry ∈ (table.insert t hold).entries ↔
      entry = (t, hold) ∨ entry ∈ table.entries ∧ entry.1 ≠ t := by
  simp [insert, erase]

namespace Selection

def bit : Access → Nat
  | .shared => 0
  | .exclusive => 1

theorem shows_mode (s : Selection) (access : Access) :
    s.shows access.mode = s.bits.toNat.testBit (bit access) := by
  have masked (i : Nat) : (s.bits.toNat &&& 2 ^ i != 0) = s.bits.toNat.testBit i := by
    rw [Nat.and_two_pow]
    cases s.bits.toNat.testBit i <;> simp
  cases access with
  | shared => exact masked 0
  | exclusive => exact masked 1

theorem shows_union (a b : Selection) (access : Access) :
    (a.union b).shows access.mode = (a.shows access.mode || b.shows access.mode) := by
  rw [shows_mode, shows_mode, shows_mode, union, UInt8.toNat_or, Nat.testBit_or]

theorem shows_foldl (selections : List Selection) (start : Selection) (access : Access) :
    (selections.foldl union start).shows access.mode =
      (start.shows access.mode || selections.any fun one => one.shows access.mode) := by
  induction selections generalizing start with
  | nil => simp
  | cons first more ih => rw [List.foldl_cons, ih, shows_union, List.any_cons, Bool.or_assoc]

theorem shows_ofList (selections : List Selection) (access : Access) :
    (ofList selections).shows access.mode = true ↔
      selections = [] ∨ ∃ one ∈ selections, one.shows access.mode = true := by
  cases selections with
  | nil => cases access <;> decide
  | cons first more =>
      have nothing : none.shows access.mode = false := by cases access <;> rfl
      have merged : ofList (first :: more) = (first :: more).foldl union none := rfl
      rw [merged, shows_foldl, nothing, Bool.false_or, List.any_eq_true]
      simp

end Selection

theorem Selection.label_eq (s : Selection) : s.label =
    if s.bits.toNat = 0 then "None" else String.intercalate ", "
      ((if s.bits.toNat.testBit 0 then ["Shared"] else []) ++
        if s.bits.toNat.testBit 1 then ["Exclusive"] else []) := by
  have readers : s.hasShared = s.bits.toNat.testBit 0 := s.shows_mode .shared
  have writers : s.hasExclusive = s.bits.toNat.testBit 1 := s.shows_mode .exclusive
  simp only [label, readers, writers, beq_iff_eq]
  split
  · rfl
  · cases s.bits.toNat.testBit 0 <;> cases s.bits.toNat.testBit 1 <;> rfl

namespace Lock

/-- `lines` is the block of a lock in a survey by `ctx`: how many records there are, those that are
selected, and the counters. The records are those of the lock, and one for the survey itself if
the caller has none. -/
structure Listed (lock : Lock) (ctx : Context) (now : Instant) (selection : Selection)
    (records : List (Thread × Hold)) (lines : List String) : Prop where
  increasing : records.Pairwise fun a b => a.1.id < b.1.id
  members : ∀ record, record ∈ records ↔ record ∈ lock.table.entries ∨
    ctx.thread ∉ lock.table.entries.map Prod.fst ∧
      record = (ctx.thread, ⟨.shared, "dump all locks", now, ctx.origin, 1⟩)
  modes : ∀ record ∈ records, record.2.mode = .shared ∨ record.2.mode = .exclusive
  lines : lines = (lock.name ++ ": " ++ toString records.length ++ " holder(s)\n") ::
    (records.filter fun record =>
        selection.bits.toNat.testBit (if record.2.mode = .exclusive then 1 else 0)).map
      (fun record => "  - goroutine " ++ toString record.1.id.toNat ++ ": " ++
        (if record.2.mode = .exclusive then "exclusive" else "shared") ++
        " x" ++ toString record.2.count ++ " for '" ++ record.2.purpose ++ "' " ++
        record.2.place ++ ", held " ++
        ((Duration.between record.2.acquiredAt now).round .microsecond).text ++ "\n") ++
    ["  acquired: shared=" ++
      toString (lock.sharedCount + if ctx.thread ∈ lock.table.entries.map Prod.fst then 0 else 1) ++
      " exclusive=" ++ toString lock.exclusiveCount ++ " contentions=" ++
      toString (lock.contentions +
        if ctx.thread ∉ lock.table.entries.map Prod.fst ∧ lock.timeout.ns < 0 then 1 else 0) ++
      "\n"]

theorem hasHold_iff {lock : Lock} {t : Thread} :
    lock.hasHold t = true ↔ t ∈ lock.table.entries.map Prod.fst := by
  simp only [hasHold, Table.get?, Option.isSome_map, List.find?_isSome, beq_iff_eq, List.mem_map]

theorem name_shown (lock : Lock) (ctx : Context) (now : Instant) :
    (lock.shown ctx now).name = lock.name := by
  unfold shown
  split <;> rfl

theorem mem_shown (lock : Lock) (ctx : Context) (now : Instant) (record : Thread × Hold) :
    record ∈ (lock.shown ctx now).table.entries ↔ record ∈ lock.table.entries ∨
      ctx.thread ∉ lock.table.entries.map Prod.fst ∧
        record = (ctx.thread, ⟨.shared, "dump all locks", now, ctx.origin, 1⟩) := by
  rw [← hasHold_iff]
  unfold shown
  split
  case isTrue held => simp [held]
  case isFalse unheld =>
    have table : (lock.entered ctx.thread ⟨.shared, Call.surveyPurpose, now, ctx.origin, 1⟩
        (.between now now)).table = lock.table.insert ctx.thread _ := rfl
    rw [table, Table.mem_insert]
    constructor
    · rintro (own | ⟨member, -⟩)
      · exact .inr ⟨unheld, own⟩
      · exact .inl member
    · rintro (member | ⟨-, own⟩)
      · refine .inr ⟨member, fun same => unheld ?_⟩
        exact hasHold_iff.mpr (List.mem_map.mpr ⟨record, member, same⟩)
      · exact .inl own

theorem countLine_shown (lock : Lock) (ctx : Context) (now : Instant) :
    (lock.shown ctx now).countLine = "  acquired: shared=" ++
      toString (lock.sharedCount + if ctx.thread ∈ lock.table.entries.map Prod.fst then 0 else 1) ++
      " exclusive=" ++ toString lock.exclusiveCount ++ " contentions=" ++
      toString (lock.contentions +
        if ctx.thread ∉ lock.table.entries.map Prod.fst ∧ lock.timeout.ns < 0 then 1 else 0) ++
      "\n" := by
  unfold shown
  split
  case isTrue held =>
    rw [hasHold_iff] at held
    simp only [held, if_true, not_true_eq_false, false_and, if_false, Nat.add_zero]
    rfl
  case isFalse unheld =>
    rw [hasHold_iff] at unheld
    have instantly : Duration.between now now = .zero := by
      simp only [Duration.between, Int.sub_self]
      rfl
    have late : (Duration.between now now).exceeds lock.timeout = decide (lock.timeout.ns < 0) := by
      rw [instantly]
      rfl
    have waits : (lock.entered ctx.thread ⟨.shared, Call.surveyPurpose, now, ctx.origin, 1⟩
        (.between now now)).contentions =
          lock.contentions + if lock.timeout.ns < 0 then 1 else 0 := by
      simp only [entered, tallyWait, tally, record, seize, cede, ask, late, decide_eq_true_eq]
      split <;> rfl
    simp only [unheld, if_false, not_false_eq_true, true_and]
    rw [← waits]
    rfl

theorem holdLine_eq {record : Thread × Hold} (known : record.1.isKnown = true)
    (plain : record.2.mode = .shared ∨ record.2.mode = .exclusive) (now : Instant) :
    holdLine now record = "  - goroutine " ++ toString record.1.id.toNat ++ ": " ++
      (if record.2.mode = .exclusive then "exclusive" else "shared") ++
      " x" ++ toString record.2.count ++ " for '" ++ record.2.purpose ++ "' " ++
      record.2.place ++ ", held " ++
      ((Duration.between record.2.acquiredAt now).round .microsecond).text ++ "\n" := by
  have words : record.2.mode.label =
      if record.2.mode = .exclusive then "exclusive" else "shared" := by
    rcases plain with shared | exclusive
    · rw [shared]
      rfl
    · rw [exclusive]
      rfl
  have count : Numeral.ofInt record.2.count = toString record.2.count := by
    cases record.2.count <;> rfl
  have start : "  - " ++ "goroutine " = "  - goroutine " := rfl
  have number : Numeral.ofNat record.1.id.toNat = toString record.1.id.toNat := rfl
  simp only [holdLine, Thread.label, known, if_true, Hold.text, Hold.age, words, count, number,
    ← start, String.append_assoc]

theorem Agrees.listed {lock : Lock} {phase : Thread → Phase} (agrees : lock.Agrees phase)
    {ctx : Context} (known : ctx.thread.isKnown = true) (now : Instant) (selection : Selection) :
    lock.Listed ctx now selection (lock.shown ctx now).table.ordered
      ((lock.shown ctx now).listing selection now) := by
  have distinct : (lock.shown ctx now).table.Distinct := by
    unfold shown
    split
    · exact agrees.table
    · exact agrees.table.insert ..
  have members (record : Thread × Hold) :=
    Table.mem_ordered.trans (lock.mem_shown ctx now record)
  have owned : ∀ record ∈ (lock.shown ctx now).table.ordered, record.1.isKnown = true ∧
      ∃ access : Access, record.2.mode = access.mode := by
    intro record member
    rcases (members record).mp member with former | ⟨-, rfl⟩
    · obtain ⟨named, access, -, backs⟩ :=
        agrees.owns_of_record (agrees.table.get?_eq_some_iff.mpr former)
      exact ⟨named, access, backs.mode⟩
    · exact ⟨known, .shared, rfl⟩
  have modes : ∀ record ∈ (lock.shown ctx now).table.ordered,
      record.2.mode = .shared ∨ record.2.mode = .exclusive := by
    intro record member
    obtain ⟨-, access, mode⟩ := owned record member
    cases access
    · exact .inl mode
    · exact .inr mode
  refine ⟨distinct.ordered_strict, members, modes, ?_⟩
  have selected : (lock.shown ctx now).listed selection =
      (lock.shown ctx now).table.ordered.filter fun record =>
        selection.bits.toNat.testBit (if record.2.mode = .exclusive then 1 else 0) := by
    apply List.filter_congr
    intro record member
    obtain ⟨-, access, mode⟩ := owned record member
    rw [mode, selection.shows_mode]
    cases access <;> rfl
  have lines : ((lock.shown ctx now).listed selection).map (holdLine now) = _ :=
    List.map_congr_left fun record member =>
      have listed := (List.mem_filter.mp member).1
      holdLine_eq (owned record listed).1 (modes record listed) now
  rw [listing, lines, selected, headLine, lock.countLine_shown, lock.name_shown,
    ← Table.length_ordered]
  rfl

end Lock

structure World.Catalogue (world : World) (ctx : Context) (selection : Selection) (header : String)
    (block : String × LockId → List String) (texts : List String) : Prop where
  texts : texts = header :: world.roster.ordered.flatMap block
  header : header = "=== Lock Status ===\nTotal Registered Locks: " ++
    toString world.roster.entries.length ++ "\nActive Filters: " ++
    (if selection.bits.toNat = 0 then "None" else String.intercalate ", "
      ((if selection.bits.toNat.testBit 0 then ["Shared"] else []) ++
        if selection.bits.toNat.testBit 1 then ["Exclusive"] else [])) ++ "\n\n"
  increasing : world.roster.ordered.Pairwise fun a b => Text.bytes a.1 < Text.bytes b.1
  members : ∀ entry, entry ∈ world.roster.ordered ↔ entry ∈ world.roster.entries
  blocks : ∀ entry ∈ world.roster.entries, (world.lock entry.2).name = entry.1 ∧
    ∃ records, (world.lock entry.2).Listed ctx world.now selection records (block entry)

namespace Call

variable {world : World} {ctx : Context} {selection : Selection} {sink : Sink} {ended : Call}

/-- The result of a survey that wrote `header` and the blocks of `entries`: the complaint of the sink,
with the name of the lock in front if it met a block. -/
def Answers (ended : Call) (sink : Sink) (header : List UInt8)
    (block : String × LockId → List (List UInt8)) (entries : List (String × LockId)) : Prop :=
  match ended.receipt.failure with
  | none => (sink.deliver (header :: entries.flatMap block)).1.failure = none
  | some failure => ∃ cause,
      (sink.deliver (header :: entries.flatMap block)).1.failure = some cause ∧
      ((sink.deliver [header]).1.failure = some cause ∧ failure = cause ∨
        ∃ earlier entry later, entries = earlier ++ entry :: later ∧
          (sink.deliver (header :: earlier.flatMap block)).1.failure = none ∧
          (sink.deliver (header :: (earlier ++ [entry]).flatMap block)).1.failure = some cause ∧
          failure = .wrap ("dump " ++ entry.1) cause)

theorem Answers.eq_none_iff {header : List UInt8} {block : String × LockId → List (List UInt8)}
    {entries : List (String × LockId)} (answers : ended.Answers sink header block entries) :
    ended.receipt.failure = none ↔
      (sink.deliver (header :: entries.flatMap block)).1.failure = none := by
  unfold Answers at answers
  split at answers
  case h_1 silent => simp [silent, answers]
  case h_2 failure failed =>
    obtain ⟨cause, complaint, -⟩ := answers
    simp [failed, complaint]

theorem Reports.answers (reports : ended.Reports world ctx selection sink) :
    ended.writer = .ofSink (sink.deliver
        (Text.bytes (surveyHeader world.roster.ordered.length selection) ::
          world.roster.ordered.flatMap fun entry => world.block ctx selection entry.2)).2 ∧
      ended.Answers sink (Text.bytes (surveyHeader world.roster.ordered.length selection))
        (fun entry => world.block ctx selection entry.2) world.roster.ordered := by
  unfold Reports at reports
  generalize Text.bytes (surveyHeader world.roster.ordered.length selection) = header
    at reports ⊢
  unfold Answers
  rcases reports with ⟨same, failed⟩ | ⟨accepted, written, told⟩
  · obtain ⟨receipt, writer⟩ := Prod.mk.inj same
    obtain ⟨failure, complaint⟩ := Option.isSome_iff_exists.mp failed
    rw [receipt] at complaint
    have stopped := Sink.deliver_append_some complaint
      (world.roster.ordered.flatMap fun entry => world.block ctx selection entry.2)
    rw [List.singleton_append] at stopped
    rw [receipt, complaint, stopped]
    exact ⟨writer, failure, complaint, .inl ⟨rfl, rfl⟩⟩
  · refine ⟨written, ?_⟩
    cases failed : ended.receipt.failure with
    | none =>
        rw [failed] at told
        exact told
    | some failure =>
        rw [failed] at told
        obtain ⟨earlier, entry, later, cause, parts, before, complaint, same⟩ := told
        refine ⟨cause, ?_, .inr ⟨earlier, entry, later, parts, before, complaint, same⟩⟩
        have stopped := Sink.deliver_append_some complaint
          (later.flatMap fun entry => world.block ctx selection entry.2)
        rw [parts, List.append_cons, List.flatMap_append, ← List.singleton_append,
          ← List.append_assoc, stopped, complaint]

end Call

namespace Session

def report (session : Session) (ctx : Context) (selection : Selection)
    (entry : String × LockId) : List String :=
  ((session.world.lock entry.2).shown ctx session.world.now).listing selection session.world.now

theorem Reachable.catalogue {failures : Failures} {session : Session}
    (reachable : Reachable failures session) {ctx : Context} (known : ctx.thread.isKnown = true)
    (selection : Selection) :
    session.world.Catalogue ctx selection
      (Call.surveyHeader session.world.roster.ordered.length selection)
      (session.report ctx selection)
      (Call.surveyHeader session.world.roster.ordered.length selection ::
        session.world.roster.ordered.flatMap (session.report ctx selection)) := by
  have enrolled := reachable.enrolled
  have number : Numeral.ofNat session.world.roster.ordered.length =
      toString session.world.roster.entries.length :=
    congrArg Numeral.ofNat session.world.roster.length_ordered
  refine ⟨rfl, ?_, Roster.ordered_strict enrolled.distinct, ?_, ?_⟩
  · unfold Call.surveyHeader
    rw [number, selection.label_eq]
  · exact fun entry => World.Enrolled.mem_ordered
  · intro entry member
    exact ⟨enrolled.named entry member, _, (reachable.sound.agrees entry.2).listed known ..⟩

theorem Reachable.ready {failures : Failures} {session : Session} {ctx : Context}
    (reachable : Reachable failures session) (idle : session.isBusy ctx.thread = false)
    (quiet : ∀ entry ∈ session.world.roster.entries, ∀ u, u ≠ ctx.thread →
      (session.world.lock entry.2).gate.writer ≠ some u ∧
        u ∉ (session.world.lock entry.2).gate.waitingWriters) :
    ∀ entry ∈ session.world.roster.ordered, Call.Ready ctx.thread session.world entry := by
  intro entry member
  rw [World.Enrolled.mem_ordered] at member
  have away : ctx.thread ∉ threads session.pending := by
    rw [← isBusy_iff, idle]
    exact Bool.false_ne_true
  exact ⟨reachable.enrolled.known entry member, reachable.enrolled.named entry member,
    reachable.sound.admitted away (quiet entry member)⟩

theorem survey_prints {failures : Failures} {session : Session} {ctx : Context} {sink : Sink}
    (reachable : Reachable failures session) (known : ctx.thread.isKnown = true)
    (idle : session.isBusy ctx.thread = false)
    (quiet : ∀ entry ∈ session.world.roster.entries, ∀ u, u ≠ ctx.thread →
      (session.world.lock entry.2).gate.writer ≠ some u ∧
        u ∉ (session.world.lock entry.2).gate.waitingWriters)
    (honest : sink.Honest) (tag : Nat) (selections : List Selection) :
    ∃ header block texts after ended sent unsent,
      session.world.Catalogue ctx (.ofList selections) header block texts ∧
      (∀ access : Access,
        (Selection.ofList selections).bits.toNat.testBit (Selection.bit access) = true ↔
          selections = [] ∨
            ∃ one ∈ selections, one.bits.toNat.testBit (Selection.bit access) = true) ∧
      (∃ steps, session.follow (.start ctx tag (.survey selections sink) ::
          List.replicate steps (.step ctx.thread)) = some { session with
            world := after
            pending := ⟨tag, session.world.history.length, .survey selections sink, ended⟩ ::
              session.pending }) ∧
      ended.isDone = true ∧ ended.panic = none ∧
      sink.Delivered (texts.map Text.bytes) sent unsent (sink.deliver (texts.map Text.bytes)).1
        ended.writer.sink ∧
      (∃ bytes, ended.writer.sink.stored = sink.stored ++ bytes ∧
        bytes <+: texts.flatMap Text.bytes ∧
        (ended.receipt.failure = none → bytes = texts.flatMap Text.bytes)) ∧
      (sink.Steady → ended.receipt.failure = none) ∧
      ended.Answers sink (Text.bytes header) (fun entry => (block entry).map Text.bytes)
        session.world.roster.ordered ∧
      ∀ others, Selection.ofList others = .ofList selections →
        (Operation.survey others sink).call ctx = (Operation.survey selections sink).call ctx := by
  obtain ⟨after, ended, reached, -, -, runs, -, done, panic, -, reports⟩ :=
    Call.survey_reports selections sink known (reachable.ready idle quiet)
      reachable.enrolled.ids_distinct
  obtain ⟨writer, answers⟩ := reports.answers
  have catalogue := reachable.catalogue known (.ofList selections)
  have silent := answers.eq_none_iff
  have sent_all : Text.bytes (Call.surveyHeader session.world.roster.ordered.length
        (.ofList selections)) ::
      (session.world.roster.ordered.flatMap fun entry =>
        session.world.block ctx (.ofList selections) entry.2) =
      (Call.surveyHeader session.world.roster.ordered.length (.ofList selections) ::
        session.world.roster.ordered.flatMap (session.report ctx (.ofList selections))).map
          Text.bytes := by
    rw [List.map_cons, List.map_flatMap]
    rfl
  rw [sent_all] at silent writer
  generalize Call.surveyHeader session.world.roster.ordered.length (.ofList selections) ::
    session.world.roster.ordered.flatMap (session.report ctx (.ofList selections)) = texts
    at catalogue silent writer
  obtain ⟨sent, unsent, delivered⟩ := sink.deliver_delivered (texts.map Text.bytes)
  obtain ⟨bytes, stored, start, -, complete⟩ := Sink.deliver_stored honest (texts.map Text.bytes)
  refine ⟨_, _, texts, after, ended, sent, unsent, catalogue, ?_,
    runs.follow_start reachable idle tag, done, panic, ?_, ?_, ?_, answers, ?_⟩
  · intro access
    have shown := Selection.shows_ofList selections access
    simp only [Selection.shows_mode] at shown
    exact shown
  · rw [writer]
    exact delivered
  · rw [writer]
    exact ⟨bytes, stored, start, fun calm => complete (silent.mp calm)⟩
  · exact fun steady => silent.mpr (steady.deliver (texts.map Text.bytes)).1
  · intro others same
    simp only [Operation.call, same]

def division : List Move :=
  List.flatten [
    .start (.bare 1) 0 (.enter 0 .exclusive "sweep") :: List.replicate 5 (.step ⟨1⟩),
    [.finish ⟨1⟩, .command (.bare 2) (.newLock "journal" .second .standard)],
    .start (.bare 2) 1 (.enter 1 .shared "replay") :: List.replicate 5 (.step ⟨2⟩), [.finish ⟨2⟩]]

def divided : Session := ((initial .empty).follow division).getD (initial .empty)

def cramped : Sink := Sink.FaultPlan.sink { failOn := [6], short := 7, message := "full" }

def dividedSurvey : List Move :=
  .start (.bare 1) 2 (.survey [.shared] cramped) :: List.replicate 17 (.step ⟨1⟩)

theorem divided_survey_prints :
    Reachable .empty divided ∧ (divided.world.lock 0).hasExclusiveHold ⟨1⟩ = true ∧
      divided.world.roster.ordered = [("journal", 1), ("mutator lock", 0)] ∧ cramped.Honest ∧
      ∃ header block texts after ended,
        divided.follow dividedSurvey = some { divided with
          world := after
          pending := [⟨2, divided.world.history.length, .survey [.shared] cramped, ended⟩] } ∧
        ended.isDone = true ∧
        ended.receipt.failure = some (.wrap "dump mutator lock" (.plain "full")) ∧
        ended.writer.sink.stored = Text.bytes ("=== Lock Status ===\nTotal Registered Locks: 2\n" ++
          "Active Filters: Shared\n\njournal: 2 holder(s)\n" ++
          "  - goroutine 1: shared x1 for 'dump all locks' unknown, held 0s\n" ++
          "  - goroutine 2: shared x1 for 'replay' unknown, held 0s\n" ++
          "  acquired: shared=2 exclusive=0 contentions=0\nmutator") ∧
        divided.world.Catalogue (.bare 1) .shared header block texts ∧
        ended.writer.sink.stored <+: texts.flatMap Text.bytes ∧
        ended.Answers cramped (Text.bytes header) (fun entry => (block entry).map Text.bytes)
          divided.world.roster.ordered := by
  have reachable : Reachable .empty divided :=
    Reachable.initial.follow (by decide) (rfl : (initial .empty).follow division = some divided)
  have honest : cramped.Honest := Sink.FaultPlan.sink_honest rfl
  have entries : divided.world.roster.entries = [("journal", 1), (mainLockName, 0)] := by
    decide +kernel
  have writers : ∀ id ∈ [1, 0], (divided.world.lock id).gate.writer.all (· == ⟨1⟩) = true ∧
      (divided.world.lock id).gate.waitingWriters = [] := by
    decide +kernel
  have quiet : ∀ entry ∈ divided.world.roster.entries, ∀ u, u ≠ (Context.bare 1).thread →
      (divided.world.lock entry.2).gate.writer ≠ some u ∧
        u ∉ (divided.world.lock entry.2).gate.waitingWriters := by
    intro entry member u different
    obtain ⟨own, none_waits⟩ := writers entry.2 (by rw [entries] at member; revert entry; decide)
    rw [none_waits]
    refine ⟨?_, List.not_mem_nil⟩
    intro writer
    rw [writer, Option.all_some, beq_iff_eq] at own
    exact different own
  obtain ⟨header, block, texts, after, ended, -, -, catalogue, -, ⟨steps, followed⟩, done, -, -,
    ⟨bytes, stored, start, -⟩, -, answers, -⟩ :=
    survey_prints reachable (by decide : (Context.bare 1).thread.isKnown = true)
      (by decide +kernel) quiet honest 2 [.shared]
  have alone : divided.pending = [] := rfl
  -- The run of the theorem is the one written down above.
  have run : divided.follow dividedSurvey = some ((divided.follow dividedSurvey).getD divided) := rfl
  have one := follow_start_unique followed run (by simpa [alone] using done) (by decide +kernel)
  rw [alone] at one
  rw [← one] at run
  have failed : ended.receipt.failure = some (.wrap "dump mutator lock" (.plain "full")) :=
    congrArg (fun session : Session =>
      session.pending.head?.bind fun p => p.call.receipt.failure) one
  refine ⟨reachable, by decide +kernel, by decide +kernel, honest, header, block, texts, after, ended,
    run, done, failed, ?_, catalogue, ?_, answers⟩
  · apply Option.some.inj
    have same := congrArg (fun session : Session =>
      session.pending.head?.map fun p => p.call.writer.sink.stored) one
    refine same.trans ?_
    decide +kernel
  · rw [stored]
    exact start

end Session

end GuardedDump
