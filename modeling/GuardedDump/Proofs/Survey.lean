import GuardedDump.Proofs.Enrolment
import GuardedDump.Proofs.Visit

/-!
# Surveys leave locks as they found them

With no writer in the way, a survey runs to its end whatever the sink does. Each lock that it came
to has its table and its gate back and one more acquisition, a lock that the caller holds or that
it did not come to was never touched, and no check was failed (`Session.survey_restores`).
-/

namespace GuardedDump

namespace World

variable {t : Thread} {a b c : World}

structure Spared (t : Thread) (reached : List LockId) (before after : World) : Prop where
  kept : ∀ id, id ∉ reached ∨ (before.lock id).hasHold t = true → after.lock id = before.lock id
  count : after.locks.length = before.locks.length
  roster : after.roster = before.roster
  hooks : after.hooks = before.hooks
  warned : after.warned = before.warned
  failures : after.failures = before.failures
  now : after.now = before.now
  logged : Logged t before after

structure Surveyed (t : Thread) (reached : List LockId) (before after : World) : Prop extends
    Spared t reached before after where
  visited : ∀ id ∈ reached, (before.lock id).hasHold t = false →
    after.lock id = (before.lock id).visited (.between before.now before.now)

theorem Surveyed.refl (t : Thread) (world : World) : Surveyed t [] world world :=
  ⟨⟨fun _ _ => rfl, rfl, rfl, rfl, rfl, rfl, rfl, .of_eq rfl⟩, nofun⟩

theorem Spared.mono {fewer more : List LockId} (spared : Spared t fewer a b)
    (subset : fewer ⊆ more) : Spared t more a b :=
  { spared with
    kept := fun id safe => spared.kept id (safe.imp_left fun absent member => absent (subset member)) }

theorem Works.spared {id : LockId} (works : Works t id a b)
    (held : (a.lock id).hasHold t = true → b.lock id = a.lock id) : Spared t [id] a b := by
  refine ⟨?_, works.count, works.roster, works.hooks, works.warned, works.failures, works.now,
    works.logged⟩
  intro other safe
  by_cases same : other = id
  · subst same
    exact held (safe.resolve_left fun absent => absent (List.mem_singleton_self _))
  · exact works.others other same

namespace Surveyed

variable {earlier later : List LockId}

theorem lock_cases (surveyed : Surveyed t earlier a b) (id : LockId) :
    b.lock id = a.lock id ∨ b.lock id = (a.lock id).visited (.between a.now a.now) := by
  by_cases reached : id ∈ earlier
  · cases held : (a.lock id).hasHold t with
    | true => exact .inl (surveyed.kept id (.inr held))
    | false => exact .inr (surveyed.visited id reached held)
  · exact .inl (surveyed.kept id (.inl reached))

theorem same (surveyed : Surveyed t earlier a b) (id : LockId) :
    (b.lock id).table = (a.lock id).table ∧ (b.lock id).gate = (a.lock id).gate := by
  rcases surveyed.lock_cases id with kept | visited
  · rw [kept]
    exact ⟨rfl, rfl⟩
  · rw [visited]
    exact ⟨rfl, rfl⟩

theorem hasHold_eq (surveyed : Surveyed t earlier a b) (id : LockId) :
    (b.lock id).hasHold t = (a.lock id).hasHold t := by
  simp only [Lock.hasHold, (surveyed.same id).1]

theorem spared_trans (first : Surveyed t earlier a b) (second : Spared t later b c) :
    Spared t (earlier ++ later) a c := by
  refine ⟨?_, second.count.trans first.count, second.roster.trans first.roster,
    second.hooks.trans first.hooks, second.warned.trans first.warned,
    second.failures.trans first.failures, second.now.trans first.now,
    first.logged.trans second.logged⟩
  intro id safe
  rw [List.mem_append, not_or] at safe
  calc
    c.lock id = b.lock id := by
      apply second.kept
      rw [first.hasHold_eq]
      exact safe.imp_left And.right
    _ = a.lock id := first.kept id (safe.imp_left And.left)

theorem trans (first : Surveyed t earlier a b) (second : Surveyed t later b c)
    (apart : ∀ id ∈ later, id ∉ earlier) : Surveyed t (earlier ++ later) a c := by
  refine ⟨first.spared_trans second.toSpared, ?_⟩
  intro id reached unheld
  by_cases before : id ∈ earlier
  · have absent : id ∉ later := fun member => apart id member before
    rw [second.kept id (.inl absent)]
    exact first.visited id before unheld
  · have after := (List.mem_append.mp reached).resolve_left before
    have visited := second.visited id after (by rw [first.hasHold_eq, unheld])
    rwa [first.kept id (.inl before), first.now] at visited

end Surveyed

end World

def World.block (world : World) (ctx : Context) (selection : Selection) (id : LockId) :
    List (List UInt8) :=
  ((world.lock id).shown ctx world.now).payloads selection world.now

namespace Call

open World

structure Ready (t : Thread) (world : World) (entry : String × LockId) : Prop where
  present : entry.2 < world.locks.length
  named : (world.lock entry.2).name = entry.1
  admitted : (world.lock entry.2).hasHold t = true ∨ (world.lock entry.2).Free t

theorem Ready.of_kept {t : Thread} {world after : World} {entry : String × LockId}
    (ready : Ready t world entry) (count : after.locks.length = world.locks.length)
    (kept : after.lock entry.2 = world.lock entry.2) : Ready t after entry := by
  obtain ⟨present, named, admitted⟩ := ready
  refine ⟨?_, ?_, ?_⟩
  · rwa [count]
  · rwa [kept]
  · rwa [kept]

def Concludes (call : Call) (reached rest : List (String × LockId)) : Prop :=
  match call.receipt.failure with
  | none => rest = []
  | some failure => ∃ earlier entry cause,
      reached = earlier ++ [entry] ∧ failure = .wrap ("dump " ++ entry.1) cause

theorem Concludes.cons {call : Call} {reached rest : List (String × LockId)}
    (concludes : call.Concludes reached rest) (entry : String × LockId) :
    call.Concludes (entry :: reached) rest := by
  unfold Concludes at concludes ⊢
  split at concludes
  · exact concludes
  · obtain ⟨earlier, last, cause, rfl, rfl⟩ := concludes
    exact ⟨entry :: earlier, last, cause, rfl, rfl⟩

def Roams (t : Thread) (reached : List (String × LockId)) (start world : World) (call : Call) :
    Prop :=
  Spared t (reached.map Prod.snd) start world ∧ call.Passes world

theorem Sees.roams {t : Thread} {entry : String × LockId} {start world : World} {call : Call}
    (sees : Sees t entry.2 start world call) (more : List (String × LockId)) :
    Roams t (entry :: more) start world call := by
  obtain ⟨⟨works, passes⟩, held⟩ := sees
  refine ⟨(works.spared held).mono ?_, passes⟩
  simp

theorem visited_surveyed {t : Thread} {id : LockId} {world after : World}
    (works : Works t id world after)
    (lock : after.lock id = if (world.lock id).hasHold t then world.lock id
      else (world.lock id).visited (.between world.now world.now)) :
    Surveyed t [id] world after := by
  refine ⟨works.spared fun held => by rw [lock, if_pos held], ?_⟩
  intro other member unheld
  rw [List.mem_singleton] at member
  subst member
  rw [lock, unheld]
  rfl

/-- The blocks of `entries` have gone to the sink behind `lead`, up to the first complaint. Who
wrote the block that met it has put its name in front. -/
def Tells (ended : Call) (sink : Sink) (lead : List (List UInt8)) (block : String × LockId → List (List UInt8))
    (entries : List (String × LockId)) : Prop :=
  ended.writer = .ofSink (sink.deliver (lead ++ entries.flatMap block)).2 ∧
    match ended.receipt.failure with
    | none => (sink.deliver (lead ++ entries.flatMap block)).1.failure = none
    | some failure => ∃ earlier entry later cause, entries = earlier ++ entry :: later ∧
        (sink.deliver (lead ++ earlier.flatMap block)).1.failure = none ∧
        (sink.deliver (lead ++ (earlier ++ [entry]).flatMap block)).1.failure = some cause ∧
        failure = .wrap ("dump " ++ entry.1) cause

theorem Tells.cons {ended : Call} {sink : Sink} {lead : List (List UInt8)}
    {block : String × LockId → List (List UInt8)} {entry : String × LockId}
    {more : List (String × LockId)} (tells : ended.Tells sink (lead ++ block entry) block more) :
    ended.Tells sink lead block (entry :: more) := by
  unfold Tells at tells ⊢
  rw [List.flatMap_cons, ← List.append_assoc]
  refine ⟨tells.1, ?_⟩
  have told := tells.2
  split at told
  · exact told
  · obtain ⟨earlier, failing, later, cause, rfl, before, complaint, rfl⟩ := told
    refine ⟨entry :: earlier, failing, later, cause, rfl, ?_, ?_, rfl⟩
    · rwa [List.flatMap_cons, ← List.append_assoc]
    · rwa [List.cons_append, List.flatMap_cons, ← List.append_assoc]

theorem Tells.halt {ended : Call} {sink : Sink} {lead : List (List UInt8)}
    {block : String × LockId → List (List UInt8)} {entry : String × LockId} {cause : Failure}
    (accepted : (sink.deliver lead).1.failure = none)
    (complaint : (sink.deliver (lead ++ block entry)).1.failure = some cause)
    (writer : ended.writer = .ofSink (sink.deliver (lead ++ block entry)).2)
    (result : ended.receipt.failure = some (.wrap ("dump " ++ entry.1) cause))
    (more : List (String × LockId)) : ended.Tells sink lead block (entry :: more) := by
  have stopped := Sink.deliver_append_some complaint (more.flatMap block)
  constructor
  · rw [List.flatMap_cons, ← List.append_assoc, stopped]
    exact writer
  · rw [result]
    refine ⟨[], entry, more, cause, rfl, ?_, ?_, rfl⟩
    · rwa [List.flatMap_nil, List.append_nil]
    · rwa [List.nil_append, List.flatMap_singleton]

/-- A block that fails ends the survey: the tasks that are left are visits, and none of them gives back
a hold. -/
theorem settle_visits {call : Call} {entries : List (String × LockId)} {selection : Selection}
    (tasks : call.tasks = entries.map fun entry => .visit entry.2 selection) (lock : Lock)
    {receipt : Receipt} {cause : Failure} (failed : receipt.failure = some cause) :
    call.settle (blockOf lock) receipt = { call with
      tasks := []
      receipt := ⟨receipt.count, some (.wrap ("dump " ++ lock.name) cause)⟩ } := by
  have none_left : call.tasks.filter Task.isLeave = [] := by
    rw [tasks, List.filter_eq_nil_iff]
    intro task member
    obtain ⟨other, -, rfl⟩ := List.mem_map.mp member
    exact Bool.false_ne_true
  simp only [settle, blockOf, failed, unwind, none_left]

theorem visits_run (entries : List (String × LockId)) {world : World} {call : Call}
    {selection : Selection} {sink : Sink} {lead : List (List UInt8)}
    {block : String × LockId → List (List UInt8)}
    (tasks : call.tasks = entries.map fun entry => .visit entry.2 selection)
    (known : call.thread.isKnown = true) (calm : call.receipt.failure = none)
    (ready : ∀ entry ∈ entries, Ready call.thread world entry)
    (distinct : (entries.map Prod.snd).Nodup)
    (accepted : (sink.deliver lead).1.failure = none)
    (bare : call.writer = .ofSink (sink.deliver lead).2)
    (lines : ∀ entry ∈ entries, world.block call.ctx selection entry.2 = block entry) :
    ∃ after ended reached rest, entries = reached ++ rest ∧
      Runs (Roams call.thread reached world) world call after ended ∧
      Surveyed call.thread (reached.map Prod.snd) world after ∧
      ended.isDone = true ∧ ended.panic = call.panic ∧ ended.Concludes reached rest ∧
      ended.Tells sink lead block entries := by
  induction entries generalizing world call lead with
  | nil =>
      refine ⟨world, call, [], [], rfl, .stop, .refl .., ?_, rfl, ?_, ?_, ?_⟩
      · rw [isDone, tasks]
        rfl
      · rw [Concludes, calm]
      · rw [bare, List.flatMap_nil, List.append_nil]
      · rw [calm, List.flatMap_nil, List.append_nil]
        exact accepted
  | cons entry more ih =>
      obtain ⟨ctx, queue, writer, receipt, panic⟩ := call
      simp only [List.map_cons] at tasks
      simp only at bare
      subst tasks bare
      obtain ⟨present, named, admitted⟩ := ready entry (by simp)
      obtain ⟨between, visits, works, lock⟩ := visit_runs
        ⟨ctx, more.map fun entry => .visit entry.2 selection, .ofSink (sink.deliver lead).2,
          receipt, panic⟩
        known present admitted selection
      have own : ((world.lock entry.2).shown ctx world.now).payloads selection world.now =
          block entry := lines entry (by simp)
      simp only [listed, own, Writer.metered_ofSink] at visits
      have first := visited_surveyed works lock
      obtain ⟨apart, later⟩ := List.nodup_cons.mp distinct
      obtain ⟨failure, sunk⟩ := Sink.deliver_append_none accepted (block entry)
      rw [← sunk] at visits
      cases failed : ((sink.deliver lead).2.deliver (block entry)).1.failure with
      | some cause =>
          rw [failed] at failure
          rw [settle_visits rfl _ failed, named] at visits
          exact ⟨between, _, [entry], more, rfl, visits.mono fun _ _ sees => sees.roams [], first,
            rfl, rfl, ⟨[], entry, cause, rfl, rfl⟩, .halt accepted failure rfl rfl more⟩
      | none =>
          have still : ∀ other ∈ more, between.lock other.2 = world.lock other.2 := by
            intro other member
            apply works.others
            intro same
            exact apart (List.mem_map.mpr ⟨other, member, same⟩)
          simp only [settle, blockOf, failed] at visits
          rw [failed] at failure
          obtain ⟨after, ended, reached, rest, parts, runs, surveyed, done, calmly, concludes,
            tells⟩ := @ih between ⟨ctx, _, _, _, panic⟩ (lead ++ block entry) rfl known failed
              (fun other member => (ready other (by simp [member])).of_kept works.count
                (still other member)) later failure rfl
              (fun other member => by
                rw [← lines other (by simp [member]), World.block, World.block, still other member,
                  works.now])
          have disjoint : ∀ id ∈ reached.map Prod.snd, id ∉ [entry.2] := by
            intro id member same
            rw [List.mem_singleton.mp same] at member
            apply apart
            rw [parts, List.map_append]
            exact List.mem_append_left _ member
          refine ⟨after, ended, entry :: reached, rest, by rw [parts]; rfl, ?_,
            first.trans surveyed disjoint, done, calmly, concludes.cons entry, tells.cons⟩
          refine (visits.mono fun _ _ sees => sees.roams reached).trans (runs.mono ?_)
          rintro now current ⟨spared, passes⟩
          exact ⟨first.spared_trans spared, passes⟩

def Reports (ended : Call) (world : World) (ctx : Context) (selection : Selection) (sink : Sink) :
    Prop :=
  (ended.receipt, ended.writer) =
      ((sink.deliver [Text.bytes (surveyHeader world.roster.ordered.length selection)]).1,
        .ofSink (sink.deliver [Text.bytes (surveyHeader world.roster.ordered.length selection)]).2) ∧
      ended.receipt.failure.isSome = true ∨
    (sink.deliver [Text.bytes (surveyHeader world.roster.ordered.length selection)]).1.failure = none ∧
      ended.Tells sink [Text.bytes (surveyHeader world.roster.ordered.length selection)]
        (fun entry => world.block ctx selection entry.2) world.roster.ordered

theorem survey_reports {world : World} {ctx : Context} (selections : List Selection) (sink : Sink)
    (known : ctx.thread.isKnown = true)
    (ready : ∀ entry ∈ world.roster.ordered, Ready ctx.thread world entry)
    (distinct : (world.roster.ordered.map Prod.snd).Nodup) :
    ∃ after ended reached rest, world.roster.ordered = reached ++ rest ∧
      Runs (Roams ctx.thread reached world) world ((Operation.survey selections sink).call ctx)
        after ended ∧
      Surveyed ctx.thread (reached.map Prod.snd) world after ∧
      ended.isDone = true ∧ ended.panic = none ∧
      (ended.Concludes reached rest ∨ reached = [] ∧ ended.receipt.failure.isSome = true) ∧
      ended.Reports world ctx (.ofList selections) sink := by
  have shape : (Operation.survey selections sink).call ctx =
      (start ctx [] sink).next (.survey (.ofList selections)) := rfl
  rw [shape]
  have here (reached : List (String × LockId)) : Roams ctx.thread reached world world
      ((start ctx [] sink).next (.survey (.ofList selections))) :=
    ⟨(Surveyed.refl ctx.thread world).toSpared.mono (List.nil_subset _), passes_next rfl⟩
  have first : ((start ctx [] sink).next (.survey (.ofList selections))).step world =
      some (stepSurvey world (start ctx [] sink) (.ofList selections)) := rfl
  unfold Reports
  simp only [stepSurvey] at first
  generalize Text.bytes (surveyHeader world.roster.ordered.length (.ofList selections)) = header
    at first ⊢
  have sent : (start ctx [] sink).writer.write header =
      ((sink.write header).1, .ofSink (sink.write header).2) := rfl
  rw [sent] at first
  cases failed : (sink.write header).1.failure with
  | some failure =>
      simp only [failed] at first
      refine ⟨world, _, [], world.roster.ordered, rfl, .step (here []) first .stop, .refl .., rfl,
        rfl, .inr ⟨rfl, ?_⟩, .inl ⟨?_, ?_⟩⟩
      · simp only [unwind, failed, Option.isSome_some]
      · rw [Sink.deliver_cons_some failed]
        rfl
      · simp only [unwind, failed, Option.isSome_some]
  | none =>
      simp only [failed] at first
      have delivered := Sink.deliver_cons_none failed []
      have accepted : (sink.deliver [header]).1.failure = none := by rw [delivered]; rfl
      have sunk : (sink.deliver [header]).2 = (sink.write header).2 := by
        rw [delivered]
        rfl
      rw [← sunk] at first
      obtain ⟨after, ended, reached, rest, parts, runs, surveyed, done, panic, concludes, tells⟩ :=
        @visits_run world.roster.ordered world
          ⟨ctx, _, .ofSink (sink.deliver [header]).2, ⟨0, none⟩, none⟩ (.ofList selections) sink
          [header] (fun entry => world.block ctx (.ofList selections) entry.2) (List.append_nil _)
          known rfl ready distinct accepted rfl fun _ _ => rfl
      exact ⟨after, ended, reached, rest, parts, .step (here reached) first runs, surveyed, done,
        panic, .inl concludes, .inr ⟨accepted, tells⟩⟩

theorem survey_runs {world : World} {ctx : Context} (selections : List Selection) (sink : Sink)
    (known : ctx.thread.isKnown = true)
    (ready : ∀ entry ∈ world.roster.ordered, Ready ctx.thread world entry)
    (distinct : (world.roster.ordered.map Prod.snd).Nodup) :
    ∃ after ended reached rest, world.roster.ordered = reached ++ rest ∧
      Runs (Roams ctx.thread reached world) world ((Operation.survey selections sink).call ctx)
        after ended ∧
      Surveyed ctx.thread (reached.map Prod.snd) world after ∧
      ended.isDone = true ∧ ended.panic = none ∧
      (ended.Concludes reached rest ∨ reached = [] ∧ ended.receipt.failure.isSome = true) := by
  obtain ⟨after, ended, reached, rest, parts, runs, surveyed, done, panic, concludes, -⟩ :=
    survey_reports selections sink known ready distinct
  exact ⟨after, ended, reached, rest, parts, runs, surveyed, done, panic, concludes⟩

namespace Runs

theorem follow {P : World → Call → Prop} {world last : World} {call ended : Call}
    (runs : Runs P world call last ended) (session : Session) (p : Pending)
    (others : List Pending)
    (sound : Session.Sound { session with world, pending := { p with call } :: others }) :
    ∃ steps, Session.follow { session with world, pending := { p with call } :: others }
      (List.replicate steps (.step call.thread)) =
        some { session with world := last, pending := { p with call := ended } :: others } := by
  induction runs with
  | stop => exact ⟨0, rfl⟩
  | @step world next last call after ended here first more ih =>
      obtain ⟨steps, later⟩ := ih (sound.step (show _ = [] ++ _ from rfl) first)
      have onward := (sound.unseized.proceed? call).trans first
      have moved : Session.move? { session with world, pending := { p with call } :: others }
          (.step call.thread) =
            some { session with world := next, pending := { p with call := after } :: others } := by
        simp only [Session.move?, Session.stepOf, onward, if_true]
      refine ⟨steps + 1, ?_⟩
      rw [step_thread first] at later
      simp only [List.replicate_succ, Session.follow, moved]
      exact later

theorem follow_start {failures : Failures} {P : World → Call → Prop} {session : Session}
    {ctx : Context} {operation : Operation} {last : World} {ended : Call}
    (runs : Runs P session.world (operation.call ctx) last ended)
    (reachable : Session.Reachable failures session) (idle : session.isBusy ctx.thread = false) (tag : Nat) :
    ∃ steps, session.follow (.start ctx tag operation :: List.replicate steps (.step ctx.thread)) =
      some { session with
        world := last
        pending := ⟨tag, session.world.history.length, operation, ended⟩ :: session.pending } := by
  have action : session.move? (.start ctx tag operation) = some { session with
      pending := ⟨tag, session.world.history.length, operation, operation.call ctx⟩ ::
        session.pending } := by
    simp only [Session.move?, idle, Bool.false_eq_true, if_false]
  obtain ⟨steps, followed⟩ := runs.follow session
    ⟨tag, session.world.history.length, operation, ended⟩ session.pending
    (reachable.next rfl action).sound
  rw [Session.operation_call_thread] at followed
  refine ⟨steps, ?_⟩
  simp only [Session.follow, action]
  exact followed

end Runs

end Call

theorem Fits.away_of_absent {t : Thread} {stand : Stand} (fits : Fits t .outside none stand) :
    stand = .away := by
  cases fits
  rfl

namespace Session

open World

theorem Sound.admitted {session : Session} (sound : session.Sound) {t : Thread} {id : LockId}
    (idle : t ∉ threads session.pending)
    (quiet : ∀ u, u ≠ t → (session.world.lock id).gate.writer ≠ some u ∧
      u ∉ (session.world.lock id).gate.waitingWriters) :
    (session.world.lock id).hasHold t = true ∨ (session.world.lock id).Free t := by
  cases record : (session.world.lock id).table.get? t with
  | some hold => exact .inl (by simp only [Lock.hasHold, record, Option.isSome_some])
  | none =>
      have fits := (sound.agrees id).each t
      rw [phaseOf_of_not_mem idle, record] at fits
      have away := Gate.stand_eq_away.mp fits.away_of_absent
      simp only [Gate.people, List.mem_append, Option.mem_toList, not_or] at away
      obtain ⟨-, writer, -, waiting⟩ := away
      refine .inr ⟨record, ?_, ?_, sound.unseized id⟩
      · rw [Option.eq_none_iff_forall_ne_some]
        intro u
        by_cases own : u = t
        · rw [own]
          exact writer
        · exact (quiet u own).1
      · rw [List.eq_nil_iff_forall_not_mem]
        intro u
        by_cases own : u = t
        · rw [own]
          exact waiting
        · exact (quiet u own).2

theorem survey_restores {failures : Failures} {session : Session} {ctx : Context}
    (reachable : Reachable failures session) (known : ctx.thread.isKnown = true)
    (idle : session.isBusy ctx.thread = false)
    (quiet : ∀ entry ∈ session.world.roster.entries, ∀ u, u ≠ ctx.thread →
      (session.world.lock entry.2).gate.writer ≠ some u ∧
        u ∉ (session.world.lock entry.2).gate.waitingWriters)
    (tag : Nat) (selections : List Selection) (sink : Sink) :
    ∃ after ended reached rest, session.world.roster.ordered = reached ++ rest ∧
      (∃ steps, session.follow (.start ctx tag (.survey selections sink) ::
          List.replicate steps (.step ctx.thread)) = some { session with
            world := after
            pending := ⟨tag, session.world.history.length, .survey selections sink, ended⟩ ::
              session.pending }) ∧
      Call.Runs (Call.Roams ctx.thread reached session.world) session.world
        ((Operation.survey selections sink).call ctx) after ended ∧
      ended.isDone = true ∧ ended.panic = none ∧
      (ended.Concludes reached rest ∨ reached = [] ∧ ended.receipt.failure.isSome = true) ∧
      Surveyed ctx.thread (reached.map Prod.snd) session.world after ∧
      ∀ id, (after.lock id).table = (session.world.lock id).table ∧
        (after.lock id).gate = (session.world.lock id).gate := by
  have enrolled := reachable.enrolled
  have away : ctx.thread ∉ threads session.pending := by
    rw [← isBusy_iff, idle]
    exact Bool.false_ne_true
  have ready : ∀ entry ∈ session.world.roster.ordered,
      Call.Ready ctx.thread session.world entry := by
    intro entry member
    rw [Enrolled.mem_ordered] at member
    exact ⟨enrolled.known entry member, enrolled.named entry member,
      reachable.sound.admitted away (quiet entry member)⟩
  obtain ⟨after, ended, reached, rest, parts, runs, surveyed, done, panic, concludes⟩ :=
    Call.survey_runs selections sink known ready enrolled.ids_distinct
  exact ⟨after, ended, reached, rest, parts, runs.follow_start reachable idle tag, runs, done,
    panic, concludes, surveyed, surveyed.same⟩

theorem stepOf_of_done {world : World} {t : Thread} {pending : List Pending}
    (done : ∀ p ∈ pending, p.call.isDone = true) : stepOf world t pending = none := by
  induction pending with
  | nil => rfl
  | cons p more ih =>
      unfold stepOf
      rw [Call.proceed?_of_done (done p (by simp)), ih fun other member => done other (by simp [member])]
      split <;> rfl

theorem follow_steps_unique {session a b : Session} {t : Thread} {m n : Nat}
    (first : session.follow (List.replicate m (.step t)) = some a)
    (second : session.follow (List.replicate n (.step t)) = some b)
    (done : ∀ p ∈ a.pending, p.call.isDone = true)
    (done' : ∀ p ∈ b.pending, p.call.isDone = true) : a = b := by
  induction m generalizing session n with
  | zero =>
      cases first
      cases n with
      | zero => exact Option.some.inj second
      | succ n => simp [List.replicate_succ, follow, move?, stepOf_of_done done] at second
  | succ m ih =>
      cases n with
      | zero =>
          cases second
          simp [List.replicate_succ, follow, move?, stepOf_of_done done'] at first
      | succ n =>
          simp only [List.replicate_succ, follow] at first second
          split at first
          · cases first
          case h_2 next moved =>
            rw [moved] at second
            exact ih first second

theorem follow_start_unique {session a b : Session} {move : Move} {t : Thread} {m n : Nat}
    (first : session.follow (move :: List.replicate m (.step t)) = some a)
    (second : session.follow (move :: List.replicate n (.step t)) = some b)
    (done : ∀ p ∈ a.pending, p.call.isDone = true)
    (done' : ∀ p ∈ b.pending, p.call.isDone = true) : a = b := by
  unfold follow at first second
  split at first
  · cases first
  case h_2 next moved =>
    rw [moved] at second
    exact follow_steps_unique first second done done'

def gathering : List Move :=
  List.flatten [
    .start (.bare 1) 0 (.enter 0 .shared "scan") :: List.replicate 5 (.step ⟨1⟩),
    [.finish ⟨1⟩, .command (.bare 2) (.newLock "queue" .second .standard)],
    .start (.bare 2) 1 (.enter 1 .shared "drain") :: List.replicate 5 (.step ⟨2⟩), [.finish ⟨2⟩],
    [.command (.bare 2) (.newLock "store" .second .standard)]]

def gathered : Session := ((initial .empty).follow gathering).getD (initial .empty)

def brittle : Sink :=
  ⟨fun call _ payload => ⟨payload.length, if call = 6 then some (.plain "full") else none⟩, [], 0⟩

def gatheredSurvey : List Move :=
  .start (.bare 1) 2 (.survey [] brittle) :: List.replicate 17 (.step ⟨1⟩)

/-- The sink fails in the block of the second lock: the first one is held by the caller, the second
was entered for its block, and the third is never come to. -/
theorem gathered_survey_restores :
    Reachable .empty gathered ∧ gathered.isBusy ⟨1⟩ = false ∧
      gathered.world.roster.ordered = [("mutator lock", 0), ("queue", 1), ("store", 2)] ∧
      ∃ after ended, gathered.follow gatheredSurvey = some { gathered with
          world := after
          pending := [⟨2, gathered.world.history.length, .survey [] brittle, ended⟩] } ∧
        ended.isDone = true ∧ ended.panic = none ∧
        ended.receipt.failure = some (.wrap "dump queue" (.plain "full")) ∧
        Surveyed ⟨1⟩ [0, 1] gathered.world after ∧
        (after.lock 1).sharedCount = (gathered.world.lock 1).sharedCount + 1 ∧
        ∀ id, (after.lock id).table = (gathered.world.lock id).table ∧
          (after.lock id).gate = (gathered.world.lock id).gate := by
  have reachable : Reachable .empty gathered :=
    Reachable.initial.follow (by decide) (rfl : (initial .empty).follow gathering = some gathered)
  have idle : gathered.isBusy ⟨1⟩ = false := by decide +kernel
  have ordered : gathered.world.roster.ordered =
      [("mutator lock", 0), ("queue", 1), ("store", 2)] := by
    decide +kernel
  have entries : gathered.world.roster.entries = [("store", 2), ("queue", 1), (mainLockName, 0)] := by
    decide +kernel
  have writers : ∀ id ∈ [2, 1, 0], (gathered.world.lock id).gate.writer = none ∧
      (gathered.world.lock id).gate.waitingWriters = [] := by
    decide +kernel
  have quiet : ∀ entry ∈ gathered.world.roster.entries, ∀ u, u ≠ (Context.bare 1).thread →
      (gathered.world.lock entry.2).gate.writer ≠ some u ∧
        u ∉ (gathered.world.lock entry.2).gate.waitingWriters := by
    intro entry member u different
    have free := writers entry.2 (by rw [entries] at member; revert entry; decide)
    rw [free.1, free.2]
    exact ⟨nofun, List.not_mem_nil⟩
  obtain ⟨after, ended, reached, rest, parts, ⟨steps, followed⟩, -, done, panic, concludes,
    surveyed, same⟩ :=
    survey_restores reachable (by decide : (Context.bare 1).thread.isKnown = true) idle quiet 2 []
      brittle
  have alone : gathered.pending = [] := rfl
  -- The run of the theorem is the one written down above.
  have run : gathered.follow gatheredSurvey = some ((gathered.follow gatheredSurvey).getD gathered) :=
    rfl
  have one := follow_start_unique followed run (by simpa [alone] using done) (by decide +kernel)
  rw [alone] at one followed
  rw [← one] at run
  have failed : ended.receipt.failure = some (.wrap "dump queue" (.plain "full")) := by
    have last := congrArg (fun session : Session =>
      session.pending.head?.bind fun p => p.call.receipt.failure) one
    exact last
  have entered : (after.lock 1).sharedCount = (gathered.world.lock 1).sharedCount + 1 :=
    congrArg (fun session : Session => (session.world.lock 1).sharedCount) one
  have stopped : reached = [("mutator lock", 0), ("queue", 1)] := by
    rw [ordered] at parts
    rcases concludes with concludes | ⟨rfl, -⟩
    · simp only [Call.Concludes, failed] at concludes
      obtain ⟨earlier, entry, cause, rfl, named⟩ := concludes
      rw [List.append_assoc, List.singleton_append] at parts
      rcases earlier with _ | ⟨first, _ | ⟨second, _ | ⟨third, more⟩⟩⟩ <;> simp at parts
      · exact absurd (Failure.wrap.inj named).1 (by rw [← parts.1]; decide)
      · rw [← parts.1, ← parts.2.1]
        rfl
      · exact absurd (Failure.wrap.inj named).1 (by rw [← parts.2.2.1]; decide)
    · rw [surveyed.kept 1 (.inl List.not_mem_nil)] at entered
      exact absurd entered (Nat.succ_ne_self _).symm
  rw [stopped] at surveyed
  exact ⟨reachable, idle, ordered, after, ended, run, done, panic, failed, surveyed, entered, same⟩

end Session

end GuardedDump
