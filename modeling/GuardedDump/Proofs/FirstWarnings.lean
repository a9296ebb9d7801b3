import GuardedDump.Proofs.LogLines
import Mathlib.Data.List.DropRight

namespace GuardedDump

structure Caution where
  thread : Thread
  logger : Logger
  violation : Violation

namespace Caution

def key (caution : Caution) : String :=
  caution.violation.finding.lock ++ "@" ++ caution.violation.finding.caller

def event (caution : Caution) : Event :=
  ⟨caution.thread, .logged caution.logger ("WARNING: lock invariant violated: " ++
    caution.violation.text ++ " (at " ++ caution.violation.finding.caller ++ ")\n")⟩

theorem event_eq (caution : Caution) : caution.event =
    ⟨caution.thread, .logged caution.logger (World.logText (World.warningText caution.violation))⟩ := by
  rw [World.logText_warningText]
  rfl

def firsts (cautions : List Caution) : List Caution :=
  cautions.eraseDupsBy fun a b => a.key == b.key

theorem firsts_cons (first : Caution) (rest : List Caution) :
    firsts (first :: rest) = first :: firsts (rest.filter fun other => other.key != first.key) := by
  unfold firsts
  rw [List.eraseDupsBy_cons]
  congr 2
  apply List.filter_congr
  intro other _
  by_cases same : other.key = first.key <;> simp [same]

theorem firsts_snoc (cautions : List Caution) (caution : Caution) :
    firsts (cautions ++ [caution]) =
      if caution.key ∈ cautions.map key then firsts cautions else firsts cautions ++ [caution] := by
  induction size : cautions.length using Nat.strongRecOn generalizing cautions with
  | ind size ih =>
      cases cautions with
      | nil => simp [firsts, List.eraseDupsBy_cons]
      | cons first rest =>
          subst size
          have fewer : (rest.filter fun other => other.key != first.key).length <
              (first :: rest).length := Nat.lt_succ_of_le (List.length_filter_le ..)
          have later := ih _ fewer (rest.filter fun other => other.key != first.key) rfl
          rw [List.cons_append, firsts_cons, firsts_cons, List.filter_append]
          by_cases same : caution.key = first.key
          · simp [same]
          · have kept : ([caution].filter fun other => other.key != first.key) = [caution] := by
              simp [same]
            have seen : caution.key ∈ (rest.filter fun other => other.key != first.key).map key ↔
                caution.key ∈ (first :: rest).map key := by
              simp only [List.mem_map, List.mem_filter, List.map_cons, List.mem_cons, same,
                false_or]
              constructor
              · rintro ⟨other, ⟨member, -⟩, equal⟩
                exact ⟨other, member, equal⟩
              · rintro ⟨other, member, equal⟩
                exact ⟨other, ⟨member, by simpa [equal] using same⟩, equal⟩
            rw [kept, later]
            simp only [seen]
            split <;> rfl

end Caution

def Event.isWarning (event : Event) : Bool :=
  match event.happening with
  | .logged _ text => Text.startsWith text "WARNING: lock invariant violated: "
  | _ => false

theorem Event.isWarning_of_isRemark {event : Event} (remark : event.isRemark = true) :
    event.isWarning = false := by
  obtain ⟨t, happening⟩ := event
  cases happening with
  | logged logger text =>
      exact Text.startsWith_other (c := '[') (d := 'W') (by simp) (by simp) (by decide) remark
  | delivered | exited => cases remark

theorem Caution.event_isWarning (caution : Caution) : caution.event.isWarning = true := by
  rw [caution.event_eq]
  exact World.logText_starts (World.warningText_starts caution.violation)

namespace World

variable {world : World} {cautions : List Caution} {lines : List Event}

def caution? (world : World) (notice : Notice) : Option Caution :=
  if notice.destination = .warning then
    some ⟨notice.ctx.thread, world.hooks.logger.getD .standard, notice.violation⟩
  else none

/-- What the world remembers of the cautions, and the part of the log that they left. -/
structure Heeds (world : World) (cautions : List Caution) (lines : List Event) : Prop where
  keys : ∀ key, key ∈ world.warned ↔ key ∈ cautions.map Caution.key
  lines : lines.filter Event.isWarning = (Caution.firsts cautions).map Caution.event

theorem Heeds.add {after : World} (heeds : world.Heeds cautions lines) {more : List Event}
    (warned : after.warned = world.warned) (other : ∀ event ∈ more, event.isWarning = false) :
    after.Heeds cautions (lines ++ more) := by
  have none : more.filter Event.isWarning = [] := by
    rw [List.filter_eq_nil_iff]
    intro event member
    rw [other event member]
    exact Bool.false_ne_true
  refine ⟨?_, ?_⟩
  · rw [warned]
    exact heeds.keys
  · rw [List.filter_append, none, List.append_nil, heeds.lines]

theorem Heeds.warn (heeds : world.Heeds cautions lines) (caution : Caution)
    (logger : caution.logger = world.hooks.diagnostics) :
    ∃ more, (world.warn caution.thread caution.key (warningText caution.violation)).2.history =
        world.history ++ more ∧
      (world.warn caution.thread caution.key (warningText caution.violation)).2.Heeds
        (cautions ++ [caution]) (lines ++ more) := by
  have seen := heeds.keys caution.key
  unfold World.warn
  split
  case isTrue known =>
    rw [List.contains_iff_mem, seen] at known
    refine ⟨[], (List.append_nil _).symm, ?_, ?_⟩
    · intro key
      rw [heeds.keys, List.map_append, List.mem_append]
      refine ⟨.inl, ?_⟩
      rintro (before | now)
      · exact before
      · rw [List.mem_singleton.mp now]
        exact known
    · rw [List.append_nil, Caution.firsts_snoc, if_pos known, heeds.lines]
  case isFalse fresh =>
    rw [List.contains_iff_mem, seen] at fresh
    refine ⟨[caution.event], ?_, ?_, ?_⟩
    · simp [log, emit, caution.event_eq, logger]
    · intro key
      simp only [log, emit, List.mem_cons, heeds.keys, List.map_append, List.mem_append,
        List.map_cons, List.map_nil, List.not_mem_nil, or_false]
      exact or_comm
    · rw [List.filter_append, heeds.lines, Caution.firsts_snoc, if_neg fresh, List.map_append]
      simp [caution.event_isWarning]

theorem Heeds.take (heeds : world.Heeds cautions lines) (notice : Notice) :
    ∃ more, (world.take notice).history = world.history ++ more ∧
      (world.take notice).Heeds (cautions ++ (world.caution? notice).toList) (lines ++ more) := by
  cases chosen : notice.destination with
  | warning =>
      simp only [World.take, caution?, chosen, if_true, Option.toList_some]
      exact heeds.warn ⟨notice.ctx.thread, world.hooks.diagnostics, notice.violation⟩ rfl
  | handler handler =>
      simp only [World.take, caution?, chosen, reduceCtorEq, if_false, Option.toList_none,
        List.append_nil]
      refine ⟨_, rfl, heeds.add rfl ?_⟩
      intro event member
      rw [List.mem_singleton.mp member]
      rfl
  | exit =>
      simp only [World.take, caution?, chosen, reduceCtorEq, if_false, Option.toList_none,
        List.append_nil]
      refine ⟨_, List.append_assoc .., heeds.add rfl ?_⟩
      intro event member
      rcases List.mem_pair.mp member with rfl | rfl
      · have starts := logText_starts (fatalText_starts notice.violation notice.ctx.trace)
        exact Text.startsWith_other (c := 'F') (d := 'W') (by simp) (by simp) (by decide) starts
      · rfl

theorem Heeds.takeAll (heeds : world.Heeds cautions lines) (notices : List Notice) :
    ∃ more, (notices.foldl World.take world).history = world.history ++ more ∧
      (notices.foldl World.take world).Heeds (cautions ++ notices.filterMap world.caution?)
        (lines ++ more) := by
  induction notices generalizing world cautions lines with
  | nil => exact ⟨[], (List.append_nil _).symm, by simpa using heeds⟩
  | cons notice rest ih =>
      obtain ⟨first, history, taken⟩ := heeds.take notice
      obtain ⟨later, history', all⟩ := ih taken
      have same : (world.take notice).caution? = world.caution? := by
        funext other
        unfold caution?
        rw [hooks_take]
      have parts : cautions ++ (notice :: rest).filterMap world.caution? =
          cautions ++ (world.caution? notice).toList ++ rest.filterMap world.caution? := by
        cases made : world.caution? notice <;> simp [made]
      rw [same] at all
      refine ⟨first ++ later, ?_, ?_⟩
      · rw [List.foldl_cons, history', history, List.append_assoc]
      · rw [List.foldl_cons, ← List.append_assoc, parts]
        exact all

end World

namespace Session

variable {failures : Failures} {past : List (Session × Move)} {session after : Session}
  {move : Move}

def cautions (moment : Session × Move) : List Caution :=
  ((moment.1.notices? moment.2).getD []).filterMap moment.1.world.caution?

def sinceReset (past : List (Session × Move)) : List (Session × Move) :=
  past.rtakeWhile fun moment => !moment.2.forgets

theorem move?_heeds {earlier : List Caution} {lines : List Event}
    (heeds : session.world.Heeds earlier lines) (action : session.move? move = some after)
    (indirect : move.warns = false) (keeps : move.forgets = false) :
    after.world.history = session.world.history ++ adds (session, move) ∧
      after.world.Heeds (earlier ++ cautions (session, move)) (lines ++ adds (session, move)) := by
  cases found : session.notices? move with
  | none =>
      obtain ⟨history, warned⟩ := move?_line action found
      rw [keeps] at warned
      rw [adds_eq action history]
      refine ⟨history, ?_⟩
      simp only [cautions, found, Option.getD_none, List.filterMap_nil, List.append_nil]
      apply heeds.add (warned indirect)
      intro event member
      exact Event.isWarning_of_isRemark (line?_isRemark indirect (Option.mem_toList.mp member))
  | some notices =>
      have told := move?_tells action
      rw [found] at told
      obtain ⟨more, history, taken⟩ := heeds.takeAll notices
      rw [← told.history] at history
      rw [adds_eq action history]
      refine ⟨history, ?_⟩
      simp only [cautions, found, Option.getD_some]
      exact ⟨by rw [told.warned]; exact taken.keys, taken.lines⟩

structure Cautioned (past : List (Session × Move)) (session : Session) : Prop where
  history : session.world.history = past.flatMap adds
  keys : ∀ key, key ∈ session.world.warned ↔
    key ∈ ((sinceReset past).flatMap cautions).map Caution.key
  lines : ((sinceReset past).flatMap adds).filter Event.isWarning =
    (Caution.firsts ((sinceReset past).flatMap cautions)).map Caution.event

theorem warnings_are_firsts (run : Run failures past session)
    (indirect : ∀ moment ∈ past, moment.2.warns = false) : Cautioned past session := by
  induction run with
  | initial => exact ⟨rfl, fun _ => Iff.rfl, rfl⟩
  | @next past session after move previous allowed action ih =>
      obtain ⟨whole, keys, lines⟩ := ih fun moment member => indirect moment (by simp [member])
      have own := indirect (session, move) (by simp)
      cases forgets : move.forgets with
      | false =>
          have kept : sinceReset (past ++ [(session, move)]) =
              sinceReset past ++ [(session, move)] :=
            List.rtakeWhile_concat_pos _ _ _ (by simp [forgets])
          obtain ⟨history, heeded⟩ := move?_heeds ⟨keys, lines⟩ action own forgets
          refine ⟨?_, ?_, ?_⟩
          · rw [history, whole, List.flatMap_append, List.flatMap_singleton]
          · rw [kept, List.flatMap_append, List.flatMap_singleton]
            exact heeded.keys
          · rw [kept, List.flatMap_append, List.flatMap_append, List.flatMap_singleton,
              List.flatMap_singleton]
            exact heeded.lines
      | true =>
          -- After a reset nothing counts any more.
          have cleared : sinceReset (past ++ [(session, move)]) = [] :=
            List.rtakeWhile_concat_neg _ _ _ (by simp [forgets])
          have quiet : session.notices? move = none := by
            unfold Move.forgets at forgets
            split at forgets <;> cases forgets
            rfl
          obtain ⟨history, warned⟩ := move?_line action quiet
          rw [if_pos forgets] at warned
          refine ⟨?_, ?_, ?_⟩
          · rw [List.flatMap_append, List.flatMap_singleton, adds_eq action history, ← whole, history]
          · intro key
            rw [warned own, cleared]
            rfl
          · rw [cleared]
            rfl

def scanner : Context := ⟨⟨2⟩, [⟨"main.scan", "/app/scan.go", 7⟩], ""⟩

/-- Under the warning response two threads violate the main lock in the same place, one of them also
in another. Then a violation of a second lock goes to a handler, and one with the same key to the
log. -/
def relapse : List Move := [
  .command (.bare 1) (.setResponse .warn),
  .command (.bare 1) (.newLock "cache" .second .standard),
  .command (.bare 1) (.insist 0 ⟨1⟩ .shared),
  .command (.bare 1) (.setLogger (some ⟨"audit"⟩)),
  .command (.bare 2) (.insist 0 ⟨2⟩ .exclusive),
  .command scanner (.insist 0 ⟨2⟩ .shared),
  .command (.bare 1) (.restore 0),
  .command (.bare 1) (.setHandler (some ⟨"process", none⟩)),
  .command (.bare 3) (.insist 1 ⟨3⟩ .shared),
  .command (.bare 1) (.setResponse .warn),
  .start (.bare 4) 0 (.write { checker := .lock 1 } .done .unlimited), .step ⟨4⟩]

def relapsed : Session := ((initial .empty).follow relapse).getD (initial .empty)

def amnesia : List Move :=
  relapse ++ [.command (.bare 1) .forgetWarnings, .command (.bare 1) (.insist 0 ⟨1⟩ .shared)]

def amnesiac : Session := ((initial .empty).follow amnesia).getD (initial .empty)

theorem relapse_warnings_are_firsts :
    Cautioned ((initial .empty).moments relapse) relapsed ∧
      Cautioned ((initial .empty).moments amnesia) amnesiac ∧
      ((sinceReset ((initial .empty).moments relapse)).flatMap cautions).length = 4 ∧
      (Caution.firsts ((sinceReset ((initial .empty).moments relapse)).flatMap cautions)).map
          (fun caution => (caution.thread, caution.logger, caution.key)) =
        [(⟨1⟩, .standard, "mutator lock@unknown"), (⟨2⟩, ⟨"audit"⟩, "mutator lock@/app/scan.go:7"),
          (⟨4⟩, ⟨"audit"⟩, "cache@unknown")] ∧
      (Caution.firsts ((sinceReset ((initial .empty).moments amnesia)).flatMap cautions)).map
          (fun caution => (caution.thread, caution.logger, caution.key)) =
        [(⟨1⟩, ⟨"audit"⟩, "mutator lock@unknown")] := by
  have first : Run .empty ((initial .empty).moments relapse) relapsed :=
    Run.initial.follow (by decide) (rfl : (initial .empty).follow relapse = some relapsed)
  have second : Run .empty ((initial .empty).moments amnesia) amnesiac :=
    Run.initial.follow (by decide) (rfl : (initial .empty).follow amnesia = some amnesiac)
  refine ⟨warnings_are_firsts first ?_, warnings_are_firsts second ?_, ?_, ?_, ?_⟩ <;> decide +kernel

end Session

end GuardedDump
