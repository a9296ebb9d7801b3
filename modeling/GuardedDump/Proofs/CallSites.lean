import GuardedDump.Proofs.NearestFrames
import GuardedDump.Proofs.Routing

/-!
# The call site of a violation

A violation names the nearest application frame of the check that found it, if a lock was asked, or
if there is no violation in the error of a rule. A violation that a rule hands out without a site
gets one from the first check that it is handed to, alone or inside another error, and names that
one ever after (`Session.violation_names_first_site`), also when the next check is elsewhere
(`Session.later_site_is_not_named`).
-/

namespace GuardedDump

namespace Frame

theorem collect_one (frames : List Frame) :
    collect 1 frames = (frames.find? isApplication).toList := by
  rw [collect_eq, List.take_one, List.head?_filter]

theorem callSite_eq (stack : List Frame) :
    callSite stack = (((stack.take window).find? isApplication).map place).getD nowhere := by
  unfold callSite nearest
  rw [show Int.toNat 1 = 1 from rfl, collect_one]
  cases (stack.take window).find? isApplication <;> rfl

theorem callSite_ne_empty (stack : List Frame) : callSite stack ≠ "" := by
  rw [callSite_eq]
  cases (stack.take window).find? isApplication with
  | none => decide
  | some frame =>
      intro empty
      have letters := congrArg String.toList empty
      simp [place] at letters

end Frame

theorem Finding.locate_eq (finding : Finding) (site : String) :
    finding.locate site =
      { finding with caller := if finding.caller = "" then site else finding.caller } := by
  unfold Finding.locate
  by_cases blank : finding.caller = "" <;> simp [blank, String.isEmpty_iff]

theorem Breach.locate_locate {site : String} (placed : site ≠ "") (other : String)
    (breach : Breach) : (breach.locate site).locate other = breach.locate site := by
  simp only [locate, Finding.locate_eq]
  by_cases blank : breach.finding.caller = "" <;> simp [blank, placed]

namespace Failures

variable {failures : Failures} {address : Address}

theorem origin?_hand (failures : Failures) (id : FailureId) (self : Thread) (site : String) :
    (failures.hand id self site).2.origin? = failures.origin? := by
  funext other
  simp only [origin?, handed_hand]

theorem getElem?_hand (old : address < failures.breaches.length) (id : FailureId) (self : Thread)
    (site : String) : (failures.hand id self site).2.breaches[address]? =
      if failures.origin? id = some address then
        failures.breaches[address]?.map (Breach.locate site)
      else failures.breaches[address]? := by
  have leads := failures.origin?_eq id
  unfold hand
  cases found : failures.complaint? id with
  | none =>
      rw [found] at leads
      rw [leads, Option.bind_none, if_neg (Option.some_ne_none address).symm]
  | some complaint =>
      rw [found, Option.bind_some] at leads
      simp only [toViolation]
      split
      case h_1 origin first =>
        rw [leads.trans first]
        simp only [locate, List.getElem?_modify, Option.some.injEq]
        split
        · rfl
        · exact Option.map_id'
      case h_2 first =>
        rw [leads.trans first, if_neg (Option.some_ne_none address).symm]
        exact List.getElem?_append_left old

theorem length_hand (failures : Failures) (id : FailureId) (self : Thread) (site : String) :
    failures.breaches.length ≤ (failures.hand id self site).2.breaches.length := by
  unfold hand
  cases failures.complaint? id with
  | none => exact Nat.le_refl _
  | some complaint =>
      simp only [toViolation]
      split
      · exact Nat.le_of_eq (List.length_modify ..).symm
      · simp [add]

end Failures

def Failures.callerAt (failures : Failures) (address : Address) : String :=
  (failures.breaches[address]?.map fun breach => breach.finding.caller).getD ""

namespace Handout

def sites (failures : Failures) (address : Address) (handouts : List Handout) : List String :=
  (handouts.filter fun handout => failures.origin? handout.id = some address).map site

theorem getElem?_written (handouts : List Handout) {failures : Failures} {address : Address}
    (old : address < failures.breaches.length) :
    (handouts.foldl write failures).breaches[address]? =
      failures.breaches[address]?.map fun breach =>
        match (sites failures address handouts).head? with
        | none => breach
        | some site => breach.locate site := by
  induction handouts generalizing failures with
  | nil => simp [sites]
  | cons handout rest ih =>
      have longer := failures.length_hand handout.id handout.self handout.site
      have same : sites (handout.write failures) address rest = sites failures address rest := by
        simp only [sites, write, Failures.origin?_hand]
      have later := @ih (handout.write failures) (Nat.lt_of_lt_of_le old longer)
      rw [List.foldl_cons, later, same, write, Failures.getElem?_hand old]
      by_cases own : failures.origin? handout.id = some address
      · have first : sites failures address (handout :: rest) =
            handout.site :: sites failures address rest := by
          simp [sites, own]
        have placed : handout.site ≠ "" := Frame.callSite_ne_empty _
        simp only [first, own, if_true, List.head?_cons, Option.map_map]
        congr 1
        funext breach
        cases (sites failures address rest).head? with
        | none => rfl
        | some later => exact breach.locate_locate placed later
      · have others : sites failures address (handout :: rest) = sites failures address rest := by
          simp [sites, own]
        simp only [others, own, if_false]

theorem callerAt_written (handouts : List Handout) {failures : Failures} {address : Address}
    (old : address < failures.breaches.length) :
    (handouts.foldl write failures).callerAt address =
      if failures.callerAt address = "" then (sites failures address handouts).headD ""
      else failures.callerAt address := by
  simp only [Failures.callerAt, getElem?_written handouts old, List.getElem?_eq_getElem old,
    Option.map_some, Option.getD_some, List.headD_eq_head?_getD]
  cases (sites failures address handouts).head? with
  | none => simp
  | some site => simp [Breach.locate, Finding.locate_eq]

end Handout

/-- The call site in the violation of a check at `site`, after these handouts of what were
`failures` at the start: its own, unless the error leads to a violation that has a site already. -/
def Failures.namedSite (failures : Failures) (handouts : List Handout) (handout? : Option Handout)
    (site : String) : String :=
  match handout?.bind fun handout => failures.origin? handout.id with
  | none => site
  | some address =>
    if failures.callerAt address = "" then (Handout.sites failures address handouts).headD site
    else failures.callerAt address

section Checks

variable {failures : Failures} {handouts : List Handout} {world : World} {ctx : Context}
  {p : Precondition}

theorem World.origin?_of_written (kept : world.failures = handouts.foldl Handout.write failures)
    (id : FailureId) : world.failures.origin? id = failures.origin? id := by
  rw [kept]
  clear kept
  induction handouts generalizing failures with
  | nil => rfl
  | cons handout rest ih => rw [List.foldl_cons, ih, Handout.write, Failures.origin?_hand]

theorem World.charge_named (kept : world.failures = handouts.foldl Handout.write failures)
    {failure : Failure} (objects : world.objection ctx p = some failure) :
    (charge ctx p failure).finding.caller =
      failures.namedSite handouts (p.handout? ctx) ctx.callSite := by
  unfold objection at objects
  unfold Failures.namedSite Precondition.handout? charge Failure.toViolation
  cases checker : p.checker with
  | lock id =>
      simp only [checker, Option.map_eq_some_iff] at objects
      obtain ⟨v, found, rfl⟩ := objects
      have own := Lock.check_caller found
      simp only [Violation.toFailure, Failure.first?]
      rw [Violation.locate_of_located own, own]
      rfl
  | rule verdict =>
      simp only [checker, Option.bind_eq_some_iff] at objects
      obtain ⟨id, answer, told⟩ := objects
      simp only [answer, Option.map_some, Option.bind_some]
      rw [Failures.first?_of_failure? told, origin?_of_written kept]
      cases origin : failures.origin? id with
      | none => rfl
      | some address =>
          obtain ⟨complaint, handed, leads⟩ := Option.bind_eq_some_iff.mp origin
          have old := failures.known complaint (List.mem_of_getElem? handed) address
            (List.mem_of_head? leads)
          obtain ⟨breach, there⟩ : ∃ breach, world.failures.breaches[address]? = some breach := by
            rw [kept, Handout.getElem?_written handouts old, List.getElem?_eq_getElem old]
            exact ⟨_, rfl⟩
          have caller := Handout.callerAt_written handouts old
          rw [← kept, Failures.callerAt, there, Option.map_some, Option.getD_some] at caller
          simp only [Option.bind_some, Failures.violation?_eq, there, Option.map_some, Breach.read,
            Violation.locate, Finding.locate_eq, caller]
          by_cases blank : failures.callerAt address = ""
          · cases first : Handout.sites failures address handouts with
            | nil => simp [blank]
            | cons site more =>
                obtain ⟨handout, -, rfl⟩ := List.mem_map.mp (first ▸ List.mem_cons_self)
                have placed : handout.site ≠ "" := Frame.callSite_ne_empty _
                simp [blank, placed]
          · simp [blank]

def Failures.Names (failures : Failures) : List Handout → List Check → Prop
  | _, [] => True
  | before, check :: more =>
    check.notice.violation.finding.caller =
      failures.namedSite before check.handout? check.notice.ctx.callSite ∧
    failures.Names (before ++ check.handout?.toList) more

theorem Failures.names_append {first second : List Check} :
    failures.Names handouts (first ++ second) ↔ failures.Names handouts first ∧
      failures.Names (handouts ++ first.filterMap Check.handout?) second := by
  induction first generalizing handouts with
  | nil => simp [Names]
  | cons check more ih =>
      have parts : handouts ++ check.handout?.toList ++ more.filterMap Check.handout? =
          handouts ++ (check :: more).filterMap Check.handout? := by
        cases found : check.handout? <;> simp [found]
      simp only [List.cons_append, Names, ih, parts, and_assoc]

namespace World

theorem accountOf_names (kept : world.failures = handouts.foldl Handout.write failures)
    {inner : World → Account} (within : failures.Names handouts (inner world).checks) :
    failures.Names handouts (world.accountOf ctx p inner).checks := by
  unfold accountOf
  cases found : world.notice? ctx p with
  | none => exact within
  | some notice =>
      obtain ⟨failure, objects, rfl⟩ := Option.map_eq_some_iff.mp found
      exact ⟨charge_named kept objects, trivial⟩

theorem account_names (value : Value) (ctx : Context)
    (kept : world.failures = handouts.foldl Handout.write failures) :
    failures.Names handouts (value.account ctx world).checks := by
  induction value generalizing ctx world handouts with
  | done | raise => trivial
  | bytes part rest ih => exact ih ctx kept
  | listing lock selection rest ih => exact ih ctx kept
  | guarded way p inner rest within behind =>
      have first : failures.Names handouts (world.accountOf (ctx.inside way) p
          (inner.account (ctx.inside way))).checks :=
        accountOf_names kept (within (ctx.inside way) kept)
      simp only [Value.account, Account.andThen]
      split
      · refine Failures.names_append.mpr ⟨first, behind ctx ?_⟩
        rw [failures_after, kept, List.foldl_append]
        rfl
      · exact first

end World

end Checks

def Move.accuses : Move → Bool
  | .command _ (.report ..) => true
  | .command _ (.abort _) => true
  | _ => false

namespace Session

variable {failures : Failures} {past : List (Session × Move)} {session after : Session}
  {move : Move}

def handouts (moment : Session × Move) : List Handout :=
  ((moment.1.account? moment.2).map Account.handouts).getD []

theorem Run.failures_eq (run : Run failures past session) :
    session.world.failures = (past.flatMap handouts).foldl Handout.write failures := by
  induction run with
  | initial => rfl
  | @next past session after move previous allowed action ih =>
      have yields := move?_yields action
      rw [List.flatMap_append, List.flatMap_singleton, List.foldl_append, ← ih, handouts]
      cases made : session.account? move with
      | none =>
          rw [made] at yields
          exact yields.1
      | some account =>
          rw [made] at yields
          rw [show after.world = session.world.after account from yields]
          exact World.failures_after ..

structure Blames (failures : Failures) (handouts : List Handout) (world : World) (ctx : Context)
    (p : Precondition) (v : Violation) : Prop where
  reported : world.notice? ctx p = some (world.notice ctx v p.handler)
  returned : world.Returns p.handler → ∀ value sink, ∃ after,
    ((Operation.write p value sink).call ctx).step world =
      some (after, ⟨ctx, [], .ofSink sink, ⟨0, some v.toFailure⟩, none⟩)
  settled : world.Returns p.handler → ∀ (call : Call) (role : Role) (value : Value),
    call.ctx.inside role.way = ctx → ∃ after, (call.next (.demand role p value)).step world =
      some (after, call.settle role ⟨0, some v.toFailure⟩)
  caller : v.finding.caller = failures.namedSite handouts (p.handout? ctx) ctx.callSite
  own : ctx.callSite =
    (((ctx.stack.take 32).find? Frame.isApplication).map Frame.place).getD "unknown"

theorem blames {world : World} {ctx : Context} {p : Precondition} {failure : Failure}
    {handouts : List Handout} (kept : world.failures = handouts.foldl Handout.write failures)
    (objects : world.objection ctx p = some failure) :
    Blames failures handouts world ctx p (World.charge ctx p failure) where
  reported := by
    unfold World.notice?
    rw [objects]
    rfl
  returned returns value sink := by
    have refused := World.demand_of_objection objects returns
    refine ⟨world.accuse ctx p failure, ?_⟩
    simp only [Operation.call, Call.start, Call.step, Call.stepDemand, Role.way_result,
      Context.inside_direct, refused]
    rfl
  settled returns call role value place := by
    have refused := World.demand_of_objection objects returns
    refine ⟨world.accuse ctx p failure, ?_⟩
    simp only [Call.next, Call.step, Call.stepDemand, place, refused]
  caller := World.charge_named kept objects
  own := Frame.callSite_eq _

theorem account?_names {session : Session} {handouts : List Handout}
    (kept : session.world.failures = handouts.foldl Handout.write failures) {account : Account}
    (found : session.account? move = some account) (asked : move.accuses = false) :
    failures.Names handouts account.checks := by
  cases move with
  | start | finish | advance => cases found
  | step t =>
      obtain ⟨call, -, checks⟩ := Option.bind_eq_some_iff.mp found
      unfold Call.account? at checks
      split at checks <;> cases checks
      exact World.accountOf_names kept trivial
  | command ctx command =>
      cases command with
      | report | abort => cases asked
      | isHeld | check =>
          cases found
          trivial
      | insist id thread required =>
          cases found
          cases violated : (session.world.lock id).check thread required ctx.callSite with
          | none => trivial
          | some v => exact ⟨Lock.check_caller violated, trivial⟩
      | writeUnguarded value sink =>
          cases found
          exact World.account_names value ctx kept
      | writeBetween p value lead tail sink =>
          cases found
          exact World.accountOf_names kept (World.account_names value ctx kept)
      | render p value | format p value =>
          cases found
          cases p with
          | none => exact World.account_names value ctx kept
          | some p => exact World.accountOf_names kept (World.account_names value ctx kept)
      | _ => cases found

/-- The call sites in the violations that checks find, after these handouts of what were `failures`
at the start. -/
structure Named (failures : Failures) (handouts : List Handout) (session : Session) : Prop where
  refused : ∀ ctx p failure, session.world.objection ctx p = some failure →
    Blames failures handouts session.world ctx p (World.charge ctx p failure)
  checks : ∀ move account, session.account? move = some account → move.accuses = false →
    failures.Names handouts account.checks

theorem violation_names_first_site (run : Run failures past session) :
    Named failures (past.flatMap handouts) session :=
  ⟨fun _ _ _ => blames run.failures_eq, fun _ _ => account?_names run.failures_eq⟩

/-- One violation without a call site, which is handed out alone and inside another error. -/
def unplaced : Failures :=
  Failures.empty
    |>.add ⟨"heap", ⟨9⟩, .shared, false, .shared, ""⟩ none
    |>.offer ⟨.violation 0, by decide⟩
    |>.offer ⟨.wrap "guard" (.join [.plain "stale", .violation 0]), by decide⟩
    |>.offer ⟨.plain "stale", by decide⟩

def heapGuard (id : FailureId) : Precondition where
  checker := .rule fun _ => some id
  handler := some ⟨"probe", none⟩

def ledger : Value :=
  let way : Way := ⟨[⟨"main.Ledger.Dump", "/app/dump.go", 40⟩], id⟩
  .guarded way (heapGuard 1) .done (.guarded way (heapGuard 2) .done .done)

def callerAt (number : UInt64) (file : String) (line : Nat) : Context :=
  ⟨⟨number⟩, [⟨"runtime.goexit", "/go/asm.s", 1⟩, ⟨"main.use", file, line⟩], ""⟩

def borrowing : List Move := [
  .start (callerAt 1 "/app/a.go" 11) 0 (.write (heapGuard 0) .done .unlimited), .step ⟨1⟩,
  .finish ⟨1⟩]

def borrowed : Session := ((initial unplaced).follow borrowing).getD (initial unplaced)

theorem borrowed_run : Run unplaced ((initial unplaced).moments borrowing) borrowed :=
  Run.initial.follow (by decide) (rfl : (initial unplaced).follow borrowing = some borrowed)

theorem borrowed_names_first_site :
    let render : Move := .command (callerAt 3 "/app/a.go" 17) (.render none ledger)
    let handouts := ((initial unplaced).moments borrowing).flatMap handouts
    Named unplaced handouts borrowed ∧
      ∃ account, borrowed.account? render = some account ∧ unplaced.Names handouts account.checks ∧
        account.notices.map (fun notice => notice.violation.finding.caller) =
          ["/app/a.go:11", "/app/dump.go:40"] := by
  intro render handouts
  have named := violation_names_first_site borrowed_run
  exact ⟨named, _, rfl, named.checks render _ rfl rfl, by decide +kernel⟩

/-- Thread 2 makes its first call from a place of its own, and the violation names thread 1's. -/
theorem later_site_is_not_named :
    Run unplaced ((initial unplaced).moments borrowing) borrowed ∧
      (∀ breach ∈ unplaced.breaches, breach.finding.caller = "") ∧
      (borrowed.world.notice? (callerAt 2 "/app/sub/b.go" 21) (heapGuard 1)).map
        (fun notice => notice.violation.finding.caller) = some "/app/a.go:11" ∧
      (callerAt 2 "/app/sub/b.go" 21).callSite = "/app/sub/b.go:21" := by
  refine ⟨borrowed_run, ?_, ?_, ?_⟩ <;> decide +kernel

end Session

end GuardedDump
