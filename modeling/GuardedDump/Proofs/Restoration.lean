import GuardedDump.Proofs.Part

/-!
# Setting hooks and putting them back

A setter of a hook opens a bracket, and the call of what it gave back closes it. Where the brackets
of each hook are nested, however those of the two hooks overlap and whatever else happens in between,
both hooks end as they began (`Session.set_and_restore_cancel`). The invariant is that closing the
brackets that are open, the innermost first, leads back to the beginning.
-/

namespace GuardedDump

inductive Hook where
  | handler
  | response
  deriving DecidableEq

def Restore.hook : Restore → Hook
  | handler _ => .handler
  | response _ => .response

namespace Hooks

def token (hooks : Hooks) : Hook → Restore
  | .handler => .handler hooks.handler
  | .response => .response hooks.response

theorem token_restore_self (hooks : Hooks) (token : Restore) :
    (hooks.restore token).token token.hook = token := by
  cases token <;> rfl

theorem token_restore_of_ne (hooks : Hooks) {token : Restore} {hook : Hook}
    (other : token.hook ≠ hook) : (hooks.restore token).token hook = hooks.token hook := by
  cases token <;> cases hook <;> first | rfl | exact absurd rfl other

end Hooks

inductive Bracket where
  | opens (index : Nat)
  | closes (index : Nat)

namespace Bracket

/-- Every bracket is closed once, by its own token, after all that were opened inside it. -/
inductive Nested : List Bracket → Prop where
  | nil : Nested []
  | pair (index : Nat) {inner rest : List Bracket} (inside : Nested inner) (behind : Nested rest) :
      Nested (opens index :: inner ++ closes index :: rest)

/-- The brackets close all of `stack` and all that they open, innermost first. -/
def Closes : List Nat → List Bracket → Prop
  | stack, [] => stack = []
  | stack, opens index :: more => Closes (index :: stack) more
  | [], closes _ :: _ => False
  | top :: stack, closes index :: more => index = top ∧ Closes stack more

theorem Nested.closes_append {brackets : List Bracket} (nested : Nested brackets)
    {stack : List Nat} {more : List Bracket} (later : Closes stack more) :
    Closes stack (brackets ++ more) := by
  induction nested generalizing stack more with
  | nil => exact later
  | @pair index inner rest _ _ insideCloses behindCloses =>
      have outer : Closes (index :: stack) (closes index :: (rest ++ more)) :=
        ⟨rfl, behindCloses later⟩
      have all := insideCloses outer
      simpa only [List.cons_append, List.append_assoc, Closes] using all

theorem Nested.closes {brackets : List Bracket} (nested : Nested brackets) : Closes [] brackets := by
  have done : Closes [] [] := rfl
  have all := nested.closes_append done
  rwa [List.append_nil] at all

end Bracket

def Restore.Recovers (start : Restore) (restores : List Restore) : List Nat → Restore → Prop
  | [], current => current = start
  | index :: outer, _ => ∃ earlier, restores[index]? = some earlier ∧ Recovers start restores outer earlier

theorem Restore.Recovers.grow {start : Restore} {restores later : List Restore}
    (grows : restores <+: later) {stack : List Nat} {current : Restore}
    (recovers : Recovers start restores stack current) : Recovers start later stack current := by
  induction stack generalizing current with
  | nil => exact recovers
  | cons index outer ih =>
      obtain ⟨earlier, found, rest⟩ := recovers
      obtain ⟨added, rfl⟩ := grows
      have within : index < restores.length := (List.getElem?_eq_some_iff.mp found).1
      exact ⟨earlier, by rw [List.getElem?_append_left within, found], ih rest⟩

def Move.configures : Move → Bool
  | .command _ (.apply ..) => true
  | .command _ (.readAndApply ..) => true
  | _ => false

theorem Call.step_hooks {world world' : World} {call call' : Call}
    (step : call.step world = some (world', call')) : world'.hooks = world.hooks := by
  unfold Call.step at step
  split at step
  · cases step
  case h_2 task rest tasks =>
    cases task with
    | enter lock access purpose point => exact (stepEnter_touches step).hooks
    | leave lock access point => exact (stepLeave_touches step).hooks
    | close lock =>
        simp only [stepClose, Option.some.injEq] at step
        split at step <;> cases step <;> rfl
    | retire lock =>
        cases step
        rfl
    | survey selection =>
        simp only [stepSurvey, Option.some.injEq] at step
        split at step <;> cases step <;> rfl
    | visit lock selection =>
        simp only [stepVisit, Option.some.injEq] at step
        split at step <;> cases step <;> rfl
    | demand role p value =>
        have unmoved := stepDemand_unmoved world { call with tasks := rest } role p value
        rw [Option.some.inj step] at unmoved
        exact unmoved.hooks
    | dump role p value =>
        have same := stepDump_world world { call with tasks := rest } role p value
        rw [Option.some.inj step] at same
        exact congrArg World.hooks same

namespace Session

def bracket? (hook : Hook) (moment : Session × Move) : Option Bracket :=
  match moment.2 with
  | .command _ (.setHandler _) =>
    if hook = .handler then some (.opens moment.1.restores.length) else none
  | .command _ (.setResponse _) =>
    if hook = .response then some (.opens moment.1.restores.length) else none
  | .command _ (.restore index) =>
    match moment.1.restores[index]? with
    | none => none
    | some token => if token.hook = hook then some (.closes index) else none
  | _ => none

def brackets (session : Session) (hook : Hook) (moves : List Move) : List Bracket :=
  (session.moments moves).filterMap (bracket? hook)

structure Swings (hook : Hook) (session : Session) (bracket : Option Bracket) (after : Session) :
    Prop where
  grows : session.restores <+: after.restores
  still : bracket = none → after.world.hooks.token hook = session.world.hooks.token hook
  opened : ∀ index, bracket = some (.opens index) →
    after.restores[index]? = some (session.world.hooks.token hook)
  closed : ∀ index, bracket = some (.closes index) →
    session.restores[index]? = some (after.world.hooks.token hook)

variable {session after : Session}

theorem Swings.of_still {hook : Hook} (grows : session.restores <+: after.restores)
    (same : after.world.hooks.token hook = session.world.hooks.token hook) :
    Swings hook session none after :=
  ⟨grows, fun _ => same, nofun, nofun⟩

theorem Swings.of_opened {hook : Hook} {index : Nat} (grows : session.restores <+: after.restores)
    (opened : after.restores[index]? = some (session.world.hooks.token hook)) :
    Swings hook session (some (.opens index)) after := by
  refine ⟨grows, ?_, ?_, ?_⟩
  · intro none
    cases none
  · intro other same
    cases same
    exact opened
  · intro other same
    cases same

theorem Swings.of_closed {hook : Hook} {index : Nat} (grows : session.restores <+: after.restores)
    (closed : session.restores[index]? = some (after.world.hooks.token hook)) :
    Swings hook session (some (.closes index)) after := by
  refine ⟨grows, ?_, ?_, ?_⟩
  · intro none
    cases none
  · intro other same
    cases same
  · intro other same
    cases same
    exact closed

theorem Swings.of_hooks {hook : Hook} (restores : after.restores = session.restores)
    (handler : after.world.hooks.handler = session.world.hooks.handler)
    (response : after.world.hooks.response = session.world.hooks.response) :
    Swings hook session none after := by
  refine .of_still (restores ▸ List.prefix_refl _) ?_
  cases hook
  · exact congrArg Restore.handler handler
  · exact congrArg Restore.response response

theorem perform_swings (session : Session) (ctx : Context) {command : Command}
    (plain : (Move.command ctx command).configures = false) (hook : Hook) :
    Swings hook session (bracket? hook (session, .command ctx command))
      (session.perform ctx command).2 := by
  by_cases inert : command.isInert = true
  · obtain ⟨unmoved, restores⟩ := session.perform_inert ctx inert
    have none : bracket? hook (session, .command ctx command) = none := by
      cases command <;> first | rfl | cases inert
    rw [none]
    exact .of_hooks restores (by rw [unmoved.hooks]) (by rw [unmoved.hooks])
  cases command with
  | newLock | inject | setTimeout | setLevel | setLogger => exact .of_hooks rfl rfl rfl
  | setHandler handler =>
      cases hook with
      | handler => exact .of_opened (List.prefix_append ..) List.getElem?_concat_length
      | response => exact .of_still (List.prefix_append ..) rfl
  | setResponse response =>
      cases hook with
      | handler => exact .of_still (List.prefix_append ..) rfl
      | response => exact .of_opened (List.prefix_append ..) List.getElem?_concat_length
  | restore index =>
      simp only [perform, bracket?]
      cases found : session.restores[index]? with
      | none => exact .of_hooks rfl rfl rfl
      | some token =>
          simp only
          split
          case isTrue own =>
            refine .of_closed (List.prefix_refl _) ?_
            rw [found, ← own]
            exact congrArg some (session.world.hooks.token_restore_self token).symm
          case isFalse other =>
            exact .of_still (List.prefix_refl _) (session.world.hooks.token_restore_of_ne other)
  | apply | readAndApply => cases plain
  | _ => exact absurd rfl inert

theorem move?_swings {move : Move} (plain : move.configures = false)
    (action : session.move? move = some after) (hook : Hook) :
    Swings hook session (bracket? hook (session, move)) after := by
  cases move with
  | start | finish =>
      simp only [move?] at action
      split at action <;> cases action
      exact .of_hooks rfl rfl rfl
  | step t =>
      simp only [move?] at action
      split at action
      · cases action
      case h_2 world pending stepped =>
        cases action
        obtain ⟨before, p, later, call, -, -, own, -⟩ := stepOf_some stepped
        have hooks := Call.step_hooks own
        exact .of_hooks rfl (congrArg Hooks.handler hooks) (congrArg Hooks.response hooks)
  | command ctx command =>
      simp only [move?] at action
      split at action <;> cases action
      exact session.perform_swings ctx plain hook
  | advance d =>
      cases action
      exact .of_hooks rfl rfl rfl

theorem follow_recovers {moves : List Move} (plain : ∀ move ∈ moves, move.configures = false)
    {hook : Hook} {stack : List Nat} (closes : Bracket.Closes stack (session.brackets hook moves))
    {start : Restore}
    (recovers : start.Recovers session.restores stack (session.world.hooks.token hook))
    (schedule : session.follow moves = some after) : after.world.hooks.token hook = start := by
  induction moves generalizing session stack with
  | nil =>
      cases schedule
      cases (closes : stack = [])
      exact recovers
  | cons move more ih =>
      unfold Session.follow at schedule
      split at schedule
      · cases schedule
      case h_2 next action =>
        obtain ⟨first, later⟩ := List.forall_mem_cons.mp plain
        have swings := move?_swings first action hook
        simp only [brackets, moments, action, List.filterMap_cons] at closes
        cases bracket : bracket? hook (session, move) with
        | none =>
            simp only [bracket] at closes
            refine ih later closes ?_ schedule
            rw [swings.still bracket]
            exact recovers.grow swings.grows
        | some b =>
            simp only [bracket] at closes
            cases b with
            | opens index =>
                exact ih later closes ⟨_, swings.opened index bracket, recovers.grow swings.grows⟩ schedule
            | closes index =>
                cases stack with
                | nil => exact closes.elim
                | cons top outer =>
                    obtain ⟨rfl, rest⟩ := closes
                    obtain ⟨earlier, found, outside⟩ := recovers
                    cases found.symm.trans (swings.closed index bracket)
                    exact ih later rest (outside.grow swings.grows) schedule

structure Sets (session : Session) (token : Restore) (after : Session) : Prop where
  own : after.world.hooks.token token.hook = token
  other : ∀ hook, hook ≠ token.hook →
    after.world.hooks.token hook = session.world.hooks.token hook
  logger : after.world.hooks.logger = session.world.hooks.logger
  world : after.world = { session.world with hooks := after.world.hooks }
  pending : after.pending = session.pending

theorem sets_restore (session : Session) (token : Restore) (restores : List Restore) :
    session.Sets token
      ⟨{ session.world with hooks := session.world.hooks.restore token }, session.pending, restores⟩ := by
  refine ⟨session.world.hooks.token_restore_self token, ?_, ?_, rfl, rfl⟩
  · intro hook other
    exact session.world.hooks.token_restore_of_ne (Ne.symm other)
  · cases token <;> rfl

theorem set_and_restore_cancel :
    (∀ (session after : Session) (moves : List Move),
      (∀ move ∈ moves, move.configures = false) →
      (∀ hook, Bracket.Nested (session.brackets hook moves)) →
      session.follow moves = some after →
      after.world.hooks.handler = session.world.hooks.handler ∧
        after.world.hooks.response = session.world.hooks.response) ∧
    ∀ (session : Session) (ctx : Context),
      (∀ handler, session.Sets (.handler handler) (session.perform ctx (.setHandler handler)).2) ∧
      (∀ response, session.Sets (.response response)
        (session.perform ctx (.setResponse response)).2) ∧
      ∀ index token, session.restores[index]? = some token →
        session.Sets token (session.perform ctx (.restore index)).2 := by
  constructor
  · intro session after moves plain nested schedule
    have back (hook : Hook) : after.world.hooks.token hook = session.world.hooks.token hook :=
      follow_recovers plain (nested hook).closes rfl schedule
    exact ⟨Restore.handler.inj (back .handler), Restore.response.inj (back .response)⟩
  · intro session ctx
    refine ⟨fun handler => session.sets_restore (.handler handler) _,
      fun response => session.sets_restore (.response response) _, ?_⟩
    intro index token found
    simp only [perform, found]
    exact session.sets_restore token _

/-- The response is set inside the first bracket of the handler and put back inside the second. A
thread enters a lock meanwhile, and the logger is changed for good. -/
def overlap : List Move :=
  [.command (.bare 1) (.setHandler (some ⟨"outer", none⟩)), .command (.bare 1) (.setResponse .warn),
    .start (.bare 2) 0 (.enter 0 .shared "scan"), .step ⟨2⟩,
    .command (.bare 3) (.setHandler none), .command (.bare 1) (.restore 1), .step ⟨2⟩,
    .command (.bare 1) (.setLogger (some ⟨"pkg"⟩)), .command (.bare 3) (.restore 2),
    .command (.bare 1) (.restore 0)]

def overlapped : Session := ((initial .empty).follow overlap).getD (initial .empty)

theorem overlap_cancels :
    (∀ move ∈ overlap, move.configures = false) ∧
      Bracket.Nested ((initial .empty).brackets .handler overlap) ∧
      (initial .empty).follow overlap = some overlapped ∧
      overlapped.world.hooks.handler = none ∧ overlapped.world.hooks.response = .fatal ∧
      (overlapped.perform (.bare 1) (.restore 0)).2.world.hooks.logger = some ⟨"pkg"⟩ := by
  have handlers : Bracket.Nested ((initial .empty).brackets .handler overlap) :=
    .pair 0 (.pair 2 .nil .nil) .nil
  have responses : Bracket.Nested ((initial .empty).brackets .response overlap) :=
    .pair 1 .nil .nil
  have schedule : (initial .empty).follow overlap = some overlapped := rfl
  obtain ⟨cancel, alone⟩ := set_and_restore_cancel
  obtain ⟨handler, response⟩ := cancel (initial .empty) overlapped overlap (by decide)
    (fun hook => by cases hook; exact handlers; exact responses) schedule
  have restored := (alone overlapped (.bare 1)).2.2 0 (.handler none) rfl
  exact ⟨by decide, handlers, schedule, handler, response, restored.logger⟩

end Session

end GuardedDump
