import GuardedDump.Proofs.Enrolment
import GuardedDump.Proofs.Ownership

namespace GuardedDump

theorem Lock.clampLevel_eq (level : Int) : (clampLevel level : Int) = max 0 (min 3 level) := by
  unfold clampLevel
  split
  · omega
  · split <;> omega

theorem Duration.isNegative_iff (d : Duration) : d.isNegative = true ↔ d.ns < 0 := by
  simp [isNegative]

namespace Settings

def Refused (settings : Settings) : Prop :=
  Response.parse? settings.response = none ∨ settings.timeout.ns < 0

theorem not_refused_iff {settings : Settings} :
    ¬ settings.Refused ↔
      (∃ response, Response.parse? settings.response = some response) ∧ 0 ≤ settings.timeout.ns := by
  unfold Refused
  rw [not_or, ← ne_eq, Option.ne_none_iff_exists', Int.not_lt]

end Settings

namespace World

variable {world after : World} {settings : Settings}

structure Configured (before : World) (settings : Settings) (after : World) : Prop where
  response : Response.parse? settings.response = some after.hooks.response
  handler : after.hooks.handler = before.hooks.handler
  logger : after.hooks.logger = before.hooks.logger
  main : ∀ lock, before.locks[mainLock]? = some lock →
    ∃ level : Nat, (level : Int) = max 0 (min 3 settings.level) ∧
      after.locks[mainLock]? = some { lock with timeout := settings.timeout, level }
  others : ∀ id, id ≠ mainLock → after.locks[id]? = before.locks[id]?
  rest : after = { before with locks := after.locks, hooks := after.hooks }

theorem apply_of_refused (world : World) (refused : settings.Refused) :
    ∃ error, world.apply settings = .error error := by
  unfold apply
  split
  · exact ⟨_, rfl⟩
  case h_2 response read =>
    have negative : settings.timeout.isNegative = true := by
      rw [Duration.isNegative_iff]
      exact refused.resolve_left (by simp [read])
    rw [if_pos negative]
    exact ⟨_, rfl⟩

theorem apply_of_accepted (world : World) (accepted : ¬ settings.Refused) :
    ∃ after, world.apply settings = .ok after ∧ world.Configured settings after := by
  obtain ⟨⟨response, read⟩, timeout⟩ := Settings.not_refused_iff.mp accepted
  have fits : ¬ settings.timeout.isNegative = true := by
    rw [Duration.isNegative_iff]
    exact Int.not_lt.mpr timeout
  simp only [apply, read, if_neg fits]
  refine ⟨_, rfl, read, rfl, rfl, ?_, ?_, rfl⟩
  · intro lock present
    refine ⟨Lock.clampLevel settings.level, Lock.clampLevel_eq _, ?_⟩
    have known : mainLock < world.locks.length := (List.getElem?_eq_some_iff.mp present).1
    have main : world.lock mainLock = lock := by simp [World.lock, present]
    simp only [modifyLock, setLock, main, List.getElem?_set_self known]
    rfl
  · intro id other
    exact List.getElem?_set_ne (Ne.symm other)

def Levelled (world : World) : Prop := ∀ id, (world.lock id).level ≤ 3

theorem Levelled.modifyLock (levelled : world.Levelled) (id : LockId) {f : Lock → Lock}
    (low : ∀ lock, lock.level ≤ 3 → (f lock).level ≤ 3) : (world.modifyLock id f).Levelled := by
  intro other
  unfold World.modifyLock
  by_cases same : other = id
  · subst same
    rw [lock_setLock]
    split
    · exact low _ (levelled other)
    · exact levelled other
  · rw [lock_setLock_of_ne world same]
    exact levelled other

theorem clampLevel_le (level : Int) : Lock.clampLevel level ≤ 3 := by
  have clamped := Lock.clampLevel_eq level
  omega

theorem Levelled.apply (levelled : world.Levelled) (result : world.apply settings = .ok after) :
    after.Levelled := by
  unfold World.apply at result
  split at result
  · cases result
  · split at result
    · cases result
    · cases result
      have adjusted := levelled.modifyLock mainLock
        (f := fun lock => { lock.setLevel settings.level with timeout := settings.timeout })
        fun _ _ => clampLevel_le settings.level
      exact adjusted

end World

theorem Passage.level_eq {t : Thread} {lock target : Lock} {before later : Phase}
    (passage : Passage t lock before later target) : target.level = lock.level := by
  cases passage <;> rfl

namespace Session

variable {failures : Failures} {session after : Session}

theorem applied_levelled (levelled : session.world.Levelled) (settings : Settings) :
    (session.applied settings).2.world.Levelled := by
  unfold applied
  split
  · exact levelled
  case h_2 world result => exact levelled.apply result

theorem perform_levelled (levelled : session.world.Levelled) (ctx : Context) (command : Command) :
    (session.perform ctx command).2.world.Levelled := by
  by_cases inert : command.isInert = true
  · intro id
    rw [(session.perform_inert ctx inert).1.lock]
    exact levelled id
  cases command with
  | newLock name timeout logger =>
      intro id
      rcases newLock_cases session.world name timeout logger id with same | ⟨-, created⟩
      · exact same ▸ levelled id
      · exact created ▸ (by decide : 1 ≤ 3)
  | inject id thread mode purpose origin count age => exact levelled.modifyLock id fun _ low => low
  | setTimeout id timeout => exact levelled.modifyLock id fun _ low => low
  | setLevel id level => exact levelled.modifyLock id fun _ _ => World.clampLevel_le level
  | setHandler | setResponse | setLogger => exact levelled
  | restore index =>
      simp only [perform]
      split <;> exact levelled
  | apply settings => exact applied_levelled levelled settings
  | readAndApply reader environment =>
      simp only [perform]
      split
      · exact levelled
      · exact applied_levelled levelled _
  | _ => exact absurd rfl inert

theorem move?_levelled {move : Move} (sound : session.Sound) (levelled : session.world.Levelled)
    (action : session.move? move = some after) : after.world.Levelled := by
  cases move with
  | start | finish =>
      simp only [move?] at action
      split at action <;> cases action
      exact levelled
  | step t =>
      simp only [move?] at action
      split at action
      · cases action
      case h_2 world pending stepped =>
        cases action
        obtain ⟨before, p, later, call, parts, -, own, rfl⟩ := stepOf_some stepped
        have orderly : p.call.Orderly := sound.orderly p (by rw [parts]; simp)
        intro id
        obtain ⟨target, passage, lock⟩ := Call.step_passage orderly own id
        rw [lock]
        split
        · rw [passage.level_eq]
          exact levelled id
        · exact levelled id
  | command ctx command =>
      simp only [move?] at action
      split at action <;> cases action
      exact perform_levelled levelled ctx command
  | advance d =>
      cases action
      exact levelled

theorem Reachable.levelled (reachable : Reachable failures session) : session.world.Levelled := by
  induction reachable with
  | initial => rintro (_ | id) <;> exact (by decide : 1 ≤ 3)
  | next previous _ action ih => exact move?_levelled previous.sound ih action

theorem Reachable.hasMain (reachable : Reachable failures session) :
    World.mainLock < session.world.locks.length := by
  apply reachable.invariant
  · exact (by decide : 0 < 1)
  · intro session after known turn
    cases turn with
    | start | finish => exact known
    | step parts action => exact (Call.step_roster action).1 ▸ known
    | create =>
        simp only [World.newLock, List.length_append]
        exact Nat.lt_add_right 1 known
    | tune tuned pending => exact tuned.count ▸ known

structure Settles (session : Session) (settings : Settings) (result : Outcome × Session) :
    Prop where
  fails : (∃ failure, result.1 = .returned (.failure (some failure))) ↔ settings.Refused
  refused : settings.Refused → result.2 = session
  accepted : ¬ settings.Refused → ∃ world, result = (.returned (.failure none),
    { session with world }) ∧ session.world.Configured settings world

theorem applied_settles (session : Session) (settings : Settings) :
    session.Settles settings (session.applied settings) := by
  by_cases refused : settings.Refused
  · obtain ⟨error, failed⟩ := session.world.apply_of_refused refused
    have result : session.applied settings =
        (.returned (.failure (some (.plain error.message))), session) := by
      simp only [applied, failed, returned]
    rw [result]
    exact ⟨⟨fun _ => refused, fun _ => ⟨_, rfl⟩⟩, fun _ => rfl, fun accepted => absurd refused accepted⟩
  · obtain ⟨world, applies, configured⟩ := session.world.apply_of_accepted refused
    have result : session.applied settings = (.returned (.failure none), { session with world }) := by
      simp only [applied, applies, withWorld]
    rw [result]
    refine ⟨⟨?_, fun reason => absurd reason refused⟩, fun reason => absurd reason refused,
      fun _ => ⟨world, rfl, configured⟩⟩
    rintro ⟨failure, ⟨⟩⟩

structure Loads (session : Session) (ctx : Context) (reader : Settings.Reader)
    (environment : String → Option String) : Prop where
  unread : ∀ settings error, Settings.load reader environment = (settings, some error) →
    settings = .blank ∧ session.perform ctx (.readAndApply reader environment) =
      (.returned (.failure (some (.plain error.message))), session)
  read : ∀ settings, Settings.load reader environment = (settings, none) →
    session.Settles settings (session.perform ctx (.readAndApply reader environment))

theorem loads (session : Session) (ctx : Context) (reader : Settings.Reader)
    (environment : String → Option String) : session.Loads ctx reader environment := by
  cases found : reader environment with
  | error error =>
      have loaded : Settings.load reader environment = (.blank, some error) := by
        simp only [Settings.load, found]
      refine ⟨?_, ?_⟩
      · intro settings reason same
        cases loaded.symm.trans same
        exact ⟨rfl, by simp only [perform, found, returned]⟩
      · intro settings same
        cases loaded.symm.trans same
  | ok settings =>
      have loaded : Settings.load reader environment = (settings, none) := by
        simp only [Settings.load, found]
      refine ⟨?_, ?_⟩
      · intro other reason same
        cases loaded.symm.trans same
      · intro other same
        cases loaded.symm.trans same
        have result : session.perform ctx (.readAndApply reader environment) =
            session.applied settings := by
          simp only [perform, found]
        rw [result]
        exact session.applied_settles settings

theorem configuration_is_atomic (session : Session) (ctx : Context) :
    (∀ settings, session.Settles settings (session.perform ctx (.apply settings))) ∧
      (∀ reader environment, session.Loads ctx reader environment) ∧
      ∀ failures, Reachable failures session →
        World.mainLock < session.world.locks.length ∧ ∀ id, (session.world.lock id).level ≤ 3 := by
  refine ⟨session.applied_settles, session.loads ctx, ?_⟩
  intro failures reachable
  exact ⟨reachable.hasMain, reachable.levelled⟩

/-- In the crowd: a level beyond 32 bits, a response that is fine beside a timeout that is not, and
an environment without a readable timeout. -/
theorem crowd_configuration_is_atomic :
    Reachable .empty crowded ∧
      (∃ world, crowded.perform (.bare 7) (.apply ⟨" Warn\t", .hour, 4294967296⟩) =
          (.returned (.failure none), { crowded with world }) ∧
        crowded.world.Configured ⟨" Warn\t", .hour, 4294967296⟩ world ∧ world.hooks.response = .warn) ∧
      (crowded.perform (.bare 7) (.apply ⟨"warn", ⟨-1⟩, 2⟩)).2 = crowded ∧
      (crowded.perform (.bare 7) (.readAndApply Settings.read fun _ => some "soon")).2 = crowded ∧
      ∀ id, (crowded.world.lock id).level ≤ 3 := by
  obtain ⟨applies, loads, bounded⟩ := configuration_is_atomic crowded (.bare 7)
  refine ⟨crowded_reachable, ?_, ?_, ?_, (bounded .empty crowded_reachable).2⟩
  · have read : Response.parse? " Warn\t" = some .warn := by decide
    have accepted : ¬ Settings.Refused ⟨" Warn\t", .hour, 4294967296⟩ :=
      Settings.not_refused_iff.mpr ⟨⟨.warn, read⟩, by decide⟩
    obtain ⟨world, result, configured⟩ := (applies _).accepted accepted
    exact ⟨world, result, configured, Option.some.inj (configured.response.symm.trans read)⟩
  · exact (applies ⟨"warn", ⟨-1⟩, 2⟩).refused (.inr (by decide))
  · have failed : (Settings.load Settings.read fun _ => some "soon").2.isSome = true := by decide
    obtain ⟨error, reason⟩ := Option.isSome_iff_exists.mp failed
    exact congrArg Prod.snd ((loads Settings.read fun _ => some "soon").unread _ error (Prod.ext rfl reason)).2

end Session

end GuardedDump
