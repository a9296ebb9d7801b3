import GuardedDump.Proofs.Ordered
import GuardedDump.Proofs.Rest

/-!
# The roster as a record of requests

After any requests, each of them served before the next, the roster gives a name to the lock that was
created last under it, unless that lock has been closed while nobody held it
(`Session.roster_is_recorded`). So a lock that lost its name to a newer one cannot disturb it by being
closed, and closing twice is closing once.
-/

namespace GuardedDump

structure Latest (names : List String) (name : String) (id : LockId) : Prop where
  named : names[id]? = some name
  newest : ∀ later, id < later → names[later]? ≠ some name

theorem Latest.lt {names : List String} {name : String} {id : LockId}
    (latest : Latest names name id) : id < names.length :=
  (List.getElem?_eq_some_iff.mp latest.named).choose

theorem latest_snoc_self (names : List String) (name : String) {id : LockId} :
    Latest (names ++ [name]) name id ↔ id = names.length := by
  constructor
  · intro latest
    have bound := latest.lt
    rw [List.length_append, List.length_singleton] at bound
    by_contra other
    have before : id < names.length := Nat.lt_of_le_of_ne (Nat.le_of_lt_succ bound) other
    exact latest.newest names.length before List.getElem?_concat_length
  · rintro rfl
    refine ⟨List.getElem?_concat_length, ?_⟩
    intro later behind found
    have bound := (List.getElem?_eq_some_iff.mp found).choose
    rw [List.length_append, List.length_singleton] at bound
    exact Nat.not_lt_of_le (Nat.le_of_lt_succ bound) behind

theorem latest_snoc_of_ne (names : List String) {name fresh : String} (different : name ≠ fresh)
    {id : LockId} : Latest (names ++ [fresh]) name id ↔ Latest names name id := by
  have same (place : Nat) : (names ++ [fresh])[place]? = some name ↔ names[place]? = some name := by
    rcases Nat.lt_trichotomy place names.length with within | rfl | beyond
    · rw [List.getElem?_append_left within]
    · simp [Ne.symm different]
    · rw [List.getElem?_eq_none (by simpa using Nat.succ_le_of_lt beyond),
        List.getElem?_eq_none (Nat.le_of_lt beyond)]
  constructor
  · intro latest
    refine ⟨(same id).mp latest.named, ?_⟩
    intro later behind found
    exact latest.newest later behind ((same later).mpr found)
  · intro latest
    refine ⟨(same id).mpr latest.named, ?_⟩
    intro later behind found
    exact latest.newest later behind ((same later).mp found)

theorem Roster.get?_strike (roster : Roster) (name other : String) (id : LockId) :
    (roster.strike name id).get? other =
      if roster.get? name = some id ∧ other = name then none else roster.get? other := by
  unfold strike
  by_cases placed : roster.get? name = some id
  · rw [if_pos placed]
    by_cases own : other = name
    · rw [if_pos ⟨placed, own⟩, own, get?_erase_self]
    · rw [if_neg fun both => own both.2, get?_erase_of_ne roster own]
  · rw [if_neg placed, if_neg fun both => placed both.1]

theorem World.Enrolled.get?_eq_some_iff {world : World} (enrolled : world.Enrolled) {name : String}
    {id : LockId} : world.roster.get? name = some id ↔ (name, id) ∈ world.roster.ordered := by
  rw [mem_ordered]
  unfold Roster.get?
  constructor
  · intro found
    obtain ⟨⟨first, second⟩, entry, rfl⟩ := Option.map_eq_some_iff.mp found
    have same : first = name := by simpa using List.find?_some entry
    exact same ▸ List.mem_of_find?_eq_some entry
  · intro member
    have distinct := enrolled.distinct
    generalize world.roster.entries = entries at member distinct
    induction entries with
    | nil => cases member
    | cons first rest ih =>
        obtain ⟨absent, later⟩ := List.nodup_cons.mp distinct
        rcases List.mem_cons.mp member with rfl | behind
        · simp
        · have other : first.1 ≠ name := by
            rintro rfl
            exact absent (List.mem_map.mpr ⟨_, behind, rfl⟩)
          rw [List.find?_cons_of_neg (by simpa using other)]
          exact ih behind later

namespace Session

variable {failures : Failures} {past : List (Session × Errand)} {session : Session}
  {errand : Errand} {id : LockId}

/-- What requests can make of a session, with the requests and the sessions that they were made in.
Time may pass while nobody waits. -/
inductive Served (failures : Failures) : List (Session × Errand) → Session → Prop where
  | initial : Served failures [] (.initial failures)
  | next {past : List (Session × Errand)} {session : Session} {errand : Errand}
      (previous : Served failures past session)
      (idle : session.isBusy errand.ctx.thread = false) (allowed : errand.injects = false) :
      Served failures (past ++ [(session, errand)]) (session.serve errand)
  | wait {past : List (Session × Errand)} {session after : Session} {d : Duration}
      (previous : Served failures past session)
      (passes : session.advance? d = some after) : Served failures past after

def created (past : List (Session × Errand)) : List String :=
  mainLockName :: past.filterMap fun moment => moment.2.creates?

def Retires (session : Session) (errand : Errand) (id : LockId) : Prop :=
  errand.closes? = some id ∧ id < session.world.locks.length ∧
    (session.world.lock id).table.entries = []

def Retired (past : List (Session × Errand)) (id : LockId) : Prop :=
  ∃ moment ∈ past, moment.1.Retires moment.2 id

theorem created_snoc : created (past ++ [(session, errand)]) =
    created past ++ errand.creates?.toList := by
  unfold created
  cases made : errand.creates? <;> simp [made]

theorem created_of_none (creates : errand.creates? = none) :
    created (past ++ [(session, errand)]) = created past := by
  rw [created_snoc, creates, Option.toList_none, List.append_nil]

theorem retired_snoc : Retired (past ++ [(session, errand)]) id ↔
    Retired past id ∨ session.Retires errand id := by
  simp [Retired, or_and_right, exists_or]

theorem advance?_some {d : Duration} {after : Session} (passes : session.advance? d = some after) :
    after = { session with world := session.world.advance d } := by
  unfold advance? at passes
  split at passes <;> cases passes
  rfl

theorem Served.reachable (served : Served failures past session) : Reachable failures session := by
  induction served with
  | initial => exact .initial
  | @next past session errand previous idle allowed ih =>
      apply ih.execute
      intro command asks
      simpa only [Errand.injects, asks] using allowed
  | @wait past session after d previous passes ih =>
      have action : session.move? (.advance d) = some after := by
        rw [advance?_some passes]
        rfl
      exact ih.next rfl action

structure Recorded (past : List (Session × Errand)) (session : Session) : Prop where
  resting : session.Resting
  names : session.world.names = created past
  retired : ∀ id, Retired past id → id < session.world.locks.length
  mapped : ∀ name id, session.world.roster.get? name = some id ↔
    Latest (created past) name id ∧ ¬Retired past id

namespace Recorded

theorem length (recorded : Recorded past session) :
    (created past).length = session.world.locks.length := by
  rw [← recorded.names, World.length_names]

theorem create (recorded : Recorded past session) (free : session.world.Unseized)
    (idle : session.isBusy errand.ctx.thread = false) {fresh : String}
    (creates : errand.creates? = some fresh) :
    Recorded (past ++ [(session, errand)]) (session.serve errand) := by
  have known := recorded.length
  obtain ⟨resting, names, retired, mapped⟩ := recorded
  obtain ⟨roster, names', resting'⟩ := resting.serve_newLock free idle creates
  have all : created (past ++ [(session, errand)]) = created past ++ [fresh] := by
    rw [created_snoc, creates, Option.toList_some]
  have closes : errand.closes? = none := by
    unfold Errand.creates? at creates
    split at creates <;> cases creates
    case h_1 asks => simp only [Errand.closes?, asks]
  have unchanged {id : LockId} : Retired (past ++ [(session, errand)]) id ↔ Retired past id := by
    rw [retired_snoc, Retires, closes]
    simp
  have grown : (session.serve errand).world.locks.length = session.world.locks.length + 1 := by
    rw [← World.length_names, names', List.length_append, World.length_names]
    rfl
  refine ⟨resting', by rw [names', names, all], ?_, ?_⟩
  · intro id gone
    rw [grown]
    exact Nat.lt_succ_of_lt (retired id (unchanged.mp gone))
  · intro name id
    rw [roster, all, unchanged]
    by_cases own : name = fresh
    · subst own
      rw [Roster.get?_enroll_self, latest_snoc_self, known, Option.some.injEq]
      refine ⟨?_, fun latest => latest.1.symm⟩
      rintro rfl
      exact ⟨rfl, fun gone => Nat.lt_irrefl _ (retired _ gone)⟩
    · rw [Roster.get?_enroll_of_ne _ own, latest_snoc_of_ne _ own, mapped]

theorem keep (recorded : Recorded past session) {after : Session}
    (undisturbed : Undisturbed session after) (creates : errand.creates? = none)
    (retires : ∀ id, ¬session.Retires errand id) : Recorded (past ++ [(session, errand)]) after := by
  obtain ⟨roster, names, resting⟩ := undisturbed
  have all : created (past ++ [(session, errand)]) = created past := created_of_none creates
  have unchanged {id : LockId} : Retired (past ++ [(session, errand)]) id ↔ Retired past id := by
    rw [retired_snoc]
    exact or_iff_left (retires id)
  have count : after.world.locks.length = session.world.locks.length := by
    rw [← World.length_names, names, World.length_names]
  refine ⟨resting, by rw [names, recorded.names, all], ?_, ?_⟩
  · intro id gone
    rw [count]
    exact recorded.retired id (unchanged.mp gone)
  · intro name id
    rw [roster, all, unchanged, recorded.mapped]

theorem close_held (recorded : Recorded past session) (free : session.world.Unseized)
    (idle : session.isBusy errand.ctx.thread = false) (closes : errand.closes? = some id)
    (creates : errand.creates? = none) (held : (session.world.lock id).table.entries ≠ []) :
    Recorded (past ++ [(session, errand)]) (session.serve errand) := by
  rw [recorded.resting.serve_close_held free idle closes held]
  refine recorded.keep ⟨rfl, rfl, recorded.resting.of_gates free rfl fun _ => rfl⟩ creates ?_
  rintro other ⟨same, -, empty⟩
  cases closes.symm.trans same
  exact held empty

theorem close_unheld (recorded : Recorded past session) (free : session.world.Unseized)
    (idle : session.isBusy errand.ctx.thread = false) (closes : errand.closes? = some id)
    (creates : errand.creates? = none) (unheld : (session.world.lock id).table.entries = []) :
    Recorded (past ++ [(session, errand)]) (session.serve errand) := by
  have known := recorded.length
  obtain ⟨resting, names, retired, mapped⟩ := recorded
  have all : created (past ++ [(session, errand)]) = created past := created_of_none creates
  have retires {other : LockId} :
      session.Retires errand other ↔ other = id ∧ id < session.world.locks.length := by
    unfold Retires
    rw [closes, Option.some.injEq]
    constructor
    · rintro ⟨rfl, bound, -⟩
      exact ⟨rfl, bound⟩
    · rintro ⟨rfl, bound⟩
      exact ⟨rfl, bound, unheld⟩
  rw [resting.serve_close_unheld free idle closes unheld]
  refine ⟨resting.of_gates free rfl fun _ => rfl, names.trans all.symm, ?_, ?_⟩
  · intro other gone
    rcases retired_snoc.mp gone with before | now
    · exact retired other before
    · obtain ⟨rfl, bound⟩ := retires.mp now
      exact bound
  · intro name other
    rw [all, retired_snoc, not_or, ← and_assoc, ← mapped, retires, Roster.get?_strike]
    constructor
    · intro found
      split at found
      · cases found
      case isFalse elsewhere =>
        refine ⟨found, ?_⟩
        rintro ⟨rfl, bound⟩
        -- Its own name is the one that the lock has on the roster.
        have named := ((mapped name other).mp found).1.named
        rw [← names, World.getElem?_names, if_pos bound, Option.some.injEq] at named
        exact elsewhere ⟨named ▸ found, named.symm⟩
    · rintro ⟨found, spared⟩
      rw [if_neg]
      · exact found
      · rintro ⟨placed, rfl⟩
        cases placed.symm.trans found
        exact spared ⟨rfl, known ▸ ((mapped _ _).mp found).1.lt⟩

end Recorded

theorem initial_recorded (failures : Failures) : Recorded [] (initial failures) := by
  have never (id : LockId) : ¬Retired [] id := by
    rintro ⟨moment, member, -⟩
    cases member
  refine ⟨initial_resting failures, rfl, fun id gone => absurd gone (never id), ?_⟩
  intro name id
  rw [and_iff_left (never id)]
  change (Roster.empty.enroll mainLockName World.mainLock).get? name = some id ↔
    Latest ([] ++ [mainLockName]) name id
  by_cases own : name = mainLockName
  · subst own
    rw [Roster.get?_enroll_self, latest_snoc_self, Option.some.injEq]
    exact eq_comm
  · rw [Roster.get?_enroll_of_ne _ own, latest_snoc_of_ne _ own]
    constructor
    · intro found
      cases found
    · intro latest
      cases latest.named

theorem Served.recorded (served : Served failures past session) : Recorded past session := by
  induction served with
  | initial => exact initial_recorded failures
  | @next past session errand previous idle allowed ih =>
      have free := previous.reachable.sound.unseized
      cases creates : errand.creates? with
      | some fresh => exact ih.create free idle creates
      | none =>
          cases closes : errand.closes? with
          | some id =>
              by_cases unheld : (session.world.lock id).table.entries = []
              · exact ih.close_unheld free idle closes creates unheld
              · exact ih.close_held free idle closes creates unheld
          | none =>
              refine ih.keep (ih.resting.serve_other free idle allowed creates closes) creates ?_
              rintro id ⟨some, -⟩
              cases closes.symm.trans some
  | wait previous passes ih =>
      rw [advance?_some passes]
      have free := previous.reachable.sound.unseized
      exact ⟨ih.resting.of_gates free rfl fun _ => rfl, ih.names, ih.retired, ih.mapped⟩

structure Registered (past : List (Session × Errand)) (session : Session) : Prop where
  mapped : ∀ name id, session.world.roster.get? name = some id ↔
    Latest (created past) name id ∧ ¬Retired past id
  listed : ∀ name id, (name, id) ∈ session.world.roster.ordered ↔
    session.world.roster.get? name = some id
  once : (session.world.roster.ordered.map Prod.snd).Nodup
  upward : session.world.roster.ordered.Pairwise fun a b => Text.bytes a.1 < Text.bytes b.1
  others : ∀ errand : Errand, session.isBusy errand.ctx.thread = false → errand.injects = false →
    errand.creates? = none → errand.closes? = none →
      (session.serve errand).world.roster = session.world.roster
  refused : ∀ (errand : Errand) (id : LockId), session.isBusy errand.ctx.thread = false →
    errand.closes? = some id → (session.world.lock id).table.entries ≠ [] →
      session.serve errand = { session with
        world := session.world.log errand.ctx.thread (session.world.lock id).logger
          (Call.closeWarning (session.world.lock id)) }
  stale : ∀ (errand : Errand) (id : LockId), session.isBusy errand.ctx.thread = false →
    errand.closes? = some id → (session.world.lock id).table.entries = [] →
      (Retired past id ∨ ∀ name, ¬Latest (created past) name id) → session.serve errand = session

theorem roster_is_recorded (served : Served failures past session) : Registered past session := by
  have enrolled := served.reachable.enrolled
  have free := served.reachable.sound.unseized
  have recorded := served.recorded
  refine ⟨recorded.mapped, fun _ _ => enrolled.get?_eq_some_iff.symm, enrolled.ids_distinct,
    Roster.ordered_strict enrolled.distinct, ?_, ?_, ?_⟩
  · intro errand idle allowed creates closes
    exact (recorded.resting.serve_other free idle allowed creates closes).roster
  · intro errand id idle closes held
    exact recorded.resting.serve_close_held free idle closes held
  · intro errand id idle closes unheld former
    have elsewhere : ¬session.world.roster.get? (session.world.lock id).name = some id := by
      rw [recorded.mapped]
      rintro ⟨latest, lasting⟩
      exact former.elim lasting fun older => older _ latest
    rw [recorded.resting.serve_close_unheld free idle closes unheld, Roster.strike, if_neg elsewhere]

def serveAll (session : Session) : List Errand → List (Session × Errand) × Session
  | [] => ([], session)
  | errand :: more =>
    ((session, errand) :: ((session.serve errand).serveAll more).1,
      ((session.serve errand).serveAll more).2)

theorem Served.serveAll (served : Served failures past session) {errands : List Errand}
    (proper : ∀ moment ∈ (session.serveAll errands).1,
      moment.1.isBusy moment.2.ctx.thread = false ∧ moment.2.injects = false) :
    Served failures (past ++ (session.serveAll errands).1) (session.serveAll errands).2 := by
  induction errands generalizing past session with
  | nil => simpa only [Session.serveAll, List.append_nil] using served
  | cons errand more ih =>
      simp only [Session.serveAll, List.forall_mem_cons] at proper ⊢
      have rest := ih (served.next proper.1.1 proper.1.2) proper.2
      rwa [List.append_assoc, List.singleton_append] at rest

/-- A lock loses its name to a second one. The older one is closed, the newer one is closed while
thread 2 reads, and again twice after it has left. -/
def succession : List Errand := [
  ⟨.bare 1, 0, .command (.newLock "cache" .second .standard)⟩,
  ⟨.bare 1, 1, .command (.newLock "cache" .second .standard)⟩,
  ⟨.bare 1, 2, .operation (.close 1)⟩,
  ⟨.bare 2, 3, .operation (.enter 2 .shared "scan")⟩,
  ⟨.bare 1, 4, .operation (.close 2)⟩,
  ⟨.bare 2, 5, .operation (.leave 2 .shared)⟩,
  ⟨.bare 1, 6, .operation (.close 2)⟩,
  ⟨.bare 1, 7, .operation (.close 2)⟩]

def succeeded (count : Nat) : List (Session × Errand) × Session :=
  (initial .empty).serveAll (succession.take count)

theorem succession_is_recorded :
    Registered (succeeded 6).1 (succeeded 6).2 ∧ Registered (succeeded 8).1 (succeeded 8).2 ∧
      (succeeded 6).2.world.roster.ordered = [("cache", 2), (mainLockName, 0)] ∧
      (succeeded 6).2.world.history.length = 1 ∧
      (succeeded 8).2.world.roster.ordered = [(mainLockName, 0)] ∧
      (succeeded 8).2.world.history.length = 1 := by
  have served (count : Nat) (proper : ∀ moment ∈ ((initial .empty).serveAll (succession.take count)).1,
      moment.1.isBusy moment.2.ctx.thread = false ∧ moment.2.injects = false) :
      Served .empty (succeeded count).1 (succeeded count).2 :=
    Served.initial.serveAll proper
  refine ⟨roster_is_recorded (served 6 ?_), roster_is_recorded (served 8 ?_), ?_, ?_, ?_, ?_⟩ <;>
    decide +kernel

end Session

end GuardedDump
