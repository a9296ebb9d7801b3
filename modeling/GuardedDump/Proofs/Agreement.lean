import GuardedDump.Proofs.Passage
import GuardedDump.Proofs.Stand
import Mathlib.Logic.Function.Basic

namespace GuardedDump

namespace Table

def Distinct (table : Table) : Prop :=
  (table.entries.map Prod.fst).Nodup

theorem empty_distinct : empty.Distinct :=
  List.nodup_nil

theorem Distinct.erase {table : Table} (distinct : table.Distinct) (t : Thread) :
    (table.erase t).Distinct :=
  distinct.sublist (List.filter_sublist.map Prod.fst)

theorem Distinct.insert {table : Table} (distinct : table.Distinct) (t : Thread) (hold : Hold) :
    (table.insert t hold).Distinct := by
  refine List.nodup_cons.mpr ⟨?_, distinct.erase t⟩
  intro member
  obtain ⟨entry, kept, same⟩ := List.mem_map.mp member
  simp only [Table.erase, List.mem_filter] at kept
  simp [same] at kept

theorem Distinct.get?_eq_some_iff {table : Table} (distinct : table.Distinct) {t : Thread}
    {hold : Hold} : table.get? t = some hold ↔ (t, hold) ∈ table.entries := by
  obtain ⟨entries⟩ := table
  induction entries with
  | nil => simp [get?]
  | cons entry rest ih =>
      obtain ⟨owner, record⟩ := entry
      unfold Distinct at distinct ih
      simp only [List.map_cons, List.nodup_cons, List.mem_map, not_exists, not_and] at distinct ih
      obtain ⟨first, later⟩ := distinct
      by_cases same : owner = t
      · subst same
        have absent : (owner, hold) ∉ rest := fun member => first _ member rfl
        simp [get?, absent, eq_comm]
      · have found : get? ⟨(owner, record) :: rest⟩ t = get? ⟨rest⟩ t := by simp [get?, same]
        rw [found, ih later]
        simp [Ne.symm same]

end Table

theorem Access.mode_injective : Function.Injective Access.mode := by
  intro a b same
  cases a <;> cases b <;> first | rfl | cases same

structure Hold.Backs (hold : Hold) (access : Access) : Prop where
  mode : hold.mode = access.mode
  positive : 1 ≤ hold.count
  single : access = .exclusive → hold.count = 1

inductive Fits (t : Thread) : Phase → Option Hold → Stand → Prop where
  | absent : Fits t .outside none .away
  | holding {access hold} (known : t.isKnown = true) (backs : hold.Backs access) :
      Fits t .outside (some hold) (.owner access)
  | asking {access} (known : t.isKnown = true) : Fits t (.asking access) none .away
  | waiting {access stand} (known : t.isKnown = true)
      (place : stand = .away ∨ stand = .queued access ∨ stand = .owner access) :
      Fits t (.waiting access) none stand
  | granted {access} (known : t.isKnown = true) : Fits t (.granted access) none (.owner access)
  | counting {access waited hold} (known : t.isKnown = true) (backs : hold.Backs access) :
      Fits t (.counting access waited) (some hold) (.owner access)
  | leaving {access left} : Fits t (.leaving access (some left)) none (.owner access)
  | remarking {left} : Fits t (.remarking (some left)) none .away

theorem Fits.handed {t : Thread} {phase : Phase} {record : Option Hold} {wish : Access}
    (fits : Fits t phase record (.queued wish)) : Fits t phase record (.owner wish) := by
  cases fits with
  | waiting known place =>
      rcases place with away | queued | owner
      · cases away
      · cases queued
        exact .waiting known (.inr (.inr rfl))
      · cases owner

theorem Fits.backs {t : Thread} {phase : Phase} {hold : Hold} {stand : Stand}
    (fits : Fits t phase (some hold) stand) :
    t.isKnown = true ∧ ∃ access, stand = .owner access ∧ hold.Backs access := by
  cases fits with
  | holding known backs => exact ⟨known, _, rfl, backs⟩
  | counting known backs => exact ⟨known, _, rfl, backs⟩

theorem Fits.of_granted {t : Thread} {access : Access} {record : Option Hold} {stand : Stand}
    (fits : Fits t (.granted access) record stand) : record = none := by
  cases fits
  rfl

theorem Fits.of_leaving {t : Thread} {access : Access} {left record : Option Hold} {stand : Stand}
    (fits : Fits t (.leaving access left) record stand) :
    stand = .owner access ∧ left.isSome = true := by
  cases fits
  exact ⟨rfl, rfl⟩

theorem Fits.of_remarking {t : Thread} {left record : Option Hold} {stand : Stand}
    (fits : Fits t (.remarking left) record stand) : left.isSome = true := by
  cases fits
  rfl

structure Lock.Agrees (lock : Lock) (phase : Thread → Phase) : Prop where
  gate : lock.gate.Orderly
  unseized : lock.internal = none
  table : lock.table.Distinct
  each : ∀ t, Fits t (phase t) (lock.table.get? t) (lock.gate.stand t)

namespace Lock.Agrees

variable {lock target : Lock} {phase : Thread → Phase} {t : Thread} {later : Phase}

theorem update (agrees : lock.Agrees phase) (gate : target.gate.Orderly)
    (unseized : target.internal = none) (table : target.table.Distinct)
    (own : Fits t later (target.table.get? t) (target.gate.stand t))
    (others : ∀ u, u ≠ t → target.table.get? u = lock.table.get? u ∧
      (target.gate.stand u = lock.gate.stand u ∨
        ∃ wish, lock.gate.stand u = .queued wish ∧ target.gate.stand u = .owner wish)) :
    target.Agrees (Function.update phase t later) := by
  refine ⟨gate, unseized, table, ?_⟩
  intro u
  by_cases same : u = t
  · subst same
    rw [Function.update_self]
    exact own
  · obtain ⟨record, place⟩ := others u same
    have before := agrees.each u
    rw [Function.update_of_ne same, record]
    rcases place with kept | ⟨wish, queued, owner⟩
    · rw [kept]
      exact before
    · rw [queued] at before
      rw [owner]
      exact before.handed

theorem record (agrees : lock.Agrees phase) {hold : Hold}
    (own : Fits t later (some hold) (lock.gate.stand t)) :
    (lock.record t hold).Agrees (Function.update phase t later) := by
  refine agrees.update agrees.gate rfl (agrees.table.insert t hold) ?_ ?_
  · have recorded : (lock.record t hold).table.get? t = some hold := Table.get?_insert_self ..
    rw [recorded]
    exact own
  · intro u different
    exact ⟨Table.get?_insert_of_ne _ different _, .inl rfl⟩

theorem rephase (agrees : lock.Agrees phase)
    (own : Fits t later (lock.table.get? t) (lock.gate.stand t)) :
    lock.Agrees (Function.update phase t later) :=
  agrees.update agrees.gate agrees.unseized agrees.table own fun _ _ => ⟨rfl, .inl rfl⟩

theorem congr (agrees : lock.Agrees phase) (gate : target.gate = lock.gate)
    (unseized : target.internal = none) (table : target.table = lock.table) :
    target.Agrees phase := by
  refine ⟨?_, unseized, ?_, ?_⟩
  · rw [gate]
    exact agrees.gate
  · rw [table]
    exact agrees.table
  · rw [gate, table]
    exact agrees.each

theorem passage (agrees : lock.Agrees phase) (passage : Passage t lock (phase t) later target) :
    target.Agrees (Function.update phase t later) := by
  have fits := agrees.each t
  generalize phase t = before at passage fits
  generalize record : lock.table.get? t = hold at fits
  generalize place : lock.gate.stand t = stand at fits
  cases passage with
  | pass =>
      apply agrees.rephase
      rw [record, place]
      exact fits
  | refuse =>
      refine (agrees.rephase ?_).congr rfl rfl rfl
      rw [record, place]
      exact fits
  | consult known free =>
      refine (agrees.rephase ?_).congr rfl rfl rfl
      rw [free] at record ⊢
      subst record
      rw [place]
      cases fits
      exact .asking known
  | reenter known held mode =>
      rw [held] at record
      subst record
      cases fits with
      | @holding access _ _ backs =>
          have shared : access = .shared := by
            cases access with
            | shared => rfl
            | exclusive => exact absurd backs.mode mode
          subst shared
          apply agrees.record
          rw [place]
          exact .counting known ⟨backs.mode, by have := backs.positive; simp only; omega, nofun⟩
  | @ask access =>
      cases fits with
      | asking known =>
          refine agrees.update (Gate.request_orderly agrees.gate place) agrees.unseized agrees.table
            ?_ ?_
          · have free : (lock.ask t access).table.get? t = none := record
            rw [free]
            exact .waiting known (.inr (Gate.stand_request_self place).symm)
          · intro u different
            exact ⟨rfl, .inl (Gate.stand_request_of_ne different)⟩
  | welcome owned =>
      rw [Lock.owns, agrees.gate.owns_iff, place] at owned
      subst owned
      apply agrees.rephase
      rw [record, place]
      cases fits with
      | waiting known => exact .granted known
  | record mode count =>
      apply agrees.record
      rw [place]
      cases fits with
      | granted known => exact .counting known ⟨mode, by omega, fun _ => count⟩
  | tally | retally =>
      refine (agrees.rephase ?_).congr rfl agrees.unseized rfl
      rw [record, place]
      cases fits with
      | counting known backs => exact .holding known backs
  | lower held mode more =>
      rw [held] at record
      subst record
      cases fits with
      | @holding access _ known backs =>
          have shared : access = .shared := Access.mode_injective (backs.mode.symm.trans mode)
          subst shared
          apply agrees.record
          rw [place]
          exact .holding known ⟨mode, by simp only; omega, nofun⟩
  | linger held mode more =>
      rw [held] at record
      subst record
      cases fits with
      | @holding access _ known backs =>
          have exclusive : access = .exclusive := Access.mode_injective (backs.mode.symm.trans mode)
          have single := backs.single exclusive
          omega
  | @vacate access hold held mode last =>
      rw [held] at record
      subst record
      cases fits with
      | @holding other _ known backs =>
          have same : other = access := Access.mode_injective (backs.mode.symm.trans mode)
          subst same
          refine agrees.update agrees.gate rfl (agrees.table.erase t) ?_ ?_
          · have gone : (lock.table.erase t).get? t = none := Table.get?_erase_self ..
            rw [Lock.table_cede, gone, Lock.gate_cede, place]
            exact .leaving
          · intro u different
            exact ⟨Table.get?_erase_of_ne _ different, .inl rfl⟩
  | @unlatch access left =>
      cases fits with
      | leaving =>
          refine agrees.update (Gate.release_orderly agrees.gate place) agrees.unseized agrees.table
            ?_ ?_
          · have free : (lock.unlatch t access).table.get? t = none := record
            have gone : (lock.unlatch t access).gate.stand t = .away :=
              Gate.stand_release_self agrees.gate place
            rw [free, gone]
            exact .remarking
          · intro u different
            exact ⟨rfl, Gate.stand_release_of_ne agrees.gate place different⟩
  | remark =>
      apply agrees.rephase
      rw [record, place]
      cases fits with
      | remarking => exact .absent

/-- A lock that does not exist never lets anybody in, so nobody gets beyond waiting for it. -/
theorem passage_vacant (agrees : lock.Agrees phase) (gate : lock.gate = .vacant)
    (table : lock.table = .empty) (passage : Passage t lock (phase t) later target) :
    lock.Agrees (Function.update phase t later) := by
  have fits := agrees.each t
  have free : lock.table.get? t = none := by rw [table]; rfl
  have away : lock.gate.stand t = .away := by rw [gate, Gate.stand_vacant]
  apply agrees.rephase
  rw [free, away] at fits ⊢
  generalize phase t = before at passage fits
  cases passage with
  | pass | refuse => exact fits
  | consult known => exact .asking known
  | ask =>
      cases fits with
      | asking known => exact .waiting known (.inl rfl)
  | welcome owned =>
      rw [Lock.owns, agrees.gate.owns_iff, away] at owned
      cases owned
  | record | tally | retally | unlatch => cases fits
  | reenter _ held | lower held | linger held | vacate held =>
      rw [free] at held
      cases held
  | remark => exact .absent

end Lock.Agrees

namespace World

def Unseized (world : World) : Prop :=
  ∀ id, (world.lock id).internal = none

variable {world : World}

theorem Unseized.seized (free : world.Unseized) : world.seized = false := by
  unfold World.seized
  rw [List.any_eq_false]
  intro lock member
  obtain ⟨id, known, rfl⟩ := List.mem_iff_getElem.mp member
  have here := free id
  rw [World.lock, List.getD_eq_getElem?_getD, List.getElem?_eq_getElem known] at here
  simp only [Option.getD_some] at here
  simp [here]

theorem Unseized.proceed? (free : world.Unseized) (call : Call) :
    call.proceed? world = call.step world := by
  have idle : call.waits world = false := by
    unfold Call.waits
    cases call.tasks with
    | nil => rfl
    | cons task rest => cases task.table? call.thread <;> simp [free _]
  simp only [Call.proceed?, idle, Bool.false_eq_true, if_false]

end World

end GuardedDump
