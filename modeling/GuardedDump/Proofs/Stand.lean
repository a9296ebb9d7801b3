import GuardedDump.Gate

namespace GuardedDump

inductive Stand where
  | away
  | queued (access : Access)
  | owner (access : Access)
  deriving DecidableEq

namespace Gate

def stand (gate : Gate) (t : Thread) : Stand :=
  if t ∈ gate.readers then .owner .shared
  else if gate.writer = some t then .owner .exclusive
  else if t ∈ gate.waitingReaders then .queued .shared
  else if t ∈ gate.waitingWriters then .queued .exclusive
  else .away

def people (gate : Gate) : List Thread :=
  gate.readers ++ (gate.writer.toList ++ (gate.waitingReaders ++ gate.waitingWriters))

structure Orderly (gate : Gate) : Prop where
  distinct : gate.people.Nodup
  alone : ∀ t, gate.writer = some t → gate.readers = []

theorem vacant_orderly : vacant.Orderly :=
  ⟨List.nodup_nil, fun _ _ => rfl⟩

@[simp] theorem stand_vacant (t : Thread) : vacant.stand t = .away := by
  simp [stand, vacant]

theorem stand_eq_away {gate : Gate} {t : Thread} : gate.stand t = .away ↔ t ∉ gate.people := by
  unfold stand people
  simp only [List.mem_append, Option.mem_toList, not_or]
  grind

variable {gate : Gate} {t u : Thread} {access : Access}

theorem Orderly.owns_iff (orderly : gate.Orderly) :
    gate.owns t access = true ↔ gate.stand t = .owner access := by
  have alone := orderly.alone t
  cases access <;> simp only [owns, stand, List.contains_iff_mem, beq_iff_eq] <;> grind

theorem Orderly.writer_iff (orderly : gate.Orderly) :
    gate.writer = some t ↔ gate.stand t = .owner .exclusive := by
  rw [← orderly.owns_iff]
  simp [owns]

theorem Orderly.excludes (orderly : gate.Orderly) (owner : gate.stand t = .owner access)
    (different : u ≠ t) : gate.stand u ≠ .owner .exclusive := by
  intro writer
  rw [← orderly.writer_iff] at writer
  have empty := orderly.alone u writer
  cases access with
  | shared =>
      rw [← orderly.owns_iff] at owner
      simp [owns, empty] at owner
  | exclusive =>
      rw [← orderly.writer_iff, writer] at owner
      exact different (Option.some.inj owner)

theorem request_orderly (orderly : gate.Orderly) (away : gate.stand t = .away) :
    (gate.request t access).Orderly := by
  obtain ⟨distinct, alone⟩ := orderly
  rw [stand_eq_away] at away
  unfold people at distinct away
  cases access <;> unfold request <;> split <;>
    constructor <;> grind [people, Option.toList]

theorem stand_request_self (away : gate.stand t = .away) :
    (gate.request t access).stand t = .owner access ∨
      (gate.request t access).stand t = .queued access := by
  have absent := stand_eq_away.mp away
  unfold people at absent
  cases access <;> unfold request <;> split <;> simp only [stand] <;> grind

theorem stand_request_of_ne (different : u ≠ t) :
    (gate.request t access).stand u = gate.stand u := by
  cases access <;> unfold request <;> split <;> simp only [stand] <;> grind

def without (gate : Gate) (t : Thread) : Access → Gate
  | .shared => { gate with readers := gate.readers.erase t }
  | .exclusive => { gate with writer := none }

def admitReaders (gate : Gate) : Gate :=
  { gate with readers := gate.waitingReaders, waitingReaders := [] }

theorem without_orderly (orderly : gate.Orderly) (t : Thread) (access : Access) :
    (gate.without t access).Orderly := by
  obtain ⟨distinct, alone⟩ := orderly
  unfold people at distinct
  cases access <;> constructor <;> grind [people, without, Option.toList]

theorem stand_without_self (orderly : gate.Orderly) (owner : gate.stand t = .owner access) :
    (gate.without t access).stand t = .away := by
  have distinct := orderly.distinct
  unfold people at distinct
  cases access <;> simp only [stand, without] at owner ⊢ <;> grind

theorem stand_without_of_ne (orderly : gate.Orderly) (owner : gate.stand t = .owner access)
    (different : u ≠ t) : (gate.without t access).stand u = gate.stand u := by
  have distinct := orderly.distinct
  unfold people at distinct
  cases access <;> simp only [stand, without] at owner ⊢ <;> grind

theorem passToWriter_orderly (orderly : gate.Orderly) (free : gate.writer = none)
    (empty : gate.readers = []) : gate.passToWriter.Orderly := by
  obtain ⟨distinct, alone⟩ := orderly
  unfold people at distinct
  unfold passToWriter
  split
  · exact ⟨distinct, alone⟩
  · constructor <;> grind [people, Option.toList]

theorem stand_passToWriter (orderly : gate.Orderly) (free : gate.writer = none)
    (empty : gate.readers = []) (u : Thread) :
    gate.passToWriter.stand u = gate.stand u ∨
      gate.stand u = .queued .exclusive ∧ gate.passToWriter.stand u = .owner .exclusive := by
  have distinct := orderly.distinct
  unfold people at distinct
  unfold passToWriter
  split
  · exact .inl rfl
  · simp only [stand]
    grind

theorem admitReaders_orderly (orderly : gate.Orderly) (free : gate.writer = none) :
    gate.admitReaders.Orderly := by
  obtain ⟨distinct, alone⟩ := orderly
  unfold people at distinct
  constructor <;> grind [people, admitReaders, Option.toList]

theorem stand_admitReaders (free : gate.writer = none) (empty : gate.readers = []) (u : Thread) :
    gate.admitReaders.stand u = gate.stand u ∨
      gate.stand u = .queued .shared ∧ gate.admitReaders.stand u = .owner .shared := by
  simp only [stand, admitReaders, free, empty]
  grind

theorem release_cases (orderly : gate.Orderly) (owner : gate.stand t = .owner access) :
    gate.release t access = gate.without t access ∨
      (gate.without t access).writer = none ∧ (gate.without t access).readers = [] ∧
        (gate.release t access = (gate.without t access).passToWriter ∨
          gate.release t access = (gate.without t access).admitReaders) := by
  cases access with
  | shared =>
      have free : gate.writer = none := by
        rw [← orderly.owns_iff] at owner
        cases writer : gate.writer with
        | none => rfl
        | some other =>
            have empty := orderly.alone other writer
            simp [owns, empty] at owner
      by_cases empty : (gate.readers.erase t).isEmpty = true
      · exact .inr ⟨free, List.isEmpty_iff.mp empty, .inl (by simp only [release, without, empty, if_true])⟩
      · exact .inl (by simp only [release, without, empty]; rfl)
  | exclusive =>
      have empty : gate.readers = [] := orderly.alone t (orderly.writer_iff.mpr owner)
      refine .inr ⟨rfl, empty, ?_⟩
      by_cases nobody : gate.waitingReaders.isEmpty = true
      · exact .inl (by simp only [release, without, nobody, if_true])
      · exact .inr (by simp only [release, without, nobody]; rfl)

theorem release_orderly (orderly : gate.Orderly) (owner : gate.stand t = .owner access) :
    (gate.release t access).Orderly := by
  have left := without_orderly orderly t access
  rcases release_cases orderly owner with same | ⟨free, empty, passed | admitted⟩
  · rw [same]
    exact left
  · rw [passed]
    exact passToWriter_orderly left free empty
  · rw [admitted]
    exact admitReaders_orderly left free

theorem stand_release_without (orderly : gate.Orderly) (owner : gate.stand t = .owner access)
    (u : Thread) :
    (gate.release t access).stand u = (gate.without t access).stand u ∨
      ∃ wish, (gate.without t access).stand u = .queued wish ∧
        (gate.release t access).stand u = .owner wish := by
  have left := without_orderly orderly t access
  rcases release_cases orderly owner with same | ⟨free, empty, passed | admitted⟩
  · exact .inl (by rw [same])
  · rw [passed]
    exact (stand_passToWriter left free empty u).imp_right fun moved => ⟨.exclusive, moved⟩
  · rw [admitted]
    exact (stand_admitReaders free empty u).imp_right fun moved => ⟨.shared, moved⟩

theorem stand_release_self (orderly : gate.Orderly) (owner : gate.stand t = .owner access) :
    (gate.release t access).stand t = .away := by
  have gone := stand_without_self orderly owner
  rcases stand_release_without orderly owner t with same | ⟨wish, queued, -⟩
  · rw [same, gone]
  · rw [gone] at queued
    cases queued

theorem stand_release_of_ne (orderly : gate.Orderly) (owner : gate.stand t = .owner access)
    (different : u ≠ t) :
    (gate.release t access).stand u = gate.stand u ∨
      ∃ wish, gate.stand u = .queued wish ∧ (gate.release t access).stand u = .owner wish := by
  have kept := stand_release_without orderly owner u
  rwa [stand_without_of_ne orderly owner different] at kept

end Gate

end GuardedDump
