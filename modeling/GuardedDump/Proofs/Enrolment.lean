import GuardedDump.Proofs.Turn

namespace GuardedDump

theorem Passage.name_eq {t : Thread} {lock target : Lock} {before later : Phase}
    (passage : Passage t lock before later target) : target.name = lock.name := by
  cases passage <;> rfl

theorem Roster.strike_sublist (roster : Roster) (name : String) (id : LockId) :
    (roster.strike name id).entries.Sublist roster.entries := by
  unfold strike
  split
  · exact List.filter_sublist
  · exact .refl _

namespace World

structure Enrolled (world : World) : Prop where
  distinct : (world.roster.entries.map Prod.fst).Nodup
  known : ∀ entry ∈ world.roster.entries, entry.2 < world.locks.length
  named : ∀ entry ∈ world.roster.entries, (world.lock entry.2).name = entry.1

theorem initial_enrolled (failures : Failures) : (initial failures).Enrolled := by
  refine ⟨List.pairwise_singleton .., ?_, ?_⟩
  · intro entry member
    rw [List.mem_singleton.mp member]
    exact Nat.zero_lt_one
  · intro entry member
    rw [List.mem_singleton.mp member]
    rfl

theorem lock_newLock_of_lt (world : World) (name : String) (timeout : Duration) (logger : Logger)
    {id : LockId} (known : id < world.locks.length) :
    (world.newLock name timeout logger).2.lock id = world.lock id := by
  simp [newLock, World.lock, List.getElem?_append_left known]

theorem lock_newLock_self (world : World) (name : String) (timeout : Duration) (logger : Logger) :
    (world.newLock name timeout logger).2.lock world.locks.length = .create name timeout logger := by
  simp [newLock, World.lock]

namespace Enrolled

variable {world after : World}

theorem shrink (enrolled : world.Enrolled) (count : after.locks.length = world.locks.length)
    (fewer : after.roster.entries.Sublist world.roster.entries)
    (name : ∀ id, (after.lock id).name = (world.lock id).name) : after.Enrolled := by
  refine ⟨enrolled.distinct.sublist (fewer.map Prod.fst), ?_, ?_⟩
  · intro entry member
    rw [count]
    exact enrolled.known entry (fewer.subset member)
  · intro entry member
    rw [name]
    exact enrolled.named entry (fewer.subset member)

theorem newLock (enrolled : world.Enrolled) (name : String) (timeout : Duration)
    (logger : Logger) : (world.newLock name timeout logger).2.Enrolled := by
  -- The first entry is new; the others are entries of before under other names.
  have others {entry : String × LockId} (member : entry ∈ (world.roster.erase name).entries) :
      entry ∈ world.roster.entries ∧ entry.1 ≠ name := by
    simpa [Roster.erase] using member
  have older (entry : String × LockId)
      (member : entry ∈ (world.newLock name timeout logger).2.roster.entries) :
      entry = (name, world.locks.length) ∨ entry ∈ world.roster.entries := by
    rcases List.mem_cons.mp member with rfl | behind
    · exact .inl rfl
    · exact .inr (others behind).1
  refine ⟨List.nodup_cons.mpr ⟨?_, enrolled.distinct.sublist (List.filter_sublist.map _)⟩, ?_, ?_⟩
  · intro listed
    obtain ⟨entry, member, same⟩ := List.mem_map.mp listed
    exact (others member).2 same
  · intro entry member
    have grown : (world.newLock name timeout logger).2.locks.length = world.locks.length + 1 :=
      List.length_append
    rw [grown]
    rcases older entry member with rfl | former
    · exact Nat.lt_succ_self _
    · exact Nat.lt_succ_of_lt (enrolled.known entry former)
  · intro entry member
    rcases older entry member with rfl | former
    · rw [lock_newLock_self]
      rfl
    · rw [lock_newLock_of_lt world name timeout logger (enrolled.known entry former)]
      exact enrolled.named entry former

theorem ids_distinct (enrolled : world.Enrolled) :
    (world.roster.ordered.map Prod.snd).Nodup := by
  have sorted := (Order.sort_perm Roster.byName world.roster.entries).map Prod.snd
  unfold Roster.ordered
  rw [sorted.nodup_iff]
  have apart := enrolled.distinct
  unfold List.Nodup at apart ⊢
  rw [List.pairwise_map] at apart ⊢
  refine apart.imp_of_mem ?_
  intro a b first second different same
  apply different
  rw [← enrolled.named a first, ← enrolled.named b second, same]

theorem mem_ordered {entry : String × LockId} :
    entry ∈ world.roster.ordered ↔ entry ∈ world.roster.entries :=
  (Order.sort_perm Roster.byName world.roster.entries).mem_iff

end Enrolled

end World

theorem Call.step_roster {world world' : World} {call call' : Call}
    (step : call.step world = some (world', call')) :
    world'.locks.length = world.locks.length ∧
      world'.roster.entries.Sublist world.roster.entries := by
  unfold Call.step at step
  split at step
  · cases step
  case h_2 task rest tasks =>
    cases task with
    | enter lock access purpose point =>
        have touches := stepEnter_touches step
        rw [touches.roster]
        exact ⟨touches.count, .refl _⟩
    | leave lock access point =>
        have touches := stepLeave_touches step
        rw [touches.roster]
        exact ⟨touches.count, .refl _⟩
    | close lock =>
        simp only [stepClose, Option.some.injEq] at step
        split at step <;> cases step <;> exact ⟨rfl, .refl _⟩
    | retire lock =>
        cases step
        exact ⟨rfl, Roster.strike_sublist ..⟩
    | survey selection =>
        simp only [stepSurvey, Option.some.injEq] at step
        split at step <;> cases step <;> exact ⟨rfl, .refl _⟩
    | visit lock selection =>
        simp only [stepVisit, Option.some.injEq] at step
        split at step <;> cases step <;> exact ⟨rfl, .refl _⟩
    | demand role p value =>
        have unmoved := stepDemand_unmoved world { call with tasks := rest } role p value
        rw [Option.some.inj step] at unmoved
        rw [unmoved.locks, unmoved.roster]
        exact ⟨rfl, .refl _⟩
    | dump role p value =>
        have same := stepDump_world world { call with tasks := rest } role p value
        rw [Option.some.inj step] at same
        simp only at same
        rw [same]
        exact ⟨rfl, .refl _⟩

namespace Session

theorem enrolled_turn {session after : Session} (sound : session.Sound)
    (enrolled : session.world.Enrolled) (turn : Turn session after) : after.world.Enrolled := by
  cases turn with
  | start | finish => exact enrolled
  | @step before p later world call parts action =>
      obtain ⟨count, fewer⟩ := Call.step_roster action
      apply enrolled.shrink count fewer
      intro id
      have ordered : p.call.Orderly := sound.orderly p (by rw [parts]; simp)
      obtain ⟨target, passage, lock⟩ := Call.step_passage ordered action id
      simp only [lock]
      split
      · exact passage.name_eq
      · rfl
  | create => exact enrolled.newLock ..
  | tune tuned pending =>
      have same : after.world.roster.entries.Sublist session.world.roster.entries := by
        simp only [tuned.roster, List.Sublist.refl]
      exact enrolled.shrink tuned.count same tuned.name

theorem Reachable.enrolled {failures : Failures} {session : Session}
    (reachable : Reachable failures session) : session.world.Enrolled := by
  have both : session.Sound ∧ session.world.Enrolled := by
    apply reachable.invariant
    · exact ⟨initial_sound failures, World.initial_enrolled failures⟩
    · rintro session after ⟨sound, enrolled⟩ turn
      exact ⟨sound.turn turn, enrolled_turn sound enrolled turn⟩
  exact both.2

end Session

end GuardedDump
