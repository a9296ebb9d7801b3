import GuardedDump.Proofs.Ordered
import Mathlib.Data.List.Pairwise

namespace GuardedDump

namespace Order

variable {α : Type} {less : α → α → Prop} {entries others listed output : List α}

/-- `listed` has every entry once, strictly upward, and is what any sorting of the entries ends with:
a permutation in which nothing comes before something less. -/
structure Settles (less : α → α → Prop) (entries listed : List α) : Prop where
  once : listed.Perm entries
  increasing : listed.Pairwise less
  only : ∀ output, output.Perm entries → (output.Pairwise fun a b => ¬ less b a) → output = listed

theorem eq_of_increasing (asymm : ∀ a b, less a b → ¬ less b a) (increasing : listed.Pairwise less)
    (perm : output.Perm listed) (upward : output.Pairwise fun a b => ¬ less b a) :
    output = listed := by
  -- `upward` alone leaves ties open; there are none, since all of `listed` is comparable.
  have compared : ∀ a ∈ listed, ∀ b ∈ listed, ¬ less b a → ¬ less a b → a = b := by
    have related : listed.Pairwise fun a b => ¬ less b a → ¬ less a b → a = b :=
      increasing.imp fun below _ above => absurd below above
    have symmetric : Std.Symm fun a b => ¬ less b a → ¬ less a b → a = b :=
      ⟨fun a b equal up down => (equal down up).symm⟩
    intro a first b second
    exact related.forall_of_forall (fun _ _ _ _ => rfl) first second
  refine List.Perm.eq_of_pairwise ?_ upward (increasing.imp (asymm _ _)) perm
  intro a b first second
  exact compared a (perm.mem_iff.mp first) b second

theorem settles_of_increasing (asymm : ∀ a b, less a b → ¬ less b a) (once : listed.Perm entries)
    (increasing : listed.Pairwise less) : Settles less entries listed :=
  ⟨once, increasing, fun _ perm upward =>
    eq_of_increasing asymm increasing (perm.trans once.symm) upward⟩

theorem Settles.eq_of_perm (asymm : ∀ a b, less a b → ¬ less b a) (first : Settles less entries listed)
    (second : Settles less others output) (perm : entries.Perm others) : listed = output :=
  second.only listed (first.once.trans perm) (first.increasing.imp (asymm _ _))

end Order

namespace Table

theorem Distinct.settles {table : Table} (distinct : table.Distinct) :
    Order.Settles (fun a b => a.1.id < b.1.id) table.entries table.ordered :=
  Order.settles_of_increasing (fun _ _ => UInt64.lt_asymm) (Order.sort_perm ..)
    distinct.ordered_strict

theorem Distinct.ordered_eq {a b : Table} (distinct : a.Distinct) (perm : a.entries.Perm b.entries) :
    a.ordered = b.ordered := by
  have other : b.Distinct := (perm.map Prod.fst).nodup_iff.mp distinct
  exact distinct.settles.eq_of_perm (fun _ _ => UInt64.lt_asymm) other.settles perm

end Table

namespace Roster

variable {a b roster : Roster}

theorem settles (distinct : (roster.entries.map Prod.fst).Nodup) :
    Order.Settles (fun a b => Text.bytes a.1 < Text.bytes b.1) roster.entries roster.ordered :=
  Order.settles_of_increasing (fun _ _ => List.lt_asymm) (Order.sort_perm ..)
    (ordered_strict distinct)

theorem ordered_eq (distinct : (a.entries.map Prod.fst).Nodup) (perm : a.entries.Perm b.entries) :
    a.ordered = b.ordered := by
  have other : (b.entries.map Prod.fst).Nodup := (perm.map Prod.fst).nodup_iff.mp distinct
  exact (settles distinct).eq_of_perm (fun _ _ => List.lt_asymm) (settles other) perm

end Roster

namespace Lock

variable (lock : Lock) (now : Instant)

def holdLines (selection : Selection) : List String :=
  (lock.listing selection now).tail.dropLast

structure Sifts (selection : Selection) : Prop where
  listing : lock.listing selection now =
    lock.headLine :: (lock.holdLines now selection ++ [lock.countLine])
  lines : lock.holdLines now selection =
    (lock.table.ordered.filter fun entry => selection.shows entry.2.mode).map (holdLine now)
  whole : lock.holdLines now .all = lock.table.ordered.map (holdLine now)
  sublist : (lock.holdLines now selection).Sublist (lock.holdLines now .all)

structure Parted : Prop where
  either : ∀ entry ∈ lock.table.ordered,
    entry ∈ lock.listed .shared ↔ entry ∉ lock.listed .exclusive
  both : (lock.holdLines now .shared ++ lock.holdLines now .exclusive).Perm (lock.holdLines now .all)

theorem listing_eq (selection : Selection) : lock.listing selection now =
    lock.headLine :: ((lock.listed selection).map (holdLine now) ++ [lock.countLine]) := rfl

theorem holdLines_eq (selection : Selection) :
    lock.holdLines now selection = (lock.listed selection).map (holdLine now) := by
  rw [holdLines, listing_eq, List.tail_cons, List.dropLast_concat]

theorem listed_all : lock.listed .all = lock.table.ordered := by
  rw [listed, List.filter_eq_self]
  intro entry _
  cases entry.2.mode <;> rfl

theorem sifts (selection : Selection) : lock.Sifts now selection where
  listing := by rw [holdLines_eq, listing_eq]
  lines := lock.holdLines_eq now selection
  whole := by rw [holdLines_eq, listed_all]
  sublist := by
    rw [holdLines_eq, holdLines_eq, listed_all]
    exact List.filter_sublist.map _

theorem parted_of_modes (modes : ∀ entry ∈ lock.table.entries, ∃ access : Access,
    entry.2.mode = access.mode) : lock.Parted now := by
  have opposite : ∀ entry ∈ lock.table.ordered, Selection.exclusive.shows entry.2.mode =
      !Selection.shared.shows entry.2.mode := by
    intro entry member
    obtain ⟨access, mode⟩ := modes entry (Table.mem_ordered.mp member)
    rw [mode]
    cases access <;> rfl
  have rest : lock.listed .exclusive =
      lock.table.ordered.filter fun entry => !Selection.shared.shows entry.2.mode :=
    List.filter_congr opposite
  constructor
  · intro entry member
    rw [rest, listed, List.mem_filter, List.mem_filter]
    simp [member]
  · rw [holdLines_eq, holdLines_eq, holdLines_eq, listed_all, ← List.map_append, rest]
    exact (List.filter_append_perm _ _).map _

theorem listing_of_perm {table : Table} (distinct : lock.table.Distinct)
    (perm : lock.table.entries.Perm table.entries) (selection : Selection) :
    { lock with table := table }.listing selection now = lock.listing selection now := by
  have size : table.size = lock.table.size := perm.length_eq.symm
  rw [listing, listing, listed, listed, headLine, headLine, size, ← distinct.ordered_eq perm]
  rfl

theorem listings_ignore_order :
    (∀ a b : Table, a.Distinct → a.entries.Perm b.entries → a.ordered = b.ordered ∧
      Order.Settles (fun x y => x.1.id < y.1.id) b.entries a.ordered) ∧
    (∀ a b : Roster, (a.entries.map Prod.fst).Nodup → a.entries.Perm b.entries →
      a.ordered = b.ordered ∧
      Order.Settles (fun x y => Text.bytes x.1 < Text.bytes y.1) b.entries a.ordered) ∧
    ∀ (lock : Lock) (now : Instant),
      (∀ table : Table, lock.table.Distinct → lock.table.entries.Perm table.entries →
        ∀ selection, { lock with table := table }.listing selection now =
          lock.listing selection now) ∧
      (∀ selection, lock.Sifts now selection) ∧
      ((∀ entry ∈ lock.table.entries, ∃ access : Access, entry.2.mode = access.mode) →
        lock.Parted now) := by
  refine ⟨?_, ?_, ?_⟩
  · intro a b distinct perm
    have same := distinct.ordered_eq perm
    refine ⟨same, ?_⟩
    rw [same]
    exact Table.Distinct.settles ((perm.map Prod.fst).nodup_iff.mp distinct)
  · intro a b distinct perm
    have same := Roster.ordered_eq distinct perm
    refine ⟨same, ?_⟩
    rw [same]
    exact Roster.settles ((perm.map Prod.fst).nodup_iff.mp distinct)
  · intro lock now
    exact ⟨fun table distinct perm => lock.listing_of_perm now distinct perm, lock.sifts now,
      lock.parted_of_modes now⟩

def mixed : Table :=
  ⟨[(⟨12⟩, ⟨.shared, "read", 0, "", 2⟩), (⟨3⟩, ⟨.exclusive, "sweep", 0, "", 1⟩),
    (⟨7⟩, ⟨.shared, "dump", 0, "", 1⟩)]⟩

theorem mixed_ignores_order :
    mixed.Distinct ∧ mixed.ordered = (Table.mk mixed.entries.reverse).ordered ∧
      (Roster.mk [("a", 0), ("é", 1), ("Z", 2)]).ordered =
        (Roster.mk [("é", 1), ("Z", 2), ("a", 0)]).ordered ∧
      { create "heap" .second .standard with table := mixed }.Parted 0 := by
  obtain ⟨tables, rosters, locks⟩ := listings_ignore_order
  have distinct : mixed.Distinct := by unfold Table.Distinct; decide
  refine ⟨distinct, (tables _ _ distinct mixed.entries.reverse_perm.symm).1, ?_, ?_⟩
  · exact (rosters _ _ (by decide) (by decide)).1
  · apply (locks { create "heap" .second .standard with table := mixed } 0).2.2
    intro entry member
    have modes : ∀ entry ∈ mixed.entries, entry.2.mode = Access.mode .shared ∨
        entry.2.mode = Access.mode .exclusive := by
      decide
    exact (modes entry member).elim (fun mode => ⟨.shared, mode⟩) fun mode => ⟨.exclusive, mode⟩

end Lock

end GuardedDump
