import GuardedDump.Proofs.Enrolment

namespace GuardedDump

theorem Order.sort_strict {α κ : Type} (key : α → κ) {le : α → α → Bool} {lt : α → α → Prop}
    (total : ∀ a b, le a b = false → le b a = true)
    (trans : ∀ a b c, le a b = true → le b c = true → le a c = true)
    (strict : ∀ a b, le a b = true → key a ≠ key b → lt a b) {l : List α}
    (distinct : (l.map key).Nodup) : (sort le l).Pairwise lt := by
  have apart : ((sort le l).map key).Nodup := ((sort_perm le l).map key).nodup_iff.mpr distinct
  exact List.Pairwise.imp₂ strict (sort_pairwise le total trans l) (List.pairwise_map.mp apart)

namespace Table

theorem mem_ordered {table : Table} {entry : Thread × Hold} :
    entry ∈ table.ordered ↔ entry ∈ table.entries :=
  (Order.sort_perm byThread table.entries).mem_iff

theorem length_ordered (table : Table) : table.ordered.length = table.size :=
  (Order.sort_perm byThread table.entries).length_eq

theorem Distinct.ordered_strict {table : Table} (distinct : table.Distinct) :
    table.ordered.Pairwise fun a b => a.1.id < b.1.id := by
  apply Order.sort_strict Prod.fst _ _ _ distinct
  · intro a b above
    simp only [byThread, Nat.ble_eq, Bool.eq_false_iff, ne_eq] at above ⊢
    omega
  · intro a b c first second
    simp only [byThread, Nat.ble_eq] at first second ⊢
    omega
  · intro a b below different
    simp only [byThread, Nat.ble_eq] at below
    rw [UInt64.lt_iff_toNat_lt]
    have apart : a.1.id.toNat ≠ b.1.id.toNat := by
      intro same
      exact different (congrArg Thread.mk (UInt64.toNat_inj.mp same))
    omega

end Table

namespace Text

theorem bytes_injective : Function.Injective bytes := by
  intro a b same
  have encoded : a.toList.utf8Encode = b.toList.utf8Encode := congrArg List.toByteArray same
  rwa [String.utf8Encode_toList, String.utf8Encode_toList, String.toByteArray_inj] at encoded

theorem bytesLe_cons {x y : UInt8} {left right : List UInt8} :
    bytesLe (x :: left) (y :: right) = true ↔
      x.toNat < y.toNat ∨ x.toNat = y.toNat ∧ bytesLe left right = true := by
  rw [bytesLe]
  split
  case isTrue same => simp [same]
  case isFalse different => simp [different]

theorem bytesLe_total (a b : List UInt8) (above : bytesLe a b = false) : bytesLe b a = true := by
  induction a generalizing b with
  | nil => cases above
  | cons x left ih =>
      cases b with
      | nil => rfl
      | cons y right =>
          rw [Bool.eq_false_iff, ne_eq, bytesLe_cons, not_or, not_and, Bool.not_eq_true] at above
          rw [bytesLe_cons]
          rcases Nat.lt_trichotomy y.toNat x.toNat with less | same | more
          · exact .inl less
          · exact .inr ⟨same, ih right (above.2 same.symm)⟩
          · exact absurd more above.1

theorem bytesLe_trans (a b c : List UInt8) (first : bytesLe a b = true)
    (second : bytesLe b c = true) : bytesLe a c = true := by
  induction a generalizing b c with
  | nil => rfl
  | cons x left ih =>
      cases b with
      | nil => cases first
      | cons y middle =>
          cases c with
          | nil => cases second
          | cons z right =>
              rw [bytesLe_cons] at first second ⊢
              rcases first with less | ⟨same, tails⟩
              · left
                omega
              · rcases second with less | ⟨same', tails'⟩
                · left
                  omega
                · exact .inr ⟨same.trans same', ih middle right tails tails'⟩

theorem lt_of_bytesLe {a b : List UInt8} (below : bytesLe a b = true) (different : a ≠ b) :
    a < b := by
  induction a generalizing b with
  | nil =>
      cases b with
      | nil => exact absurd rfl different
      | cons y right => exact List.nil_lt_cons ..
  | cons x left ih =>
      cases b with
      | nil => cases below
      | cons y right =>
          rw [bytesLe_cons] at below
          rw [List.cons_lt_cons_iff]
          rcases below with less | ⟨same, tails⟩
          · exact .inl (UInt8.lt_iff_toNat_lt.mpr less)
          · have equal : x = y := UInt8.toNat_inj.mp same
            subst equal
            exact .inr ⟨rfl, ih tails fun same => different (congrArg (x :: ·) same)⟩

end Text

theorem Roster.ordered_strict {roster : Roster} (distinct : (roster.entries.map Prod.fst).Nodup) :
    roster.ordered.Pairwise fun a b => Text.bytes a.1 < Text.bytes b.1 := by
  apply Order.sort_strict Prod.fst _ _ _ distinct
  · exact fun a b => Text.bytesLe_total _ _
  · exact fun a b c => Text.bytesLe_trans _ _ _
  · intro a b below different
    exact Text.lt_of_bytesLe below fun same => different (Text.bytes_injective same)

end GuardedDump
