namespace GuardedDump.Order

variable {α : Type}

def insert (le : α → α → Bool) (x : α) : List α → List α
  | [] => [x]
  | y :: rest => if le x y then x :: y :: rest else y :: insert le x rest

def sort (le : α → α → Bool) : List α → List α
  | [] => []
  | x :: rest => insert le x (sort le rest)

theorem insert_perm (le : α → α → Bool) (x : α) (l : List α) : (insert le x l).Perm (x :: l) := by
  induction l with
  | nil => exact .refl _
  | cons y rest ih =>
    unfold insert
    split
    · exact .refl _
    · exact (ih.cons y).trans (.swap x y rest)

theorem sort_perm (le : α → α → Bool) (l : List α) : (sort le l).Perm l := by
  induction l with
  | nil => exact .refl _
  | cons x rest ih => exact (insert_perm le x _).trans (ih.cons x)

theorem insert_pairwise (le : α → α → Bool) (total : ∀ a b, le a b = false → le b a = true)
    (trans : ∀ a b c, le a b = true → le b c = true → le a c = true) (x : α) (l : List α)
    (sorted : l.Pairwise fun a b => le a b = true) :
    (insert le x l).Pairwise fun a b => le a b = true := by
  induction l with
  | nil => simp [insert]
  | cons y rest ih =>
    obtain ⟨first, upward⟩ := List.pairwise_cons.mp sorted
    unfold insert
    split
    case isTrue below =>
      refine List.pairwise_cons.mpr ⟨?_, sorted⟩
      intro z member
      rcases List.mem_cons.mp member with rfl | later
      · exact below
      · exact trans x y z below (first z later)
    case isFalse above =>
      refine List.pairwise_cons.mpr ⟨?_, ih upward⟩
      intro z member
      rcases List.mem_cons.mp ((insert_perm le x rest).mem_iff.mp member) with rfl | later
      · exact total z y (by simpa using above)
      · exact first z later

theorem sort_pairwise (le : α → α → Bool) (total : ∀ a b, le a b = false → le b a = true)
    (trans : ∀ a b c, le a b = true → le b c = true → le a c = true) (l : List α) :
    (sort le l).Pairwise fun a b => le a b = true := by
  induction l with
  | nil => exact .nil
  | cons x rest ih => exact insert_pairwise le total trans x _ ih

end GuardedDump.Order
