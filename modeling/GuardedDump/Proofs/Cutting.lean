import GuardedDump.Text.Blank
import GuardedDump.Text.Lines
import Mathlib.Data.List.TakeWhile

namespace GuardedDump.Text

theorem pieces_eq_splitOn (separator : Char) (text : List Char) :
    pieces separator text = text.splitOn separator := by
  induction text with
  | nil => rfl
  | cons c rest ih =>
      rw [pieces, ih, List.splitOn_cons_eq_if_modifyHead]
      by_cases same : c = separator
      · simp [same]
      · obtain ⟨piece, more, cut⟩ := List.exists_cons_of_ne_nil (List.splitOn_ne_nil separator rest)
        simp [same, cut]

theorem join_eq_intercalate (separator : Char) (lines : List (List Char)) :
    join separator lines = [separator].intercalate lines := by
  fun_induction join separator lines with
  | case1 => rfl
  | case2 piece => rw [List.intercalate_singleton]
  | case3 piece next more ih => rw [ih, List.intercalate_cons_cons, List.append_assoc]; rfl

theorem pieces_append {separator : Char} {piece : List Char} (unbroken : separator ∉ piece)
    (rest : List Char) :
    pieces separator (piece ++ separator :: rest) = piece :: pieces separator rest := by
  rw [pieces_eq_splitOn, pieces_eq_splitOn, List.splitOn_append_cons_self_of_not_mem unbroken]

theorem pieces_single {separator : Char} {piece : List Char} (unbroken : separator ∉ piece) :
    pieces separator piece = [piece] := by
  rw [pieces_eq_splitOn, List.splitOn_eq_singleton unbroken]

theorem pieces_unbroken (separator : Char) (text : List Char) :
    ∀ piece ∈ pieces separator text, separator ∉ piece := by
  fun_induction pieces separator text with
  | case1 => simp
  | case2 rest ih =>
      intro piece member
      rcases List.mem_cons.mp member with rfl | later
      · exact List.not_mem_nil
      · exact ih piece later
  | case3 c rest other cut ih => simp [Ne.symm other]
  | case4 c rest other first more cut ih =>
      intro piece member
      rw [cut] at ih
      rcases List.mem_cons.mp member with rfl | later
      · rw [List.mem_cons, not_or]
        exact ⟨Ne.symm other, ih first List.mem_cons_self⟩
      · exact ih piece (List.mem_cons_of_mem first later)

theorem afterLast_spec (separator : Char) (text : List Char) :
    separator ∉ afterLast separator text ∧ (text = afterLast separator text ∨
      ∃ front, text = front ++ separator :: afterLast separator text) := by
  by_cases found : separator ∈ text
  · obtain ⟨after, before, parts, absent⟩ :=
      List.eq_append_cons_of_mem (List.mem_reverse.mpr found)
    have whole : text = before.reverse ++ separator :: after.reverse := by
      rw [← text.reverse_reverse, parts]
      simp
    have unbroken : separator ∉ after.reverse := by rwa [List.mem_reverse]
    have last : afterLast separator text = after.reverse := by
      rw [whole, afterLast, pieces_eq_splitOn, List.splitOn_append_cons_self,
        List.splitOn_eq_singleton unbroken, List.getLast?_concat]
      rfl
    rw [last]
    exact ⟨unbroken, .inr ⟨before.reverse, whole⟩⟩
  · have last : afterLast separator text = text := by
      rw [afterLast, pieces_single found]
      rfl
    rw [last]
    exact ⟨found, .inl rfl⟩

theorem afterLast_subset (separator : Char) (text : List Char) : afterLast separator text ⊆ text := by
  intro c member
  rcases (afterLast_spec separator text).2 with same | ⟨front, parts⟩
  · rwa [same]
  · rw [parts]
    exact List.mem_append_right front (List.mem_cons_of_mem separator member)

theorem occursIn_iff {needle text : List Char} : occursIn needle text = true ↔ needle <:+: text := by
  induction text with
  | nil => simp [occursIn]
  | cons c rest ih =>
      rw [occursIn, Bool.or_eq_true, ih, List.isPrefixOf_iff_prefix, List.infix_cons_iff]

structure Strips (text core : List Char) : Prop where
  around : ∃ front back, text = front ++ core ++ back ∧ (∀ c ∈ front, isBlank c = true) ∧
    ∀ c ∈ back, isBlank c = true
  first : ∀ c ∈ core.head?, isBlank c = false
  last : ∀ c ∈ core.getLast?, isBlank c = false

theorem isBlank_of_isDigit {c : Char} (digit : c.isDigit = true) : isBlank c = false := by
  have range : 48 ≤ c.toNat ∧ c.toNat ≤ 57 := Char.isDigit_iff_toNat.mp digit
  rw [isBlank, ← Bool.not_eq_true]
  simp only [Bool.or_eq_true, Bool.and_eq_true, Nat.ble_eq, beq_iff_eq]
  omega

theorem dropWhile_blank {front rest : List Char} (blank : ∀ c ∈ front, isBlank c = true)
    (stops : ∀ c ∈ rest.head?, isBlank c = false) : (front ++ rest).dropWhile isBlank = rest := by
  rw [List.dropWhile_append_of_pos blank]
  cases rest with
  | nil => rfl
  | cons c more => exact List.dropWhile_cons_of_neg (by simp [stops c rfl])

theorem head?_dropWhile_blank (text : List Char) :
    ∀ c ∈ (text.dropWhile isBlank).head?, isBlank c = false := by
  intro c first
  have stops := List.head?_dropWhile_not isBlank text
  rw [Option.mem_def.mp first] at stops
  exact stops

theorem strips_trimChars (text : List Char) : Strips text (trimChars text) := by
  have middle : text.dropWhile isBlank = trimChars text ++
      ((text.dropWhile isBlank).reverse.takeWhile isBlank).reverse := by
    rw [trimChars, ← List.reverse_append, List.takeWhile_append_dropWhile, List.reverse_reverse]
  refine ⟨⟨text.takeWhile isBlank, ((text.dropWhile isBlank).reverse.takeWhile isBlank).reverse,
    ?_, ?_, ?_⟩, ?_, ?_⟩
  · rw [List.append_assoc, ← middle, List.takeWhile_append_dropWhile]
  · exact fun c member => List.mem_takeWhile_imp member
  · exact fun c member => List.mem_takeWhile_imp (List.mem_reverse.mp member)
  · intro c first
    apply head?_dropWhile_blank text c
    rw [middle, List.head?_append, Option.mem_def.mp first]
    rfl
  · intro c last
    rw [trimChars, List.getLast?_reverse] at last
    exact head?_dropWhile_blank _ c last

theorem strips_iff {text core : List Char} : Strips text core ↔ trimChars text = core := by
  constructor
  · rintro ⟨⟨front, back, rfl, before, after⟩, first, last⟩
    have behind : ∀ c ∈ back.reverse, isBlank c = true :=
      fun c member => after c (List.mem_reverse.mp member)
    have stops : ∀ c ∈ core.reverse.head?, isBlank c = false := by rwa [List.head?_reverse]
    cases core with
    | nil =>
        have blank : ∀ c ∈ front ++ [] ++ back, isBlank c = true := by
          simpa [or_imp, forall_and] using And.intro before after
        rw [trimChars, List.dropWhile_eq_nil_iff.mpr blank]
        rfl
    | cons c more =>
        rw [trimChars, List.append_assoc, dropWhile_blank before (by simpa using first),
          List.reverse_append, dropWhile_blank behind stops, List.reverse_reverse]
  · rintro rfl
    exact strips_trimChars text

end GuardedDump.Text
