import GuardedDump.Proofs.Cutting
import GuardedDump.Response
import Mathlib.Data.List.Forall2

namespace GuardedDump

namespace Text

/-- `c` is a way to write a small letter: itself, its capital, the dotted capital for `i` and the sign of
the kelvin for `k`. -/
def Writes (c letter : Char) : Prop :=
  c = letter ∨ c = letter.toUpper ∨ letter = 'i' ∧ c = Char.ofNat 0x130 ∨
    letter = 'k' ∧ c = Char.ofNat 0x212A

def Spells (text : List Char) (word : String) : Prop :=
  List.Forall₂ Writes text word.toList

def isSmall (c : Char) : Bool :=
  Nat.ble 97 c.toNat && Nat.ble c.toNat 122

theorem isSmall_iff {c : Char} : isSmall c = true ↔ 97 ≤ c.toNat ∧ c.toNat ≤ 122 := by
  rw [isSmall, Bool.and_eq_true, Nat.ble_eq, Nat.ble_eq]

theorem toNat_toUpper {letter : Char} (small : isSmall letter = true) :
    letter.toUpper.toNat + 32 = letter.toNat := by
  obtain ⟨least, most⟩ := isSmall_iff.mp small
  have alphabet : ∀ code < 123, 97 ≤ code → (Char.ofNat code).toUpper.toNat + 32 = code := by decide
  have shifted := alphabet letter.toNat (Nat.lt_succ_of_le most) least
  rwa [Char.ofNat_toNat] at shifted

theorem toNat_ofNat (n : Nat) : (Char.ofNat n).toNat = if n.isValidChar then n else 0 := by
  by_cases valid : n.isValidChar
  · have found : Char.ofNat n = Char.ofNatAux n valid := dif_pos valid
    rw [found, if_pos valid]
    rfl
  · have missing : Char.ofNat n = '\x00' := dif_neg valid
    rw [missing, if_neg valid]
    rfl

theorem lower_of_ascii {c letter : Char} (small : isSmall letter = true) (ascii : c.toNat < 128) :
    lower c = letter ↔ c = letter ∨ c = letter.toUpper := by
  have range := isSmall_iff.mp small
  have capital := toNat_toUpper small
  have shifted : (Char.ofNat (c.toNat + 32)).toNat = c.toNat + 32 := by
    rw [toNat_ofNat, if_pos (.inl (by omega))]
  simp only [lower, Nat.blt_eq, ascii, if_true, Bool.and_eq_true, Nat.ble_eq, ← Char.toNat_inj]
  split <;> omega

theorem small_of_mem_capitals : ∀ run ∈ capitals, 128 ≤ run.small ∨
    run = ⟨0x130, 0x130, 1, 'i'.toNat⟩ ∨ run = ⟨0x212A, 0x212A, 1, 'k'.toNat⟩ := by
  decide +kernel

theorem lower_of_beyond {c letter : Char} (small : isSmall letter = true) (beyond : 128 ≤ c.toNat) :
    lower c = letter ↔ letter = 'i' ∧ c = Char.ofNat 0x130 ∨ letter = 'k' ∧ c = Char.ofNat 0x212A := by
  have range := isSmall_iff.mp small
  constructor
  · intro same
    rw [lower, if_neg (by simpa using beyond)] at same
    split at same
    case h_1 => rw [same] at beyond; omega
    case h_2 run found =>
      have covered := List.find?_some found
      simp only [Capitals.covers, Bool.and_eq_true, Nat.ble_eq] at covered
      rcases small_of_mem_capitals run (List.mem_of_find?_eq_some found) with far | rfl | rfl
      · have code := toNat_ofNat (run.small + (c.toNat - run.first))
        rw [same] at code
        split at code <;> omega
      · have only : c.toNat = 0x130 := Nat.le_antisymm covered.1.2 covered.1.1
        rw [only] at same
        exact .inl ⟨same.symm, by rw [← only, Char.ofNat_toNat]⟩
      · have only : c.toNat = 0x212A := Nat.le_antisymm covered.1.2 covered.1.1
        rw [only] at same
        exact .inr ⟨same.symm, by rw [← only, Char.ofNat_toNat]⟩
  · rintro (⟨rfl, rfl⟩ | ⟨rfl, rfl⟩) <;> decide +kernel

theorem lower_eq_iff {c letter : Char} (small : isSmall letter = true) :
    lower c = letter ↔ Writes c letter := by
  have range := isSmall_iff.mp small
  have capital := toNat_toUpper small
  unfold Writes
  rcases Nat.lt_or_ge c.toNat 128 with ascii | beyond
  · have others : ¬ (letter = 'i' ∧ c = Char.ofNat 0x130 ∨ letter = 'k' ∧ c = Char.ofNat 0x212A) := by
      rintro (⟨-, rfl⟩ | ⟨-, rfl⟩) <;> exact absurd ascii (by decide)
    rw [lower_of_ascii small ascii, ← or_assoc, or_iff_left others]
  · have ascii : ¬ (c = letter ∨ c = letter.toUpper) := by
      rintro (rfl | rfl) <;> omega
    rw [lower_of_beyond small beyond, ← or_assoc, or_iff_right ascii]

theorem map_lower_eq_iff {text word : List Char} (small : ∀ letter ∈ word, isSmall letter = true) :
    text.map lower = word ↔ List.Forall₂ Writes text word := by
  induction text generalizing word with
  | nil => simp [eq_comm]
  | cons c rest ih =>
      cases word with
      | nil => simp
      | cons letter more =>
          obtain ⟨first, later⟩ := List.forall_mem_cons.mp small
          rw [List.map_cons, List.cons.injEq, lower_eq_iff first, ih later, List.forall₂_cons]

end Text

namespace Response

open Text (Spells Strips)

inductive Names : List Char → Response → Prop
  | nothing : Names [] .fatal
  | fatal {core : List Char} (spelled : Spells core "fatal") : Names core .fatal
  | warn {core : List Char} (spelled : Spells core "warn") : Names core .warn
  | warning {core : List Char} (spelled : Spells core "warning") : Names core .warn

theorem ofWord?_eq_some_iff {core : List Char} {response : Response} :
    ofWord? (core.map Text.lower) = some response ↔ Names core response := by
  have fatal := @Text.map_lower_eq_iff core "fatal".toList (List.all_eq_true.mp (by decide))
  have warn := @Text.map_lower_eq_iff core "warn".toList (List.all_eq_true.mp (by decide))
  have warning := @Text.map_lower_eq_iff core "warning".toList (List.all_eq_true.mp (by decide))
  unfold ofWord?
  constructor
  · intro read
    split at read
    case isTrue word =>
      cases read
      rcases Bool.or_eq_true _ _ |>.mp word with empty | word
      · rw [List.map_eq_nil_iff.mp (of_decide_eq_true empty)]
        exact .nothing
      · exact .fatal (fatal.mp (of_decide_eq_true word))
    case isFalse =>
      split at read
      case isTrue word =>
        cases read
        rcases Bool.or_eq_true _ _ |>.mp word with word | word
        · exact .warn (warn.mp (of_decide_eq_true word))
        · exact .warning (warning.mp (of_decide_eq_true word))
      case isFalse => cases read
  · intro names
    cases names with
    | nothing => rfl
    | fatal spelled => rw [fatal.mpr spelled]; rfl
    | warn spelled => rw [warn.mpr spelled]; rfl
    | warning spelled => rw [warning.mpr spelled]; rfl

theorem words_are_read (text : String) :
    ∃ core, (∀ other, Strips text.toList other ↔ other = core) ∧
      (∀ response, read text = (response, none) ↔ Names core response) ∧
      ((read text).2 = none ↔ ∃ response, Names core response) ∧
      (read text = (.fatal, some (unknownMessage text)) ↔ ∀ response, ¬ Names core response) := by
  refine ⟨Text.trimChars text.toList, ?_, ?_⟩
  · intro other
    rw [Text.strips_iff, eq_comm]
  · simp only [← ofWord?_eq_some_iff, read, parse?]
    cases ofWord? ((Text.trimChars text.toList).map Text.lower) <;> simp

example : read "\u2003wARNİng\u0085" = (.warn, none) := by decide +kernel

end Response

end GuardedDump
