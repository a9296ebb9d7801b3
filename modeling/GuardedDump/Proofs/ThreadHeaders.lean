import GuardedDump.Thread
import Mathlib.Data.List.TakeWhile
import Mathlib.Data.Nat.Digits.Defs

namespace GuardedDump

namespace Numeral

structure Spells (digits : List Char) (n : Nat) : Prop where
  nonempty : digits ≠ []
  all : ∀ c ∈ digits, c.isDigit = true
  value : Nat.ofDigitChars 10 digits 0 = n

theorem isDigit_iff (c : Char) : c.isDigit = true ↔ 48 ≤ c.toNat ∧ c.toNat ≤ 57 :=
  Char.isDigit_iff_toNat

theorem digit?_eq_some_iff {code d : Nat} :
    digit? code = some d ↔ ∃ c : Char, c.isDigit = true ∧ code = c.toNat ∧ d = c.toNat - 48 := by
  unfold digit?
  constructor
  · intro found
    split at found
    case isFalse => cases found
    case isTrue digit =>
      cases found
      simp only [Bool.and_eq_true, Nat.ble_eq] at digit
      have same : (Nat.digitChar (code - 48)).toNat = code := by
        rw [Nat.toNat_digitChar_of_lt_ten (by omega)]
        exact Nat.add_sub_cancel' digit.1
      refine ⟨Nat.digitChar (code - 48), ?_, same.symm, by rw [same]⟩
      rw [isDigit_iff, same]
      exact digit
  · rintro ⟨c, digit, rfl, rfl⟩
    rw [isDigit_iff] at digit
    simp [digit.1, digit.2]

theorem le_ofDigitChars (digits : List Char) (sofar : Nat) :
    sofar ≤ Nat.ofDigitChars 10 digits sofar := by
  rw [Nat.ofDigitChars_eq_ofDigitChars_zero]
  have one_le : 1 ≤ 10 ^ digits.length := Nat.one_le_pow _ _ (by decide)
  calc sofar = 1 * sofar := (Nat.one_mul sofar).symm
    _ ≤ 10 ^ digits.length * sofar := Nat.mul_le_mul_right sofar one_le
    _ ≤ 10 ^ digits.length * sofar + Nat.ofDigitChars 10 digits 0 := Nat.le_add_right _ _

/-- The value never falls while digits are read, so only the last one has to be within the limit. -/
theorem readUpTo_eq_ok_iff {limit n : Nat} {codes : List Nat} {sofar : Nat} (below : sofar ≤ limit) :
    readUpTo limit codes sofar = .ok n ↔
      ∃ digits : List Char, codes = digits.map Char.toNat ∧ (∀ c ∈ digits, c.isDigit = true) ∧
        Nat.ofDigitChars 10 digits sofar = n ∧ n ≤ limit := by
  induction codes generalizing sofar with
  | nil =>
      simp only [readUpTo, Except.ok.injEq]
      constructor
      · rintro rfl
        exact ⟨[], rfl, nofun, rfl, below⟩
      · rintro ⟨digits, none, -, value, -⟩
        rw [List.map_eq_nil_iff.mp none.symm] at value
        exact value
  | cons code rest ih =>
      constructor
      · intro read
        unfold readUpTo at read
        split at read
        · cases read
        case h_2 d found =>
          obtain ⟨c, digit, rfl, rfl⟩ := digit?_eq_some_iff.mp found
          split at read
          · cases read
          case isFalse fits =>
            rw [Nat.blt_eq, Nat.not_lt] at fits
            obtain ⟨digits, rfl, all, value, within⟩ := (ih fits).mp read
            exact ⟨c :: digits, rfl, List.forall_mem_cons.mpr ⟨digit, all⟩, value, within⟩
      · rintro ⟨digits, codes, all, value, within⟩
        obtain ⟨c, more, rfl, rfl, rfl⟩ := List.map_eq_cons_iff.mp codes.symm
        obtain ⟨digit, later⟩ := List.forall_mem_cons.mp all
        have found : digit? c.toNat = some (c.toNat - 48) :=
          digit?_eq_some_iff.mpr ⟨c, digit, rfl, rfl⟩
        rw [Nat.ofDigitChars_cons] at value
        have fits : 10 * sofar + (c.toNat - 48) ≤ limit := by
          have grows := le_ofDigitChars more (10 * sofar + (c.toNat - '0'.toNat))
          rw [value] at grows
          exact grows.trans within
        simp only [readUpTo, found, Nat.blt_eq, Nat.not_lt.mpr fits, if_false]
        exact (ih fits).mpr ⟨more, rfl, later, value, within⟩

theorem readNat_eq_ok_iff {limit n : Nat} {codes : List Nat} :
    readNat limit codes = .ok n ↔
      ∃ digits, codes = digits.map Char.toNat ∧ Spells digits n ∧ n ≤ limit := by
  cases codes with
  | nil =>
      refine ⟨nofun, ?_⟩
      rintro ⟨digits, none, spells, -⟩
      exact absurd (List.map_eq_nil_iff.mp none.symm) spells.nonempty
  | cons code rest =>
      rw [readNat, readUpTo_eq_ok_iff (Nat.zero_le limit)]
      · constructor
        · rintro ⟨digits, codes, all, value, within⟩
          have nonempty : digits ≠ [] := by
            rintro rfl
            cases codes
          exact ⟨digits, codes, ⟨nonempty, all, value⟩, within⟩
        · rintro ⟨digits, codes, spells, within⟩
          exact ⟨digits, codes, spells.all, spells.value, within⟩
      · exact nofun

theorem spells_ofNat (n : Nat) : Spells (Nat.toDigits 10 n) n where
  nonempty := Nat.toDigits_ne_nil
  all _ member := Nat.isDigit_of_mem_toDigits (by decide) (by decide) member
  value := Nat.ofDigitChars_ten_toDigits

end Numeral

theorem Text.bytes_append (a b : String) : bytes (a ++ b) = bytes a ++ bytes b := by
  simp only [bytes, String.toList_append, List.flatMap_append]

theorem Text.bytes_digits {digits : List Char} (all : ∀ c ∈ digits, c.isDigit = true) :
    (bytes (String.ofList digits)).map UInt8.toNat = digits.map Char.toNat := by
  induction digits with
  | nil => rfl
  | cons c more ih =>
      obtain ⟨digit, later⟩ := List.forall_mem_cons.mp all
      have small : c.toNat < 128 := by
        rw [Numeral.isDigit_iff] at digit
        omega
      have single : String.utf8EncodeChar c = [c.val.toUInt8] := by
        apply String.utf8EncodeChar_eq_singleton
        rw [Char.utf8Size, if_pos]
        exact UInt32.le_iff_toNat_le.mpr (Nat.le_of_lt_succ small)
      have code : c.val.toUInt8.toNat = c.toNat := by
        rw [UInt32.toNat_toUInt8]
        exact Nat.mod_eq_of_lt (small.trans (by decide))
      have head : bytes (String.ofList (c :: more)) = c.val.toUInt8 :: bytes (String.ofList more) := by
        simp only [bytes, String.toList_ofList, List.flatMap_cons, single, List.singleton_append]
      rw [head, List.map_cons, List.map_cons, code, ih later]

namespace Thread

open Numeral (Spells)

def Names (header : List UInt8) (n : Nat) : Prop :=
  ∃ digits rest, Spells digits n ∧
    header = Text.bytes ("goroutine " ++ String.ofList digits ++ " ") ++ rest

theorem byte_ne_blank {digits : List Char} (all : ∀ c ∈ digits, c.isDigit = true) :
    ∀ byte ∈ Text.bytes (String.ofList digits), (byte.toNat != 32) = true := by
  intro byte member
  have code : byte.toNat ∈ digits.map Char.toNat := by
    rw [← Text.bytes_digits all]
    exact List.mem_map_of_mem member
  obtain ⟨c, present, same⟩ := List.mem_map.mp code
  have digit := (Numeral.isDigit_iff c).mp (all c present)
  simp only [bne_iff_ne]
  omega

theorem ofNumber_of_blank {number : List UInt8} (unbroken : ∀ byte ∈ number, (byte.toNat != 32) = true)
    (rest : List UInt8) :
    ofNumber (number ++ 32 :: rest) =
      match Numeral.readNat 0xFFFFFFFFFFFFFFFF (number.map UInt8.toNat) with
      | .error _ => unknown
      | .ok n => ⟨UInt64.ofNat n⟩ := by
  have first : (number ++ 32 :: rest).takeWhile (fun byte => byte.toNat != 32) = number := by
    rw [List.takeWhile_append_of_pos unbroken, List.takeWhile_cons_of_neg (by decide),
      List.append_nil]
  have longer : number.length ≠ (number ++ 32 :: rest).length := by simp
  simp only [ofNumber, first]
  exact if_neg longer

theorem exists_blank {text : List UInt8} (known : ofNumber text ≠ unknown) :
    ∃ number rest, text = number ++ 32 :: rest ∧ ∀ byte ∈ number, (byte.toNat != 32) = true := by
  have parts : text.takeWhile (fun byte => byte.toNat != 32) ++
      text.dropWhile (fun byte => byte.toNat != 32) = text := List.takeWhile_append_dropWhile
  cases behind : text.dropWhile fun byte => byte.toNat != 32 with
  | nil =>
      rw [behind, List.append_nil] at parts
      refine absurd ?_ known
      unfold ofNumber
      rw [parts, if_pos rfl]
  | cons blank rest =>
      have stops : ¬ (blank.toNat != 32) = true := by
        have left : text.dropWhile (fun byte => byte.toNat != 32) ≠ [] := by simp [behind]
        have head := List.head_dropWhile_not (fun byte : UInt8 => byte.toNat != 32) left
        simpa only [behind, List.head_cons, Bool.not_eq_true] using head
      have same : blank = 32 := UInt8.toNat_inj.mp (by simpa using stops)
      refine ⟨text.takeWhile fun byte => byte.toNat != 32, rest, ?_, ?_⟩
      · rw [← same, ← behind, parts]
      · intro byte member
        exact List.mem_takeWhile_imp (p := fun byte : UInt8 => byte.toNat != 32) member

theorem ofNumber_eq_iff {text : List UInt8} {n : Nat} (positive : 0 < n) :
    (ofNumber text).id.toNat = n ↔
      ∃ digits rest, Spells digits n ∧ n < 2 ^ 64 ∧
        text = Text.bytes (String.ofList digits) ++ 32 :: rest := by
  constructor
  · intro read
    have known : ofNumber text ≠ unknown := by
      intro strange
      rw [strange] at read
      exact positive.ne read
    obtain ⟨number, rest, rfl, unbroken⟩ := exists_blank known
    rw [ofNumber_of_blank unbroken] at read known
    split at read
    case h_1 fault refused => rw [refused] at known; exact absurd rfl known
    case h_2 m accepted =>
      obtain ⟨digits, codes, spells, within⟩ := Numeral.readNat_eq_ok_iff.mp accepted
      have fits : m < 2 ^ 64 := Nat.lt_of_le_of_lt within (by decide)
      have same : m = n := by
        rw [← read]
        exact (UInt64.toNat_ofNat_of_lt' fits).symm
      subst same
      refine ⟨digits, rest, spells, fits, ?_⟩
      rw [← Text.bytes_digits spells.all] at codes
      rw [List.map_inj_right (fun a b => UInt8.toNat_inj.mp) |>.mp codes]
  · rintro ⟨digits, rest, spells, fits, rfl⟩
    have accepted : Numeral.readNat 0xFFFFFFFFFFFFFFFF
        ((Text.bytes (String.ofList digits)).map UInt8.toNat) = .ok n :=
      Numeral.readNat_eq_ok_iff.mpr
        ⟨digits, Text.bytes_digits spells.all, spells, Nat.le_of_lt_succ fits⟩
    rw [ofNumber_of_blank (byte_ne_blank spells.all), accepted]
    exact UInt64.toNat_ofNat_of_lt' fits

theorem reads_iff (header : List UInt8) {n : Nat} (positive : 0 < n) :
    (ofHeader header).id.toNat = n ↔ Names header n ∧ n < 2 ^ 64 := by
  have blank : Text.bytes " " = [32] := rfl
  have written (digits : List Char) (rest : List UInt8) :
      Text.bytes ("goroutine " ++ String.ofList digits ++ " ") ++ rest =
        headerStart ++ (Text.bytes (String.ofList digits) ++ 32 :: rest) := by
    simp only [Text.bytes_append, blank, List.append_assoc, List.singleton_append, headerStart]
  unfold ofHeader
  split
  case isTrue starts =>
    obtain ⟨text, rfl⟩ := List.isPrefixOf_iff_prefix.mp starts
    rw [List.drop_left, ofNumber_eq_iff positive]
    constructor
    · rintro ⟨digits, rest, spells, fits, rfl⟩
      exact ⟨⟨digits, rest, spells, (written digits rest).symm⟩, fits⟩
    · rintro ⟨⟨digits, rest, spells, same⟩, fits⟩
      rw [written, List.append_right_inj] at same
      exact ⟨digits, rest, spells, fits, same⟩
  case isFalse other =>
    constructor
    · intro strange
      exact absurd strange positive.ne
    · rintro ⟨⟨digits, rest, -, rfl⟩, -⟩
      refine absurd (List.isPrefixOf_iff_prefix.mpr ?_) other
      rw [written]
      exact List.prefix_append ..

theorem toNat_pos {t : Thread} (known : t ≠ unknown) : 0 < t.id.toNat := by
  apply Nat.pos_of_ne_zero
  intro zero
  exact known (congrArg Thread.mk (UInt64.toNat_inj.mp zero))

def trace (t : Thread) (rest : List UInt8) : List UInt8 :=
  Text.bytes (t.label ++ " [") ++ rest

theorem label_of_known {t : Thread} (known : t ≠ unknown) :
    t.label = "goroutine " ++ String.ofList (Nat.toDigits 10 t.id.toNat) := by
  have named : t.isKnown = true := by
    rw [← Bool.not_eq_false, t.isKnown_eq_false_iff]
    exact known
  rw [label, if_pos named]
  rfl

theorem names_take_trace {t : Thread} (known : t ≠ unknown) (rest : List UInt8) {size : Nat}
    (enough : 31 ≤ size) : Names ((t.trace rest).take size) t.id.toNat := by
  have spells := Numeral.spells_ofNat t.id.toNat
  have short : (Nat.toDigits 10 t.id.toNat).length ≤ 20 :=
    Nat.toDigits_length 10 _ 20 (by decide) (t.id.toNat_lt.trans (by decide))
  have parts : t.trace rest =
      Text.bytes ("goroutine " ++ String.ofList (Nat.toDigits 10 t.id.toNat) ++ " ") ++
        91 :: rest := by
    have bracket : Text.bytes " [" = Text.bytes " " ++ [91] := rfl
    simp only [trace, label_of_known known, Text.bytes_append, bracket, List.append_assoc,
      List.singleton_append]
  rw [parts, List.take_append, List.take_of_length_le]
  · exact ⟨_, _, spells, rfl⟩
  · have word : (Text.bytes "goroutine ").length = 10 := rfl
    have blank : (Text.bytes " ").length = 1 := rfl
    have digits : (Text.bytes (String.ofList (Nat.toDigits 10 t.id.toNat))).length =
        (Nat.toDigits 10 t.id.toNat).length := by
      simpa using congrArg List.length (Text.bytes_digits spells.all)
    simp only [Text.bytes_append, List.length_append, word, blank, digits]
    omega

theorem ofHeader_take_trace {t : Thread} (known : t ≠ unknown) (rest : List UInt8) {size : Nat}
    (enough : 31 ≤ size) : ofHeader ((t.trace rest).take size) = t := by
  have read := (reads_iff _ (toNat_pos known)).mpr ⟨names_take_trace known rest enough, t.id.toNat_lt⟩
  exact congrArg Thread.mk (UInt64.toNat_inj.mp read)

theorem headers_read_back :
    (∀ header n, 0 < n → ((ofHeader header).id.toNat = n ↔ Names header n ∧ n < 2 ^ 64)) ∧
    (∀ header, (∀ n, 0 < n → n < 2 ^ 64 → ¬ Names header n) → ofHeader header = unknown) ∧
    (∀ t rest, t ≠ unknown → ofTrace (t.trace rest) = t ∧ ofHeader (t.trace rest) = t) ∧
    ∀ t u rest other, t ≠ unknown → u ≠ unknown → t ≠ u →
      ofTrace (t.trace rest) ≠ ofTrace (u.trace other) := by
  have whole (t : Thread) (rest : List UInt8) (known : t ≠ unknown) :
      ofTrace (t.trace rest) = t ∧ ofHeader (t.trace rest) = t := by
    refine ⟨ofHeader_take_trace known rest (by decide), ?_⟩
    have all := ofHeader_take_trace known rest (Nat.le_add_left 31 (t.trace rest).length)
    rwa [List.take_of_length_le (Nat.le_add_right ..)] at all
  refine ⟨fun header n positive => reads_iff header positive, ?_, whole, ?_⟩
  · intro header nameless
    by_contra known
    obtain ⟨names, fits⟩ := (reads_iff header (toNat_pos known)).mp rfl
    exact nameless _ (toNat_pos known) fits names
  · intro t u rest other first second different
    rw [(whole t rest first).1, (whole u other second).1]
    exact different

theorem greatest_reads_back :
    (ofHeader (Text.bytes "goroutine 0018446744073709551615 ")).id.toNat = 18446744073709551615 ∧
      ofTrace (trace ⟨18446744073709551615⟩ (Text.bytes "chan receive, 3 minutes, locked]:\n")) =
        ⟨18446744073709551615⟩ ∧
      ofTrace (trace ⟨18446744073709551615⟩ []) ≠ ofTrace (trace ⟨18446744073709551614⟩ []) ∧
      ofHeader (Text.bytes "goroutine 18446744073709551616 [running]:") = unknown := by
  obtain ⟨reads, -, back, apart⟩ := headers_read_back
  have spells : Numeral.Spells "0018446744073709551615".toList 18446744073709551615 :=
    ⟨by decide, List.all_eq_true.mp (by decide), by decide⟩
  refine ⟨?_, ?_, ?_, by decide +kernel⟩
  · exact (reads _ _ (by decide)).mpr ⟨⟨_, [], spells, rfl⟩, by decide⟩
  · exact (back _ _ (by decide)).1
  · exact apart _ _ _ _ (by decide) (by decide) (by decide)

end Thread

end GuardedDump
