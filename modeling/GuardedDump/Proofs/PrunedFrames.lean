import GuardedDump.Proofs.PrunedLines
import GuardedDump.Text.Numeral

namespace GuardedDump.Trace

structure Entry where
  call : String
  file : String
  line : Nat
  note : String

namespace Entry

def place (entry : Entry) : String :=
  "\t" ++ entry.file ++ ":" ++ Numeral.ofNat entry.line ++ entry.note

def lines (entry : Entry) : List String := [entry.call, entry.place]

structure Plain (entry : Entry) : Prop where
  call : '\n' ∉ entry.call.toList
  file : '\n' ∉ entry.file.toList
  note : '\n' ∉ entry.note.toList

end Entry

def ofLines (lines : List String) : String :=
  String.ofList (Text.join '\n' (lines.map String.toList))

theorem ofLines_eq (lines : List String) : ofLines lines = "\n".intercalate lines := by
  apply String.toList_injective
  rw [ofLines, Text.join_eq_intercalate, String.toList_ofList, String.toList_intercalate]
  rfl

theorem prune_ofLines {lines : List String} (unbroken : ∀ line ∈ lines, '\n' ∉ line.toList) :
    prune (ofLines lines) = ofLines (lines.filter keeps) := by
  cases lines with
  | nil => decide +kernel
  | cons first more =>
      rw [ofLines_eq, ofLines_eq, prune_eq, lines_intercalate (List.cons_ne_nil first more) unbroken]

theorem Entry.Plain.unbroken {entry : Entry} (plain : entry.Plain) :
    ∀ line ∈ entry.lines, '\n' ∉ line.toList := by
  intro line member broken
  rw [Entry.lines, List.mem_cons, List.mem_singleton] at member
  rcases member with rfl | rfl
  · exact plain.call broken
  · simp only [Entry.place, Numeral.ofNat, String.toList_append, String.toList_ofList,
      List.mem_append] at broken
    rcases broken with (((tabulator | inFile) | colon) | inLine) | inNote
    · exact absurd tabulator (by decide)
    · exact plain.file inFile
    · exact absurd colon (by decide)
    · cases Nat.isDigit_of_mem_toDigits (by decide) (by decide) inLine
    · exact plain.note inNote

def Marked (text : List Char) : Prop :=
  ∃ mark ∈ hiddenMarks, mark.toList <:+: text

instance (text : List Char) : Decidable (Marked text) :=
  inferInstanceAs (Decidable (∃ mark ∈ hiddenMarks, mark.toList <:+: text))

def Tested (text : List Char) : Prop :=
  "_test.go".toList <:+: text

instance (text : List Char) : Decidable (Tested text) :=
  inferInstanceAs (Decidable ("_test.go".toList <:+: text))

theorem keeps_iff (line : String) :
    keeps line = true ↔ Tested line.toList ∨ ¬ Marked line.toList := by
  simp only [keeps, keepsLine, Bool.or_eq_true, List.all_eq_true, Bool.not_eq_true', Tested, Marked,
    Text.occursIn_iff, ← Bool.not_eq_true, not_exists, not_and]

theorem Marked.mono {part text : List Char} (marked : Marked part) (inside : part <:+: text) :
    Marked text := by
  obtain ⟨mark, known, occurs⟩ := marked
  exact ⟨mark, known, occurs.trans inside⟩

/-- The marks that end with `c`, without it. -/
def stems (c : Char) : List (List Char) :=
  (hiddenMarks.filter fun mark => mark.toList.getLast? = some c).map fun mark => mark.toList.dropLast

theorem mem_stems {c : Char} {stem : List Char} :
    stem ∈ stems c ↔ ∃ mark ∈ hiddenMarks, mark.toList = stem ++ [c] := by
  simp only [stems, List.mem_map, List.mem_filter, decide_eq_true_eq]
  constructor
  · rintro ⟨mark, ⟨known, last⟩, rfl⟩
    obtain ⟨stem, parts⟩ := List.getLast?_eq_some_iff.mp last
    exact ⟨mark, known, by simp [parts]⟩
  · rintro ⟨mark, known, parts⟩
    exact ⟨mark, ⟨known, by simp [parts]⟩, by simp [parts]⟩

theorem marked_concat {text : List Char} {c : Char} :
    Marked (text ++ [c]) ↔ Marked text ∨ ∃ stem ∈ stems c, stem <:+ text := by
  constructor
  · rintro ⟨mark, known, occurs⟩
    rcases List.infix_concat_iff.mp occurs with last | inside
    · rcases List.suffix_concat_iff.mp last with empty | ⟨stem, parts, ends⟩
      · exact .inl ⟨mark, known, empty ▸ List.nil_infix⟩
      · exact .inr ⟨stem, mem_stems.mpr ⟨mark, known, parts⟩, ends⟩
    · exact .inl ⟨mark, known, inside⟩
  · rintro (marked | ⟨stem, member, ends⟩)
    · exact marked.mono (List.prefix_append text [c]).isInfix
    · obtain ⟨mark, known, parts⟩ := mem_stems.mp member
      exact ⟨mark, known, parts ▸ (List.suffix_concat_iff.mpr (.inr ⟨stem, rfl, ends⟩)).isInfix⟩

def Hidden (package : List Char) : Prop := Marked (package ++ ['/'])

def Own (package : List Char) : Prop := "lockeddump".toList <:+ package

instance (package : List Char) : Decidable (Hidden package) :=
  inferInstanceAs (Decidable (Marked (package ++ ['/'])))

instance (package : List Char) : Decidable (Own package) :=
  inferInstanceAs (Decidable ("lockeddump".toList <:+ package))

theorem marked_dot_iff (package : List Char) :
    Marked (package ++ ['.']) ↔ Hidden package ∨ Own package := by
  -- A mark within the name counts in both; the others end with the character behind it.
  have stems_eq : stems '.' = stems '/' ++ ["lockeddump".toList] := by decide +kernel
  rw [Hidden, marked_concat, marked_concat, stems_eq, Own, or_assoc]
  apply or_congr_right
  simp only [List.mem_append, List.mem_singleton, or_and_right, exists_or, exists_eq_left]

/-- The frame is in the directory of its package, and no mark comes from elsewhere: not from the name of
the function, nor from the names of the file and of the directories above. -/
structure Entry.LaidOut (entry : Entry) (package : List Char) : Prop where
  call : ∃ name, entry.call.toList = package ++ '.' :: name
  file : ∃ root base, entry.file.toList = root ++ '/' :: package ++ '/' :: base
  named : Marked entry.call.toList → Marked (package ++ ['.'])
  placed : Marked entry.place.toList → Hidden package
  untested : ¬ Tested entry.call.toList

theorem Entry.LaidOut.keeps_call {entry : Entry} {package : List Char}
    (laid : entry.LaidOut package) : keeps entry.call = true ↔ ¬ Hidden package ∧ ¬ Own package := by
  obtain ⟨name, call⟩ := laid.call
  have start : package ++ ['.'] <:+: entry.call.toList := ⟨[], name, by simp [call]⟩
  rw [keeps_iff, or_iff_right laid.untested, ← not_or, ← marked_dot_iff]
  exact not_congr ⟨laid.named, fun marked => marked.mono start⟩

theorem Entry.LaidOut.keeps_place {entry : Entry} {package : List Char}
    (laid : entry.LaidOut package) :
    keeps entry.place = true ↔ Tested entry.place.toList ∨ ¬ Hidden package := by
  obtain ⟨root, base, file⟩ := laid.file
  have inside : package ++ ['/'] <:+: entry.place.toList :=
    ⟨'\t' :: (root ++ ['/']), base ++ ':' :: Nat.toDigits 10 entry.line ++ entry.note.toList,
      by simp [Entry.place, Numeral.ofNat, file]⟩
  rw [keeps_iff]
  exact or_congr_right (not_congr ⟨laid.placed, fun marked => marked.mono inside⟩)

theorem frames_pruned_by_line {before after : List String} {entries : List Entry}
    (plain : ∀ entry ∈ entries, entry.Plain)
    (unbroken : ∀ line ∈ before ++ after, '\n' ∉ line.toList) :
    prune (ofLines (before ++ entries.flatMap Entry.lines ++ after)) =
      ofLines (before.filter keeps ++ entries.flatMap (fun entry => entry.lines.filter keeps) ++
        after.filter keeps) ∧
    ∀ entry ∈ entries, ∀ package, entry.LaidOut package →
      (keeps entry.call = true → keeps entry.place = true) ∧
      (keeps entry.call = keeps entry.place ↔
        ¬ (Own package ∧ ¬ Hidden package ∨
          Tested entry.place.toList ∧ (Hidden package ∨ Own package))) := by
  constructor
  · rw [prune_ofLines, List.filter_append, List.filter_append, List.filter_flatMap]
    intro line member
    simp only [List.mem_append, List.mem_flatMap] at member unbroken
    rcases member with (early | ⟨entry, present, own⟩) | late
    · exact unbroken line (.inl early)
    · exact (plain entry present).unbroken line own
    · exact unbroken line (.inr late)
  · intro entry _ package laid
    have call := laid.keeps_call
    have place := laid.keeps_place
    refine ⟨fun shown => place.mpr (.inr (call.mp shown).1), ?_⟩
    rw [Bool.eq_iff_iff, call, place]
    by_cases hidden : Hidden package <;> by_cases own : Own package <;> simp [hidden, own]

def pair : List Entry :=
  [⟨"x/lockeddump.f()", "/x/lockeddump/a.go", 1, ""⟩, ⟨"runtime.g()", "/runtime/b.go", 2, ""⟩]

theorem pair_pruned_by_line :
    prune (ofLines (["goroutine 1:"] ++ pair.flatMap Entry.lines ++ [""])) =
        ofLines ["goroutine 1:", "\t/x/lockeddump/a.go:1", ""] ∧
      pair[0].LaidOut "x/lockeddump".toList ∧ keeps pair[0].call ≠ keeps pair[0].place ∧
      pair[1].LaidOut "runtime".toList ∧ keeps pair[1].call = keeps pair[1].place := by
  have plain : ∀ entry ∈ pair, entry.Plain := by
    have checked : ∀ entry ∈ pair, '\n' ∉ entry.call.toList ∧ '\n' ∉ entry.file.toList ∧
        '\n' ∉ entry.note.toList := by
      decide +kernel
    exact fun entry member => ⟨(checked entry member).1, (checked entry member).2.1,
      (checked entry member).2.2⟩
  have library : pair[0].LaidOut "x/lockeddump".toList :=
    ⟨⟨"f()".toList, by decide +kernel⟩, ⟨[], "a.go".toList, by decide +kernel⟩,
      fun _ => by decide +kernel, by decide +kernel, by decide +kernel⟩
  have machinery : pair[1].LaidOut "runtime".toList :=
    ⟨⟨"g()".toList, by decide +kernel⟩, ⟨[], "b.go".toList, by decide +kernel⟩,
      fun _ => by decide +kernel, fun _ => by decide +kernel, by decide +kernel⟩
  obtain ⟨pruned, frames⟩ := @frames_pruned_by_line ["goroutine 1:"] [""] pair plain
    (by decide +kernel)
  refine ⟨?_, library, ?_, machinery, ?_⟩
  · rw [pruned]
    decide +kernel
  · rw [ne_eq, (frames pair[0] (by simp [pair]) _ library).2, not_not]
    exact .inl ⟨by decide +kernel, by decide +kernel⟩
  · rw [(frames pair[1] (by simp [pair]) _ machinery).2]
    decide +kernel

def farewell : Entry :=
  ⟨"github.com/christophcemper/lockeddump.DefaultFatalHandler()",
    "/src/github.com/christophcemper/lockeddump/assert.go", 124, ""⟩

theorem own_place_is_orphaned :
    farewell.Plain ∧ keeps farewell.call = false ∧ keeps farewell.place = true ∧
      prune (ofLines farewell.lines) = farewell.place := by
  have plain : farewell.Plain := ⟨by decide +kernel, by decide +kernel, by decide +kernel⟩
  have call : keeps farewell.call = false := by decide +kernel
  have place : keeps farewell.place = true := by decide +kernel
  have shown : farewell.lines.filter keeps = [farewell.place] := by simp [Entry.lines, call, place]
  refine ⟨plain, call, place, ?_⟩
  rw [prune_ofLines plain.unbroken, shown]
  exact String.ofList_toList

end GuardedDump.Trace
