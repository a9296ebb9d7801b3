import GuardedDump.Hold
import GuardedDump.Proofs.CallSites
import GuardedDump.Proofs.Cutting

namespace GuardedDump

namespace Frame

/-- Names and files stand on one line, and files not behind blanks. -/
structure Plain (frame : Frame) : Prop where
  function : '\n' ∉ frame.function.toList
  file : '\n' ∉ frame.file.toList
  start : ∀ c ∈ frame.file.toList.head?, Text.isBlank c = false

structure Nearest (stack : List Frame) (frame : Frame) : Prop where
  application : frame.isApplication = true
  reached : ∃ inner outer, stack = inner ++ frame :: outer ∧ inner.length < window ∧
    ∀ other ∈ inner, other.isApplication = false

theorem Nearest.find? {stack : List Frame} {frame : Frame} (nearest : Nearest stack frame) :
    (stack.take window).find? isApplication = some frame := by
  obtain ⟨application, inner, outer, rfl, near, internal⟩ := nearest
  obtain ⟨beyond, depth⟩ := Nat.exists_eq_add_of_lt near
  rw [List.find?_eq_some_iff_append]
  refine ⟨application, inner, outer.take beyond, ?_, ?_⟩
  · rw [depth, Nat.add_assoc, List.take_length_add_append, List.take_succ_cons]
  · intro other member
    rw [internal other member]
    rfl

theorem collect_of_find? {frames : List Frame} {frame : Frame}
    (found : frames.find? isApplication = some frame) (limit : Nat) :
    ∃ further, collect (limit + 1) frames = frame :: further := by
  rw [← List.head?_filter] at found
  obtain ⟨further, application⟩ := List.head?_eq_some_iff.mp found
  exact ⟨further.take limit, by rw [collect_eq, application, List.take_succ_cons]⟩

theorem collect_of_internal {frames : List Frame}
    (internal : ∀ frame ∈ frames, frame.isApplication = false) (limit : Nat) :
    collect limit frames = [] := by
  have none : frames.filter isApplication = [] := by
    rw [List.filter_eq_nil_iff]
    intro frame member
    rw [internal frame member]
    exact Bool.false_ne_true
  rw [collect_eq, none, List.take_nil]

theorem Nearest.origin {stack : List Frame} {frame : Frame} (nearest : Nearest stack frame) :
    ∃ further, origin stack = entries (frame :: further) := by
  obtain ⟨further, collected⟩ := collect_of_find? nearest.find? 2
  refine ⟨further, ?_⟩
  have frames : Frame.nearest 3 stack = frame :: further := collected
  rw [Frame.origin, frames]

theorem Nearest.callSite {stack : List Frame} {frame : Frame} (nearest : Nearest stack frame) :
    callSite stack = frame.place := by
  rw [callSite_eq, nearest.find?]
  rfl

theorem shortName_spec (frame : Frame) : '/' ∉ frame.shortName.toList ∧
    (frame.function = frame.shortName ∨
      ∃ path, frame.function = path ++ "/" ++ frame.shortName) := by
  obtain ⟨unbroken, parts⟩ := Text.afterLast_spec '/' frame.function.toList
  have name : frame.shortName.toList = Text.afterLast '/' frame.function.toList :=
    String.toList_ofList
  rw [← name] at unbroken parts
  refine ⟨unbroken, parts.imp String.toList_injective ?_⟩
  rintro ⟨front, whole⟩
  refine ⟨String.ofList front, String.toList_injective ?_⟩
  rw [whole, String.toList_append, String.toList_append, String.toList_ofList, List.append_assoc]
  rfl

theorem toList_place (frame : Frame) :
    frame.place.toList = frame.file.toList ++ ':' :: Nat.toDigits 10 frame.line := by
  simp [place, Numeral.ofNat]

theorem Plain.shortName {frame : Frame} (plain : frame.Plain) : '\n' ∉ frame.shortName.toList := by
  intro broken
  rw [Frame.shortName, String.toList_ofList] at broken
  exact plain.function (Text.afterLast_subset '/' _ broken)

theorem isDigit_of_mem_line {frame : Frame} {c : Char} (member : c ∈ Nat.toDigits 10 frame.line) :
    c.isDigit = true :=
  Nat.isDigit_of_mem_toDigits (by decide) (by decide) member

theorem Plain.place {frame : Frame} (plain : frame.Plain) : '\n' ∉ frame.place.toList := by
  rw [toList_place, List.mem_append, List.mem_cons]
  rintro (inFile | colon | inLine)
  · exact plain.file inFile
  · cases colon
  · cases isDigit_of_mem_line inLine

/-- The tabulator in front of a place is all that trimming takes away: a place ends with a digit. -/
theorem Plain.strips {frame : Frame} (plain : frame.Plain) :
    Text.Strips ('\t' :: frame.place.toList) frame.place.toList where
  around := ⟨['\t'], [], by simp, List.all_eq_true.mp (by decide), nofun⟩
  first := by
    intro c first
    rw [toList_place, List.head?_append] at first
    cases start : frame.file.toList.head? with
    | none =>
        rw [start] at first
        cases first
        rfl
    | some d =>
        rw [start] at first
        cases first
        exact plain.start _ start
  last := by
    intro c last
    have digits : (Nat.toDigits 10 frame.line).getLast? = some c := by
      rw [toList_place, List.getLast?_append, List.getLast?_cons] at last
      cases final : (Nat.toDigits 10 frame.line).getLast? with
      | none => exact absurd (List.getLast?_eq_none_iff.mp final) Nat.toDigits_ne_nil
      | some d =>
          rw [final] at last
          exact last
    exact Text.isBlank_of_isDigit (isDigit_of_mem_line (List.mem_of_getLast? digits))

theorem toList_entries (frame : Frame) (further : List Frame) :
    ∃ rest, (entries (frame :: further)).toList =
        frame.shortName.toList ++ '\n' :: ('\t' :: frame.place.toList ++ rest) ∧
      (rest = [] ∨ ∃ more, rest = '\n' :: more) := by
  cases further with
  | nil => exact ⟨[], by simp [entries, entry], .inl rfl⟩
  | cons next more =>
      exact ⟨'\n' :: (entries (next :: more)).toList, by simp [entries, entry], .inr ⟨_, rfl⟩⟩

end Frame

namespace Hold

theorem place_of_two_lines {hold : Hold} {name line rest : List Char}
    (origin : hold.origin.toList = name ++ '\n' :: (line ++ rest)) (first : '\n' ∉ name)
    (second : '\n' ∉ line) (ends : rest = [] ∨ ∃ more, rest = '\n' :: more) :
    hold.place = String.ofList name ++ " " ++ String.ofList (Text.trimChars line) := by
  unfold place
  rw [origin, Text.pieces_append first]
  rcases ends with rfl | ⟨more, rfl⟩
  -- One frame ends with its second line, and more frames follow on lines of their own.
  · rw [List.append_nil, Text.pieces_single second]
  · rw [Text.pieces_append second]

theorem place_of_entries {hold : Hold} {frame : Frame} {further : List Frame} (plain : frame.Plain)
    (recorded : hold.origin = Frame.entries (frame :: further)) :
    hold.place = frame.shortName ++ " " ++ frame.place := by
  obtain ⟨rest, written, ends⟩ := frame.toList_entries further
  rw [← recorded] at written
  have second : '\n' ∉ '\t' :: frame.place.toList := by
    rw [List.mem_cons, not_or]
    exact ⟨by decide, plain.place⟩
  rw [place_of_two_lines written plain.shortName second ends, Text.strips_iff.mp plain.strips,
    String.ofList_toList, String.ofList_toList]

theorem place_reads_origin {stack : List Frame} {hold : Hold} (plain : ∀ frame ∈ stack, frame.Plain)
    (recorded : hold.origin = Frame.origin stack) :
    (∀ frame, Frame.Nearest stack frame →
      hold.place = frame.shortName ++ " " ++ Frame.callSite stack ∧
      Frame.callSite stack = frame.file ++ ":" ++ Numeral.ofNat frame.line ∧
      '/' ∉ frame.shortName.toList ∧ (frame.function = frame.shortName ∨
        ∃ path, frame.function = path ++ "/" ++ frame.shortName)) ∧
    ((∀ frame ∈ stack.take Frame.window, frame.isApplication = false) →
      Frame.origin stack = "unknown" ∧ Frame.callSite stack = "unknown" ∧ hold.place = "unknown") := by
  constructor
  · intro frame nearest
    obtain ⟨further, written⟩ := nearest.origin
    obtain ⟨inner, outer, parts, -, -⟩ := nearest.reached
    have member : frame ∈ stack := by
      rw [parts]
      exact List.mem_append_right inner List.mem_cons_self
    rw [nearest.callSite]
    exact ⟨place_of_entries (plain frame member) (recorded.trans written), rfl, frame.shortName_spec⟩
  · intro internal
    have nothing (limit : Int) : Frame.nearest limit stack = [] :=
      Frame.collect_of_internal internal limit.toNat
    have origin : Frame.origin stack = "unknown" := by
      rw [Frame.origin, nothing]
      rfl
    refine ⟨origin, ?_, ?_⟩
    · rw [Frame.callSite, nothing]
      rfl
    · rw [place, recorded, origin]
      rfl

def walking : List Frame :=
  [⟨"runtime.call32", "asm.s", 7⟩, ⟨"tree/node.(*N).Walk", "/a b.go", 31⟩, ⟨"main.main", "", 0⟩]

theorem walking_place :
    Frame.Nearest walking ⟨"tree/node.(*N).Walk", "/a b.go", 31⟩ ∧
      (Hold.mk .shared "dump" 0 (Frame.origin walking) 1).place = "node.(*N).Walk /a b.go:31" ∧
      (Hold.mk .shared "dump" 0 (Frame.origin (walking.take 1)) 1).place = "unknown" := by
  have plain : ∀ frame ∈ walking, frame.Plain := by
    have checked : ∀ frame ∈ walking, '\n' ∉ frame.function.toList ∧ '\n' ∉ frame.file.toList ∧
        (frame.file.toList.head?.all fun c => !Text.isBlank c) = true := by
      decide +kernel
    intro frame member
    obtain ⟨function, file, start⟩ := checked frame member
    refine ⟨function, file, ?_⟩
    intro c first
    rw [Option.mem_def.mp first] at start
    simpa using start
  have internal : ∀ frame ∈ walking.take 1, frame.isApplication = false := by decide +kernel
  have nearest : Frame.Nearest walking ⟨"tree/node.(*N).Walk", "/a b.go", 31⟩ :=
    ⟨by decide +kernel, walking.take 1, walking.drop 2, rfl, by decide, internal⟩
  refine ⟨nearest, ?_, ?_⟩
  · obtain ⟨read, site, -⟩ :=
      (@place_reads_origin walking ⟨.shared, "dump", 0, Frame.origin walking, 1⟩ plain rfl).1 _ nearest
    rw [read, site]
    decide +kernel
  · exact ((@place_reads_origin (walking.take 1)
      ⟨.shared, "dump", 0, Frame.origin (walking.take 1), 1⟩
      (fun frame member => plain frame (List.mem_of_mem_take member)) rfl).2 internal).2.2

end Hold

end GuardedDump
