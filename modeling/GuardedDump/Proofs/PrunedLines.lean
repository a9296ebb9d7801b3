import GuardedDump.Proofs.Cutting
import GuardedDump.Trace

namespace GuardedDump.Trace

namespace Sieve

/-- The first `count` lines were read. Their cells may be overwritten, those behind them are not. -/
structure Sifted (lines : List (List Char)) (count : Nat) (sieve : Sieve) : Prop where
  size : sieve.cells.size = lines.length
  behind : sieve.kept ≤ count
  kept : sieve.result = (lines.take count).filter keepsLine
  unread : sieve.cells.toList.drop count = lines.drop count

theorem result_keep {sieve : Sieve} (room : sieve.kept < sieve.cells.size) (line : List Char) :
    (sieve.keep line).result = sieve.result ++ [line] := by
  have size : sieve.result.length = sieve.kept := by
    rw [result, List.length_take, Array.length_toList]
    exact Nat.min_eq_left (Nat.le_of_lt room)
  have cells : (sieve.keep line).cells.toList =
      sieve.result ++ [line] ++ sieve.cells.toList.drop (sieve.kept + 1) := by
    rw [keep, Array.toList_setIfInBounds, List.set_eq_take_append_cons_drop, Array.length_toList,
      if_pos room, List.append_assoc]
    rfl
  rw [result, cells]
  apply List.take_left'
  rw [List.length_append, size]
  rfl

variable {lines : List (List Char)} {count : Nat} {sieve : Sieve}

theorem Sifted.cell (sifted : sieve.Sifted lines count) : sieve.cells[count]? = lines[count]? := by
  have first := congrArg (fun rest => rest[0]?) sifted.unread
  simpa only [List.getElem?_drop, Nat.add_zero, Array.getElem?_toList] using first

theorem Sifted.unread_succ (sifted : sieve.Sifted lines count) :
    sieve.cells.toList.drop (count + 1) = lines.drop (count + 1) := by
  rw [← List.tail_drop, sifted.unread, List.tail_drop]

theorem Sifted.filter_succ (sifted : sieve.Sifted lines count) :
    (lines.take (count + 1)).filter keepsLine =
      sieve.result ++ lines[count]?.toList.filter keepsLine := by
  rw [List.take_add_one, List.filter_append, sifted.kept]

theorem Sifted.skip (sifted : sieve.Sifted lines count)
    (dropped : lines[count]?.toList.filter keepsLine = []) : sieve.Sifted lines (count + 1) where
  size := sifted.size
  behind := Nat.le_succ_of_le sifted.behind
  kept := by rw [sifted.filter_succ, dropped, List.append_nil]
  unread := sifted.unread_succ

theorem Sifted.keep (sifted : sieve.Sifted lines count) {line : List Char}
    (turn : lines[count]? = some line) (keeps : keepsLine line = true) :
    (sieve.keep line).Sifted lines (count + 1) where
  size := (Array.size_setIfInBounds ..).trans sifted.size
  behind := Nat.succ_le_succ sifted.behind
  kept := by
    obtain ⟨within, -⟩ := List.getElem?_eq_some_iff.mp turn
    have room : sieve.kept < sieve.cells.size := by
      rw [sifted.size]
      exact Nat.lt_of_le_of_lt sifted.behind within
    rw [result_keep room, sifted.filter_succ, turn, Option.toList_some,
      List.filter_cons_of_pos keeps, List.filter_nil]
  unread := by
    -- The cell that is written is one of those that were read.
    have read : sieve.kept < count + 1 := Nat.lt_succ_of_le sifted.behind
    rw [Sieve.keep, Array.toList_setIfInBounds, List.drop_set_of_lt read, sifted.unread_succ]

theorem Sifted.read (sifted : sieve.Sifted lines count) :
    (sieve.read count).Sifted lines (count + 1) := by
  unfold Sieve.read
  rw [sifted.cell]
  split
  case h_1 turn => exact sifted.skip (by rw [turn]; rfl)
  case h_2 line turn =>
    split
    case isTrue keeps => exact sifted.keep turn keeps
    case isFalse drops =>
      apply sifted.skip
      rw [turn, Option.toList_some, List.filter_cons_of_neg drops, List.filter_nil]

theorem sifted_after (lines : List (List Char)) (count : Nat) :
    (after lines count).Sifted lines count := by
  induction count with
  | zero => exact ⟨List.size_toArray, Nat.le_refl 0, rfl, rfl⟩
  | succ count ih => exact ih.read

end Sieve

theorem sift_eq_filter (lines : List (List Char)) : sift lines = lines.filter keepsLine := by
  rw [sift, (Sieve.sifted_after lines lines.length).kept, List.take_length]

def lines (text : String) : List String :=
  (text.toList.splitOn '\n').map String.ofList

theorem lines_unbroken (text : String) : ∀ line ∈ lines text, '\n' ∉ line.toList := by
  intro line member
  obtain ⟨piece, cut, rfl⟩ := List.mem_map.mp member
  rw [← Text.pieces_eq_splitOn] at cut
  rw [String.toList_ofList]
  exact Text.pieces_unbroken '\n' text.toList piece cut

theorem intercalate_lines (text : String) : "\n".intercalate (lines text) = text := by
  apply String.toList_injective
  rw [String.toList_intercalate, lines, List.map_map]
  simp only [Function.comp_def, String.toList_ofList, List.map_id']
  exact List.intercalate_splitOn '\n'

theorem lines_intercalate {texts : List String} (nonempty : texts ≠ [])
    (unbroken : ∀ line ∈ texts, '\n' ∉ line.toList) : lines ("\n".intercalate texts) = texts := by
  have cut : (texts.map String.toList).map String.ofList = texts := by
    simp only [List.map_map, Function.comp_def, String.ofList_toList, List.map_id']
  rw [lines, String.toList_intercalate]
  refine (congrArg _ (List.splitOn_intercalate '\n' ?_ ?_)).trans cut
  · intro line member
    obtain ⟨text, present, rfl⟩ := List.mem_map.mp member
    exact unbroken text present
  · rwa [ne_eq, List.map_eq_nil_iff]

theorem prune_eq (trace : String) :
    prune trace = "\n".intercalate ((lines trace).filter keeps) := by
  apply String.toList_injective
  rw [prune, String.toList_ofList, pruneChars, sift_eq_filter, Text.join_eq_intercalate,
    Text.pieces_eq_splitOn, String.toList_intercalate, lines, List.filter_map, List.map_map]
  simp only [Function.comp_def, keeps, String.toList_ofList, List.map_id']
  rfl

theorem lines_prune {trace : String} (found : ∃ line ∈ lines trace, keeps line = true) :
    lines (prune trace) = (lines trace).filter keeps := by
  obtain ⟨line, present, keeps⟩ := found
  rw [prune_eq]
  apply lines_intercalate (List.ne_nil_of_mem (List.mem_filter.mpr ⟨present, keeps⟩))
  intro line member
  exact lines_unbroken trace line (List.mem_filter.mp member).1

theorem prune_of_none {trace : String} (dropped : ∀ line ∈ lines trace, keeps line = false) :
    prune trace = "" := by
  have nothing : (lines trace).filter keeps = [] := by
    rw [List.filter_eq_nil_iff]
    intro line present
    rw [dropped line present]
    exact Bool.false_ne_true
  rw [prune_eq, nothing]
  rfl

theorem keeps_of_mem_lines_prune {trace line : String} (member : line ∈ lines (prune trace)) :
    keeps line = true := by
  by_cases found : ∃ line ∈ lines trace, keeps line = true
  · rw [lines_prune found] at member
    exact (List.mem_filter.mp member).2
  · -- The empty text still has one line, and that one is kept.
    rw [prune_of_none (by simpa using found)] at member
    cases List.mem_singleton.mp member
    decide +kernel

theorem prune_prune (trace : String) : prune (prune trace) = prune trace := by
  have clean : (lines (prune trace)).filter keeps = lines (prune trace) :=
    List.filter_eq_self.mpr fun _ member => keeps_of_mem_lines_prune member
  rw [prune_eq (prune trace), clean, intercalate_lines]

structure Pruned (trace shorter : String) : Prop where
  text : shorter = "\n".intercalate ((lines trace).filter keeps)
  kept : (∃ line ∈ lines trace, keeps line = true) →
    lines shorter = (lines trace).filter keeps
  empty : (∀ line ∈ lines trace, keeps line = false) → shorter = ""
  clean : ∀ line ∈ lines shorter, keeps line = true
  again : prune shorter = shorter
  intact : ∀ count, (Sieve.after (Text.pieces '\n' trace.toList) count).cells[count]?.map
    String.ofList = (lines trace)[count]?

theorem pruned_lines_are_kept (trace : String) : Pruned trace (prune trace) where
  text := prune_eq trace
  kept := lines_prune
  empty := prune_of_none
  clean _ := keeps_of_mem_lines_prune
  again := prune_prune trace
  intact count := by
    rw [(Sieve.sifted_after _ count).cell, Text.pieces_eq_splitOn, lines, List.getElem?_map]

end GuardedDump.Trace
