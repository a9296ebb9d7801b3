import GuardedDump.Frame

namespace GuardedDump.Frame

theorem walk_nil (limit : Nat) (found : List Frame) : walk limit found [] = found := by
  have skipped : note found blank = found := rfl
  rw [walk, skipped, ite_self]

theorem walk_cons_of_full {limit : Nat} {found : List Frame} (full : limit ≤ found.length)
    (frame : Frame) (ahead : List Frame) : walk limit found (frame :: ahead) = found := by
  rw [walk, if_neg (Nat.not_lt.mpr full)]

/-- The walk that ends at the outermost frame finds as much as one that would go on. -/
theorem walk_cons_of_room {limit : Nat} {found : List Frame} (room : found.length < limit)
    (frame : Frame) (ahead : List Frame) :
    walk limit found (frame :: ahead) = walk limit (note found frame) ahead := by
  rw [walk, if_pos room]
  cases ahead with
  | nil => rw [walk_nil]; rfl
  | cons next more => rfl

theorem walk_eq (limit : Nat) (found frames : List Frame) :
    walk limit found frames =
      found ++ (frames.filter isApplication).take (limit - found.length) := by
  induction frames generalizing found with
  | nil => rw [walk_nil, List.filter_nil, List.take_nil, List.append_nil]
  | cons frame ahead ih =>
      rcases Nat.lt_or_ge found.length limit with room | full
      · rw [walk_cons_of_room room, ih, note]
        by_cases application : frame.isApplication = true
        · -- One place fewer is left for the frames ahead.
          have left : limit - found.length = limit - (found.length + 1) + 1 := by omega
          rw [if_pos application, List.filter_cons_of_pos application, left, List.take_succ_cons,
            List.length_append, List.length_singleton, List.append_assoc, List.singleton_append]
        · rw [if_neg application, List.filter_cons_of_neg application]
      · rw [walk_cons_of_full full, Nat.sub_eq_zero_of_le full, List.take_zero, List.append_nil]

theorem collect_eq (limit : Nat) (frames : List Frame) :
    collect limit frames = (frames.filter isApplication).take limit :=
  walk_eq limit [] frames

def withinReach (stack : List Frame) : List Frame :=
  (stack.take 32).filter fun frame => frame.function ≠ "" ∧ frame.isInternal = false

theorem isApplication_iff (frame : Frame) :
    frame.isApplication = true ↔ frame.function ≠ "" ∧ frame.isInternal = false := by
  rw [isApplication, Bool.and_eq_true, Bool.not_eq_true', Bool.not_eq_true', ← Bool.not_eq_true,
    String.isEmpty_iff]

theorem nearest_eq (limit : Int) (stack : List Frame) :
    nearest limit stack = (withinReach stack).take limit.toNat := by
  rw [nearest, collect_eq, window, withinReach]
  congr 2
  funext frame
  rw [Bool.eq_iff_iff, isApplication_iff, decide_eq_true_iff]

structure Foremost (limit : Int) (stack frames : List Frame) : Prop where
  first : frames = (withinReach stack).take limit.toNat
  none : limit ≤ 0 → frames = []
  application : ∀ frame ∈ frames, frame.function ≠ "" ∧ frame.isInternal = false
  whole : frames.length < limit → frames = withinReach stack
  grows : ∀ more, limit ≤ more → frames <+: nearest more stack

theorem nearest_are_first (limit : Int) (stack : List Frame) :
    Foremost limit stack (nearest limit stack) where
  first := nearest_eq limit stack
  none nonpositive := by
    rw [nearest_eq, Int.toNat_of_nonpos nonpositive, List.take_zero]
  application frame member := by
    rw [nearest_eq] at member
    exact of_decide_eq_true (List.mem_filter.mp (List.mem_of_mem_take member)).2
  whole short := by
    rw [nearest_eq] at short ⊢
    apply List.take_of_length_le
    rw [List.length_take] at short
    omega
  grows more le := by
    rw [nearest_eq, nearest_eq]
    exact List.take_prefix_take_left (Int.toNat_le_toNat le)

end GuardedDump.Frame
