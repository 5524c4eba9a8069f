/-!
Cutting a list at the first occurrence of a mark. Lines, comments and quotations all end there.
-/

set_option autoImplicit false

namespace StackMachine.Cut

variable {α : Type} [DecidableEq α]

/-- All that stands before the first mark; the whole list if there is none. -/
def before (mark : α) (list : List α) : List α :=
  list.takeWhile (· ≠ mark)

/-- All that stands after the first mark; nothing if there is none. -/
def after (mark : α) (list : List α) : List α :=
  (list.dropWhile (· ≠ mark)).drop 1

theorem before_append_after {mark : α} {list : List α} (found : mark ∈ list) :
    before mark list ++ mark :: after mark list = list := by
  induction list with
  | nil => simp at found
  | cons a list ih =>
    by_cases here : a = mark
    · simp [before, after, here]
    · have later : mark ∈ list := by simpa [Ne.symm here] using found
      simpa [before, after, here] using ih later

theorem mark_not_mem_before (mark : α) (list : List α) : mark ∉ before mark list := by
  intro found
  have passed := List.all_eq_true.mp (List.all_takeWhile (l := list)) mark found
  simp at passed

theorem length_after_lt {mark : α} {list : List α} (nonempty : list ≠ []) :
    (after mark list).length < list.length := by
  have shorter := (List.dropWhile_sublist (l := list) (· ≠ mark)).length_le
  have positive := List.length_pos_iff.mpr nonempty
  rw [after, List.length_drop]
  omega

end StackMachine.Cut
