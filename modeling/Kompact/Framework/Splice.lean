import Mathlib.Data.List.Basic

/-!
# Overwriting a range of a list

`splice xs pos ys` is the list `xs` with `ys` in the place of the elements
from `pos` on. Two splices next to each other are one (`splice_splice`).
-/

namespace Kompact

variable {α : Type}

/-- Overwrite `xs` from `pos` on with `ys`. -/
def splice (xs : List α) (pos : Nat) (ys : List α) : List α := xs.take pos ++ ys ++ xs.drop (pos + ys.length)

@[simp] theorem splice_nil (xs : List α) (pos : Nat) : splice xs pos [] = xs := by
  simp [splice]

theorem splice_zero (xs ys : List α) : splice xs 0 ys = ys ++ xs.drop ys.length := by
  simp [splice]

/-- In the first part of a list. -/
theorem splice_append_left {xs ys zs : List α} {pos : Nat} (h : pos + ys.length ≤ xs.length) :
    splice (xs ++ zs) pos ys = splice xs pos ys ++ zs := by
  simp only [splice]
  rw [List.take_append_of_le_length (by omega), List.drop_append_of_le_length h, List.append_assoc, List.append_assoc,
    List.append_assoc]

/-- In the second part of a list. -/
theorem splice_append_right {xs ys zs : List α} {pos : Nat} (h : xs.length ≤ pos) :
    splice (xs ++ zs) pos ys = xs ++ splice zs (pos - xs.length) ys := by
  have hdrop : pos + ys.length - xs.length = pos - xs.length + ys.length := by omega
  simp only [splice, List.take_append, List.drop_append, List.take_of_length_le h,
    List.drop_of_length_le (show xs.length ≤ pos + ys.length by omega), hdrop, List.nil_append, List.append_assoc]

/-- Two splices next to each other are one. -/
theorem splice_splice {xs ys zs : List α} {pos : Nat} (h : pos + ys.length ≤ xs.length) :
    splice (splice xs pos ys) (pos + ys.length) zs = splice xs pos (ys ++ zs) := by
  have hlen : (xs.take pos ++ ys).length = pos + ys.length := by
    rw [List.length_append, List.length_take]; omega
  have hright : splice (xs.take pos ++ ys ++ xs.drop (pos + ys.length)) (pos + ys.length) zs = _ :=
    splice_append_right (Nat.le_of_eq hlen)
  rw [hlen, Nat.sub_self, splice_zero, List.drop_drop] at hright
  simp only [splice, List.length_append, ← Nat.add_assoc]
  rw [← List.append_assoc (xs.take pos), List.append_assoc (xs.take pos ++ ys)]
  exact hright

end Kompact
