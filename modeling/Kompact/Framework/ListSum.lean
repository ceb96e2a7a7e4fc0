import Mathlib.Algebra.Order.BigOperators.Group.List
import Mathlib.Algebra.Order.Ring.Nat

/-!
# Sums over a list that changes in one place

The same for what the elements contain, up to order.
-/

namespace Kompact

variable {α : Type} {l : List α} {k : Nat} {x : α}

theorem eq_take_append_drop_of_getElem? (h : l[k]? = some x) : l = l.take k ++ x :: l.drop (k + 1) := by
  obtain ⟨hk, rfl⟩ := List.getElem?_eq_some_iff.mp h
  rw [← List.drop_eq_getElem_cons hk, List.take_append_drop]

theorem sum_map_set (f : α → Nat) (h : l[k]? = some x) (y : α) :
    ((l.set k y).map f).sum + f x = (l.map f).sum + f y := by
  obtain ⟨hk, -⟩ := List.getElem?_eq_some_iff.mp h
  have hl := congrArg (fun l => (l.map f).sum) (eq_take_append_drop_of_getElem? h)
  simp only [List.map_append, List.map_cons, List.sum_append, List.sum_cons] at hl
  rw [List.set_eq_take_append_cons_drop, if_pos hk]
  simp only [List.map_append, List.map_cons, List.sum_append, List.sum_cons]
  omega

theorem sum_map_eraseIdx (f : α → Nat) (h : l[k]? = some x) :
    ((l.eraseIdx k).map f).sum + f x = (l.map f).sum := by
  have hl := congrArg (fun l => (l.map f).sum) (eq_take_append_drop_of_getElem? h)
  simp only [List.map_append, List.map_cons, List.sum_append, List.sum_cons] at hl
  rw [List.eraseIdx_eq_take_drop_succ]
  simp only [List.map_append, List.sum_append]
  omega

theorem sum_map_modify (f : α → Nat) (g : α → α) (h : l[k]? = some x) :
    ((l.modify k g).map f).sum + f x = (l.map f).sum + f (g x) := by
  have hm : l.modify k g = l.set k (g x) := by
    rw [List.modify_eq_set_getElem?, h]
    rfl
  rw [hm]
  exact sum_map_set f h (g x)

/-- Any other element of the list is still there when one is taken out. -/
theorem mem_eraseIdx_of_ne {y : α} (hy : y ∈ l) (h : l[k]? = some x) (hne : y ≠ x) : y ∈ l.eraseIdx k := by
  rw [eq_take_append_drop_of_getElem? h] at hy
  rw [List.eraseIdx_eq_take_drop_succ, List.mem_append]
  rcases List.mem_append.mp hy with hy | hy
  · exact .inl hy
  · exact .inr ((List.mem_cons.mp hy).resolve_left hne)

/-- What the elements contain: what one of them does, and what the others do. -/
theorem flatMap_perm_eraseIdx {β : Type} (f : α → List β) (h : l[k]? = some x) :
    (l.flatMap f).Perm (f x ++ (l.eraseIdx k).flatMap f) := by
  have hl : l.flatMap f = (l.take k).flatMap f ++ (f x ++ (l.drop (k + 1)).flatMap f) := by
    conv_lhs => rw [eq_take_append_drop_of_getElem? h]
    rw [List.flatMap_append, List.flatMap_cons]
  rw [hl, List.eraseIdx_eq_take_drop_succ, List.flatMap_append]
  exact List.perm_append_comm_assoc ..

theorem flatMap_set_perm {β : Type} (f : α → List β) (h : l[k]? = some x) (y : α) :
    ((l.set k y).flatMap f).Perm (f y ++ (l.eraseIdx k).flatMap f) := by
  obtain ⟨hk, -⟩ := List.getElem?_eq_some_iff.mp h
  have hset : (l.set k y)[k]? = some y := List.getElem?_set_self hk
  have hp := flatMap_perm_eraseIdx f hset
  rwa [List.eraseIdx_set_eq] at hp

end Kompact
