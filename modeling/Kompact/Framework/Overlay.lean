import Mathlib.Data.List.Infix

/-!
# Layers of nested tables

A tree of tables by what stands at each path: a leaf, a table or nothing. One
such layer is laid over another: its leaves and tables come first, and a leaf
hides what the layer below has at the longer paths.

With several layers on top of each other, what is seen at a path comes from
the topmost layer that has something there, if none above it hides the path
(`stack_eq_some_iff`).
-/

namespace Kompact

inductive Node (L : Type) where
  | leaf (value : L)
  | table

/-- What stands at each path. -/
abbrev Layer (K L : Type) := List K → Option (Node L)

namespace Layer

variable {K L : Type} {bottom top : Layer K L} {p : List K} {n : Node L}

/-- There is a leaf at a proper prefix of the path. -/
def Hides (top : Layer K L) (p : List K) : Prop := ∃ q l, q <+: p ∧ q ≠ p ∧ top q = some (.leaf l)

/-- What is below can be seen. -/
def Clear (top : Layer K L) (p : List K) : Prop := top p = none ∧ ¬ top.Hides p

open Classical in
/-- `top` laid over `bottom`. -/
noncomputable def layOver (bottom top : Layer K L) : Layer K L := fun p =>
  if top.Clear p then bottom p else top p

theorem layOver_eq_some_iff : bottom.layOver top p = some n ↔ top p = some n ∨ top.Clear p ∧ bottom p = some n := by
  unfold layOver
  split
  · rename_i h
    simp [h, h.1]
  · rename_i h
    simp [h]

/-- The layers in turn over `bottom`. -/
noncomputable def stack (bottom : Layer K L) (layers : List (Layer K L)) : Layer K L := layers.foldl layOver bottom

theorem stack_concat (bottom : Layer K L) (layers : List (Layer K L)) (top : Layer K L) :
    bottom.stack (layers ++ [top]) = (bottom.stack layers).layOver top := by
  simp [stack]

/-- What is seen at a path comes from the topmost layer that has something there. -/
theorem stack_eq_some_iff {layers : List (Layer K L)} :
    bottom.stack layers p = some n ↔ (bottom p = some n ∧ ∀ layer ∈ layers, layer.Clear p) ∨
      ∃ below layer above, layers = below ++ layer :: above ∧ layer p = some n ∧ ∀ l ∈ above, l.Clear p := by
  induction layers using List.reverseRecOn with
  | nil => simp [stack]
  | append_singleton layers top ih =>
    rw [stack_concat, layOver_eq_some_iff, ih]
    constructor
    · rintro (htop | ⟨hclear, ⟨hbottom, hall⟩ | ⟨below, layer, above, rfl, hlayer, hall⟩⟩)
      · exact .inr ⟨layers, top, [], rfl, htop, fun _ hl => absurd hl List.not_mem_nil⟩
      · refine .inl ⟨hbottom, fun l hl => ?_⟩
        rcases List.mem_append.mp hl with hl | hl
        · exact hall l hl
        · rwa [List.mem_singleton.mp hl]
      · refine .inr ⟨below, layer, above ++ [top], by simp, hlayer, fun l hl => ?_⟩
        rcases List.mem_append.mp hl with hl | hl
        · exact hall l hl
        · rwa [List.mem_singleton.mp hl]
    · rintro (⟨hbottom, hall⟩ | ⟨below, layer, above, heq, hlayer, hall⟩)
      · exact .inr ⟨hall top (by simp), .inl ⟨hbottom, fun l hl => hall l (by simp [hl])⟩⟩
      · -- the top one is `layer` itself, or above it
        rcases List.eq_nil_or_concat above with rfl | ⟨above, last, rfl⟩
        · obtain ⟨-, hlast⟩ := List.append_inj' heq rfl
          obtain rfl := (List.cons.inj hlast).1
          exact .inl hlayer
        · rw [List.concat_eq_append] at heq hall
          rw [← List.cons_append, ← List.append_assoc] at heq
          obtain ⟨rfl, hlast⟩ := List.append_inj' heq rfl
          obtain rfl := (List.cons.inj hlast).1
          exact .inr ⟨hall top (by simp), .inr ⟨below, layer, above, rfl, hlayer, fun l hl => hall l (by simp [hl])⟩⟩

end Layer

end Kompact
