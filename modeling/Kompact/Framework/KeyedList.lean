import Mathlib.Data.List.Nodup

/-!
# Lists of keyed entries

A list of pairs as a map from its keys, for types that recur through their
own maps, where a finite map with its invariant inside cannot stand.
-/

namespace Kompact.KeyedList

variable {K A : Type} [BEq K]

/-- `a` at `k`, in the place of what was there, or at the end. -/
def set : List (K × A) → K → A → List (K × A)
  | [], k, a => [(k, a)]
  | (k', a') :: rest, k, a => if k' == k then (k, a) :: rest else (k', a') :: set rest k a

def erase (l : List (K × A)) (k : K) : List (K × A) := l.filter (fun p => !(p.1 == k))

variable [LawfulBEq K]

theorem lookup_cons_of_ne {k k' : K} (h : k' ≠ k) (a : A) (l : List (K × A)) :
    ((k, a) :: l).lookup k' = l.lookup k' := by
  rw [List.lookup_cons, beq_false_of_ne h]

theorem lookup_set (l : List (K × A)) (k k' : K) (a : A) :
    (set l k a).lookup k' = if k' == k then some a else l.lookup k' := by
  induction l with
  | nil =>
    by_cases h : k' = k
    · simp [set, h]
    · simp [set, h, lookup_cons_of_ne h]
  | cons p l ih =>
    obtain ⟨k₁, a₁⟩ := p
    by_cases h : k₁ = k
    · subst h
      by_cases h' : k' = k₁
      · simp [set, h']
      · simp [set, h', lookup_cons_of_ne h']
    · by_cases h' : k' = k₁
      · simp [set, h, h']
      · simp [set, h, lookup_cons_of_ne h', ih]

theorem lookup_erase (l : List (K × A)) (k k' : K) :
    (erase l k).lookup k' = if k' == k then none else l.lookup k' := by
  unfold erase
  induction l with
  | nil => simp
  | cons p l ih =>
    obtain ⟨k₁, a₁⟩ := p
    by_cases h : k₁ = k
    · subst h
      by_cases h' : k' = k₁
      · simp only [h', beq_self_eq_true, if_true] at ih
        simp [h', ih]
      · simp [ih, lookup_cons_of_ne h']
    · by_cases h' : k' = k₁
      · simp [h, h']
      · simp [h, lookup_cons_of_ne h', ih]

theorem set_set (l : List (K × A)) (k : K) (a b : A) : set (set l k a) k b = set l k b := by
  induction l with
  | nil => simp [set]
  | cons p l ih => by_cases h : p.1 = k <;> simp [set, h, ih]

omit [LawfulBEq K] in
theorem mem_set {l : List (K × A)} {k : K} {a : A} {p : K × A} (h : p ∈ set l k a) : p = (k, a) ∨ p ∈ l := by
  induction l with
  | nil => exact .inl (List.mem_singleton.mp h)
  | cons q l ih =>
    unfold set at h
    split at h
    · exact (List.mem_cons.mp h).imp_right (List.mem_cons_of_mem q)
    · rcases List.mem_cons.mp h with rfl | h
      · exact .inr List.mem_cons_self
      · exact (ih h).imp_right (List.mem_cons_of_mem q)

omit [LawfulBEq K] in
theorem set_ne_nil (l : List (K × A)) (k : K) (a : A) : set l k a ≠ [] := by
  cases l with
  | nil => exact List.cons_ne_nil _ _
  | cons p l =>
    unfold set
    split <;> exact List.cons_ne_nil _ _

/-- Setting an entry keeps the keys distinct. -/
theorem nodup_set {l : List (K × A)} (h : (l.map Prod.fst).Nodup) (k : K) (a : A) :
    ((set l k a).map Prod.fst).Nodup := by
  induction l with
  | nil => simp [set]
  | cons p l ih =>
    obtain ⟨hp, hl⟩ := List.nodup_cons.mp h
    unfold set
    split
    · rename_i hk
      exact List.nodup_cons.mpr ⟨eq_of_beq hk ▸ hp, hl⟩
    · rename_i hk
      refine List.nodup_cons.mpr ⟨fun hmem => ?_, ih hl⟩
      obtain ⟨q, hq, hqp⟩ := List.mem_map.mp hmem
      rcases mem_set hq with rfl | hq
      · exact hk (beq_iff_eq.mpr hqp.symm)
      · exact hp (hqp ▸ List.mem_map_of_mem hq)

omit [LawfulBEq K] in
theorem nodup_erase {l : List (K × A)} (h : (l.map Prod.fst).Nodup) (k : K) :
    ((erase l k).map Prod.fst).Nodup :=
  h.sublist (List.filter_sublist.map Prod.fst)

/-- Where the keys are distinct, an entry is what is found at its key. -/
theorem lookup_eq_some_iff_mem {l : List (K × A)} (h : (l.map Prod.fst).Nodup) {k : K} {a : A} :
    l.lookup k = some a ↔ (k, a) ∈ l := by
  induction l with
  | nil => simp
  | cons p l ih =>
    obtain ⟨k₁, a₁⟩ := p
    obtain ⟨hp, hl⟩ := List.nodup_cons.mp h
    by_cases hk : k = k₁
    · subst hk
      have hnot : (k, a) ∉ l := fun hmem => hp (List.mem_map.mpr ⟨_, hmem, rfl⟩)
      simp [hnot, eq_comm]
    · simp [lookup_cons_of_ne hk, hk, ih hl]

theorem lookup_map {B : Type} (f : A → B) (l : List (K × A)) (k : K) :
    (l.map fun p => (p.1, f p.2)).lookup k = (l.lookup k).map f := by
  induction l with
  | nil => rfl
  | cons p l ih =>
    obtain ⟨k₁, a₁⟩ := p
    by_cases hk : k = k₁
    · simp [hk]
    · simp only [List.map_cons, lookup_cons_of_ne hk, ih]

/-- Where the keys are distinct, an entry that is left out is not found. -/
theorem lookup_filter {l : List (K × A)} (h : (l.map Prod.fst).Nodup) (q : A → Bool) (k : K) :
    (l.filter fun p => q p.2).lookup k = (l.lookup k).filter q := by
  have hsub : ((l.filter fun p => q p.2).map Prod.fst).Nodup := h.sublist (List.filter_sublist.map Prod.fst)
  refine Option.ext fun a => ?_
  rw [lookup_eq_some_iff_mem hsub, List.mem_filter, Option.filter_eq_some_iff, lookup_eq_some_iff_mem h]

end Kompact.KeyedList
