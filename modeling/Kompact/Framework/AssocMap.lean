import Mathlib.Data.List.AList

/-!
# Finite maps

Association lists with values of one type, and what lookups find after a
change.
-/

namespace Kompact

/-- A finite map from `K` to `V`. -/
abbrev AssocMap (K V : Type) : Type := AList (fun _ : K => V)

namespace AssocMap

variable {K V : Type} [DecidableEq K]

theorem lookup_insert (m : AssocMap K V) (a b : K) (v : V) :
    (AList.insert b v m).lookup a = if a = b then some v else m.lookup a := by
  by_cases h : a = b
  · subst h
    rw [if_pos rfl]
    exact AList.lookup_insert m
  · rw [if_neg h]
    exact AList.lookup_insert_ne h

theorem lookup_erase (m : AssocMap K V) (a b : K) :
    (m.erase b).lookup a = if a = b then none else m.lookup a := by
  by_cases h : a = b
  · subst h
    rw [if_pos rfl]
    exact AList.lookup_erase a m
  · rw [if_neg h]
    exact AList.lookup_erase_ne h

theorem mem_keys_of_lookup {m : AssocMap K V} {a : K} {v : V} (h : m.lookup a = some v) : a ∈ m.keys :=
  AList.mem_keys.mp (AList.lookup_isSome.mp (by rw [h]; rfl))

/-- What is at `a`, or `v` if nothing is. -/
def lookupD (m : AssocMap K V) (a : K) (v : V) : V := (m.lookup a).getD v

theorem lookupD_insert (m : AssocMap K V) (a b : K) (v w : V) :
    lookupD (AList.insert b v m) a w = if a = b then v else m.lookupD a w := by
  unfold lookupD
  rw [lookup_insert]
  split <;> rfl

theorem lookupD_erase (m : AssocMap K V) (a b : K) (w : V) :
    lookupD (m.erase b) a w = if a = b then w else m.lookupD a w := by
  unfold lookupD
  rw [lookup_erase]
  split <;> rfl

/-- Insert `v` at `a` unless there is something (`entry(a).or_insert(v)`). -/
def orInsert (m : AssocMap K V) (a : K) (v : V) : AssocMap K V :=
  if a ∈ m then m else m.insert a v

theorem mem_orInsert (m : AssocMap K V) (a b : K) (v : V) : a ∈ m.orInsert b v ↔ a = b ∨ a ∈ m := by
  unfold orInsert
  split
  · rename_i h
    refine ⟨.inr, ?_⟩
    rintro (rfl | ha)
    · exact h
    · exact ha
  · exact AList.mem_insert m

/-- The entries whose value satisfies `q`. -/
def filterValues (m : AssocMap K V) (q : V → Bool) : AssocMap K V :=
  ⟨m.entries.filter fun e => q e.2, m.nodupKeys.sublist List.filter_sublist⟩

theorem lookup_filterValues (m : AssocMap K V) (q : V → Bool) (a : K) :
    (filterValues m q).lookup a = (m.lookup a).filter q := by
  refine Option.ext fun v => ?_
  rw [Option.filter_eq_some_iff, ← Option.mem_def, ← Option.mem_def, AList.mem_lookup_iff, AList.mem_lookup_iff]
  exact List.mem_filter

theorem lookup_foldl_erase (keys : List K) (m : AssocMap K V) (a : K) :
    (keys.foldl (fun m k => m.erase k) m).lookup a = if a ∈ keys then none else m.lookup a := by
  induction keys generalizing m with
  | nil => simp
  | cons k keys ih =>
    rw [List.foldl_cons, ih, lookup_erase]
    by_cases ha : a ∈ keys <;> by_cases hk : a = k <;> simp [ha, hk]

/-- Erasing the keys whose values are found unfit keeps the others. -/
theorem lookup_eraseValues (m : AssocMap K V) (delete : V → Bool) (a : K) :
    (((m.entries.filter fun e => delete e.2).map Sigma.fst).foldl (fun m k => m.erase k) m).lookup a =
      (m.lookup a).filter fun v => !delete v := by
  rw [lookup_foldl_erase]
  cases hm : m.lookup a with
  | none =>
    rw [ite_self]
    rfl
  | some v =>
    have hmem : ⟨a, v⟩ ∈ m.entries := AList.mem_lookup_iff.mp hm
    have hkey : a ∈ (m.entries.filter fun e => delete e.2).map Sigma.fst ↔ delete v = true := by
      rw [List.mem_map]
      constructor
      · rintro ⟨⟨b, w⟩, he, rfl⟩
        obtain ⟨he, hdelete⟩ := List.mem_filter.mp he
        have hw : m.lookup b = some w := AList.mem_lookup_iff.mpr he
        rw [hm] at hw
        obtain rfl := Option.some.inj hw
        exact hdelete
      · intro hdelete
        exact ⟨⟨a, v⟩, List.mem_filter.mpr ⟨hmem, hdelete⟩, rfl⟩
    by_cases hd : delete v = true
    · simp [hkey.mpr hd, Option.filter, hd]
    · simp [mt hkey.mp hd, Option.filter, hd]

/-- Maps with the same lookups have as many entries. -/
theorem length_of_lookup {m m' : AssocMap K V} (h : ∀ a, m.lookup a = m'.lookup a) :
    m.entries.length = m'.entries.length := by
  refine (List.lookup_ext m.nodupKeys m'.nodupKeys fun a v => ?_).length_eq
  show v ∈ m.lookup a ↔ v ∈ m'.lookup a
  rw [h]

omit [DecidableEq K] in
theorem keys_eq_nil_iff {m : AssocMap K V} : m.keys = [] ↔ ∀ a, a ∉ m := by
  rw [List.eq_nil_iff_forall_not_mem]
  exact Iff.rfl

end AssocMap

end Kompact
