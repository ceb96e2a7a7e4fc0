import Mathlib.Data.List.Basic
import Mathlib.Data.List.Nodup
import Mathlib.Data.List.Perm.Subperm

/-!
# Caches that evict what was used longest ago

A cache is the list of its keys, the one used last first. A full cache makes
room for a new key by evicting the last one of the list (`put`).

Where the only keys used after `k` are ones that `p` rejects (`Foremost`), and
there are other keys than `k` that `p` accepts, the oldest of all these is not
`k` (`oldest_of_foremost`).
-/

namespace Kompact.Lru

/-! ## The key used last -/

section

variable {κ : Type}

/-- The key used longest ago of those that `p` accepts. -/
def oldest (p : κ → Bool) (l : List κ) : Option κ := l.reverse.find? p

/-- No key that `p` accepts was used after `k`. -/
def Foremost (p : κ → Bool) (k : κ) (l : List κ) : Prop := ∀ j, [j, k].Sublist l → p j = false

variable {j k : κ} {l l' : List κ} {p p' : κ → Bool}

theorem ne_of_used_after (hn : l.Nodup) (hj : [j, k].Sublist l) : j ≠ k := by
  rintro rfl
  have hd : [j, j].Nodup := hn.sublist hj
  exact (List.nodup_cons.mp hd).1 (List.mem_singleton.mpr rfl)

theorem Foremost.sublist (h : Foremost p k l) (hl : l'.Sublist l) : Foremost p k l' := fun j hj => h j (hj.trans hl)

/-- No other key comes to be accepted. -/
theorem Foremost.mono (h : Foremost p k l) (hn : l.Nodup) (hp : ∀ j ∈ l, j ≠ k → p' j = true → p j = true) :
    Foremost p' k l := by
  intro j hj
  have hjl : j ∈ l := hj.subset List.mem_cons_self
  refine eq_false_of_ne_true (fun hp' => ?_)
  have hpj : p j = true := hp j hjl (ne_of_used_after hn hj) hp'
  exact Bool.false_ne_true ((h j hj).symm.trans hpj)

end

/-! ## Using and putting keys -/

variable {κ : Type} [DecidableEq κ]

/-- A key of the cache is used. -/
def touch (k : κ) (l : List κ) : List κ := if k ∈ l then k :: l.filter (· ≠ k) else l

/-- Put a key into the cache. Returns the key that was evicted for it. -/
def put (capacity : Nat) (k : κ) (l : List κ) : Option κ × List κ :=
  if k ∈ l then (none, touch k l)
  else if l.length < capacity then (none, k :: l)
  else (l.getLast?, k :: l.dropLast)

variable {k v : κ} {l : List κ} {p : κ → Bool} {capacity : Nat}

/-- A new key fits into a cache that is not full. -/
theorem put_fits (hk : k ∉ l) (hlen : l.length < capacity) : put capacity k l = (none, k :: l) := by
  unfold put
  rw [if_neg hk, if_pos hlen]

theorem touch_subperm : (touch k l).Subperm l := by
  unfold touch
  split
  · rename_i hk
    refine List.cons_subperm_of_not_mem_of_mem (fun hm => ?_) hk List.filter_sublist.subperm
    exact of_decide_eq_true (List.mem_filter.mp hm).2 rfl
  · exact .refl _

/-- A key that is rejected may be used. -/
theorem Foremost.touch (h : Foremost p k l) (hv : p v = false) : Foremost p k (touch v l) := by
  unfold Lru.touch
  split
  · intro j hj
    rcases List.cons_sublist_cons'.mp hj with hj | ⟨rfl, -⟩
    · exact h j (hj.trans List.filter_sublist)
    · exact hv
  · exact h

theorem foremost_touch : Foremost p k (Lru.touch k l) := by
  unfold Lru.touch
  split
  · intro j hj
    have hk : k ∈ l.filter (· ≠ k) := by
      rcases List.cons_sublist_cons'.mp hj with hj | ⟨-, hj⟩
      · exact hj.subset (by simp)
      · exact hj.subset (by simp)
    exact absurd rfl (of_decide_eq_true (List.mem_filter.mp hk).2)
  · rename_i hk
    intro j hj
    exact absurd (hj.subset (by simp)) hk

/-- The oldest of `k` and the keys that are accepted is one of these. -/
theorem oldest_of_foremost (hn : l.Nodup) (h : Foremost p k l)
    (hlen : 1 < (l.filter (fun j => j = k || p j)).length) :
    ∃ v, oldest (fun j => j = k || p j) l = some v ∧ oldest p l = some v ∧ v ≠ k ∧ p v = true := by
  obtain ⟨u, hu⟩ := List.exists_mem_of_length_pos (Nat.zero_lt_of_lt hlen)
  obtain ⟨hul, hqu⟩ := List.mem_filter.mp hu
  obtain ⟨v, hv⟩ : ∃ v, oldest (fun j => j = k || p j) l = some v := by
    refine Option.isSome_iff_exists.mp ?_
    exact List.find?_isSome.mpr ⟨u, List.mem_reverse.mpr hul, hqu⟩
  obtain ⟨hqv, older, newer, hl, holder⟩ := List.find?_eq_some_iff_append.mp hv
  have hsplit : l = newer.reverse ++ v :: older.reverse := by
    rw [← List.reverse_reverse l, hl]
    simp
  have hnone : (older.reverse).filter (fun j => j = k || p j) = [] := by
    refine List.filter_eq_nil_iff.mpr (fun j hj hq => ?_)
    have hjq := holder j (List.mem_reverse.mp hj)
    rw [hq] at hjq
    cases hjq
  have hne : v ≠ k := by
    rintro rfl
    -- whatever was used after `k` is rejected, so that `k` is alone
    have hnewer : (newer.reverse).filter (fun j => j = v || p j) = [] := by
      refine List.filter_eq_nil_iff.mpr (fun j hj hq => ?_)
      have hsub : [j, v].Sublist l := by
        rw [hsplit]
        exact (List.singleton_sublist.mpr hj).append (List.singleton_sublist.mpr List.mem_cons_self)
      have hjv : j ≠ v := ne_of_used_after hn hsub
      rw [h j hsub] at hq
      simp [hjv] at hq
    rw [hsplit, List.filter_append, hnewer, List.filter_cons, hnone] at hlen
    simp at hlen
  have hpv : p v = true := by simpa [hne] using hqv
  refine ⟨v, hv, List.find?_eq_some_iff_append.mpr ⟨hpv, older, newer, hl, fun j hj => ?_⟩, hne, hpv⟩
  have hjq := holder j hj
  simp only [Bool.not_or, Bool.and_eq_true] at hjq
  exact hjq.2

end Kompact.Lru
