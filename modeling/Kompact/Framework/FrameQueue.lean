import Mathlib.Data.List.Basic

/-!
# A queue of frames that is written piece by piece

`cut frames n` is what is left of a queue of frames after the first `n` bytes
of it were written: whole frames that were written are gone, and a frame that
was written in part has lost its beginning. Bytes written one after the other
add up (`cut_cut`), and frames queued later stay behind (`cut_append`). Where
the last byte written is the last of a frame, what is left are the frames
behind it (`cut_length`), and nowhere else (`eq_length_of_cut`).
-/

namespace Kompact

variable {β : Type}

/-- What is left of the frames after `n` bytes. -/
def cut : List (List β) → Nat → List (List β)
  | [], _ => []
  | f :: fs, n => if f.length ≤ n then cut fs (n - f.length) else f.drop n :: fs

theorem flatten_cut (fs : List (List β)) (n : Nat) : (cut fs n).flatten = fs.flatten.drop n := by
  induction fs generalizing n with
  | nil => simp [cut]
  | cons f fs ih =>
    unfold cut
    split
    · rename_i h
      rw [ih, List.flatten_cons, List.drop_append, List.drop_eq_nil_of_le h, List.nil_append]
    · rename_i h
      rw [List.flatten_cons, List.flatten_cons, List.drop_append_of_le_length (by omega)]

theorem cut_zero {fs : List (List β)} (h : ∀ f ∈ fs, f ≠ []) : cut fs 0 = fs := by
  cases fs with
  | nil => rfl
  | cons f fs =>
    have hf : ¬ f.length ≤ 0 := by
      have := List.length_pos_iff.mpr (h f (List.mem_cons_self ..))
      omega
    rw [cut, if_neg hf, List.drop_zero]

theorem cut_append {fs gs : List (List β)} {n : Nat} (h : n ≤ fs.flatten.length) (hg : ∀ g ∈ gs, g ≠ []) :
    cut (fs ++ gs) n = cut fs n ++ gs := by
  induction fs generalizing n with
  | nil =>
    obtain rfl : n = 0 := by simpa using h
    exact cut_zero hg
  | cons f fs ih =>
    rw [List.flatten_cons, List.length_append] at h
    rw [List.cons_append, cut, cut]
    split
    · exact ih (by omega)
    · rfl

theorem ne_nil_of_mem_cut {fs : List (List β)} {n : Nat} {f : List β} (h : ∀ f ∈ fs, f ≠ []) (hf : f ∈ cut fs n) :
    f ≠ [] := by
  induction fs generalizing n with
  | nil => cases hf
  | cons g fs ih =>
    rw [cut] at hf
    split at hf
    · exact ih (fun f hf' => h f (List.mem_cons_of_mem _ hf')) hf
    · rename_i hlt
      rcases List.mem_cons.mp hf with rfl | hf
      · intro hnil
        have := congrArg List.length hnil
        rw [List.length_drop, List.length_nil] at this
        omega
      · exact h f (List.mem_cons_of_mem _ hf)

theorem cut_cut {fs : List (List β)} {n m : Nat} : cut (cut fs n) m = cut fs (n + m) := by
  induction fs generalizing n with
  | nil => rfl
  | cons f fs ih =>
    by_cases h : f.length ≤ n
    · rw [cut, if_pos h, ih, cut, if_pos (by omega), show n + m - f.length = n - f.length + m by omega]
    · rw [cut, if_neg h, cut, cut]
      by_cases h' : f.length ≤ n + m
      · rw [if_pos (by rw [List.length_drop]; omega), if_pos h', List.length_drop,
          show n + m - f.length = m - (f.length - n) by omega]
      · rw [if_neg (by rw [List.length_drop]; omega), if_neg h', List.drop_drop]

/-- All of the first frames were written, and nothing else. -/
theorem cut_length {fs gs : List (List β)} (hg : ∀ g ∈ gs, g ≠ []) : cut (fs ++ gs) fs.flatten.length = gs := by
  induction fs with
  | nil => exact cut_zero hg
  | cons f fs ih =>
    rw [List.cons_append, cut, List.flatten_cons, List.length_append, if_pos (by omega)]
    rw [show f.length + fs.flatten.length - f.length = fs.flatten.length by omega]
    exact ih

/-- The frames all of whose bytes are among the first `n`. -/
theorem exists_whole (fs : List (List β)) (n : Nat) : ∃ k, (fs.take k).flatten.length ≤ n ∧
    ∀ f rest, fs.drop k = f :: rest → n < (fs.take k).flatten.length + f.length := by
  induction fs generalizing n with
  | nil => exact ⟨0, Nat.zero_le n, fun f rest h => by cases h⟩
  | cons g gs ih =>
    by_cases h : n < g.length
    · refine ⟨0, Nat.zero_le n, fun f rest hf => ?_⟩
      obtain ⟨rfl, -⟩ := List.cons.inj hf
      simpa using h
    · obtain ⟨k, hk, hrest⟩ := ih (n - g.length)
      refine ⟨k + 1, ?_, fun f rest hf => ?_⟩
      · rw [List.take_succ_cons, List.flatten_cons, List.length_append]
        omega
      · have hlt := hrest f rest hf
        rw [List.take_succ_cons, List.flatten_cons, List.length_append]
        omega

/-- Whole frames are left only where what was written ends with a frame. -/
theorem eq_length_of_cut {fs : List (List β)} {n k : Nat} (hn : n ≤ fs.flatten.length) (h : cut fs n = fs.drop k) :
    n = (fs.take k).flatten.length := by
  have hflat := congrArg (fun l => l.flatten.length) h
  simp only [flatten_cut, List.length_drop] at hflat
  have htotal : fs.flatten.length = (fs.take k).flatten.length + (fs.drop k).flatten.length := by
    rw [← List.length_append, ← List.flatten_append, List.take_append_drop]
  omega

end Kompact
