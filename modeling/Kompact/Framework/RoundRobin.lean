import Mathlib.Algebra.BigOperators.Group.Finset.Piecewise
import Mathlib.Algebra.Order.BigOperators.Group.Finset
import Mathlib.Algebra.Group.Action.Defs
import Mathlib.Data.List.Infix
import Mathlib.Data.List.Nodup
import Mathlib.Data.List.Perm.Subperm
import Mathlib.Data.Nat.ModEq

/-!
# Serving places in a circle

`n` places are served one at a time. A turn names the place that is served
and says whether the next one is served after it or the same one again.
`Follows` are the sequences of turns of such a service.

`fair_iff_steady` says exactly when it is fair at every moment, so that no
place was served twice more than another: when the turns that stay where they
are, the last one apart, are those that complete a round. Over such turns
`Level` is the invariant: counted from the next place on, no place was served
more often than one behind it, nor than all by more than one.

Where the places are taken from a counter that starts over at some number, the
next `n` turns may miss some of them: `counted_perm_iff` says when they do not.
-/

namespace Kompact.RoundRobin

/-- The place after `i`. -/
def succ (n i : Nat) : Nat := if i + 1 < n then i + 1 else 0

/-- A place that was served, and whether the service moves on after it. -/
abbrev Turn := Nat × Bool

def Turn.next (n : Nat) (t : Turn) : Nat := if t.2 then succ n t.1 else t.1

/-- The turns of a service that is at `q` before and at `q'` after them. -/
def Follows (n : Nat) : Nat → List Turn → Nat → Prop
  | q, [], q' => q = q'
  | q, t :: ts, q' => t.1 = q ∧ Follows n (t.next n) ts q'

/-- How often place `i` was served. -/
def served (ts : List Turn) (i : Nat) : Nat := ts.countP (fun t => t.1 = i)

/-- No place was served twice more than another. -/
def Fair (n : Nat) (ts : List Turn) : Prop := ∀ i < n, ∀ j < n, served ts i ≤ served ts j + 1

def Even (n : Nat) (ts : List Turn) : Prop := ∀ i < n, ∀ j < n, served ts i = served ts j

/-- A turn that stays where it is completes a round. -/
def Settled (n : Nat) (ts : List Turn) : Prop := ∀ k t, ts[k]? = some t → t.2 = false → n ∣ k + 1

/-- A turn that stays where it is completes a round, or is the last. -/
def Steady (n : Nat) (ts : List Turn) : Prop := Settled n ts.dropLast

/-- How far place `i` is behind place `q` in the circle. -/
def offset (n q i : Nat) : Nat := if q ≤ i then i - q else i + n - q

/-- From `q` on, the counts go up by one at most. -/
def Level (n q : Nat) (ts : List Turn) : Prop :=
  ∀ i < n, ∀ j < n, offset n q i ≤ offset n q j →
    served ts i ≤ served ts j ∧ served ts j ≤ served ts i + 1

theorem succ_lt {n i : Nat} (h : i < n) : succ n i < n := by
  unfold succ
  split
  · assumption
  · omega

theorem Turn.next_lt {n : Nat} {t : Turn} (h : t.1 < n) : t.next n < n := by
  unfold Turn.next
  split
  · exact succ_lt h
  · exact h

/-! ## Sequences of turns -/

section Sequences

variable {n q q' : Nat} {ts us : List Turn} {t : Turn}

theorem follows_append : Follows n q (ts ++ us) q' ↔ ∃ m, Follows n q ts m ∧ Follows n m us q' := by
  induction ts generalizing q with
  | nil => simp [Follows]
  | cons t ts ih =>
    constructor
    · rintro ⟨ht, h⟩
      obtain ⟨m, h₁, h₂⟩ := ih.mp h
      exact ⟨m, ⟨ht, h₁⟩, h₂⟩
    · rintro ⟨m, ⟨ht, h₁⟩, h₂⟩
      exact ⟨ht, ih.mpr ⟨m, h₁, h₂⟩⟩

theorem follows_concat : Follows n q (ts ++ [t]) q' ↔ Follows n q ts t.1 ∧ q' = t.next n := by
  rw [follows_append]
  constructor
  · rintro ⟨m, h, rfl, hn⟩
    exact ⟨h, hn.symm⟩
  · rintro ⟨h, rfl⟩
    exact ⟨t.1, h, rfl, rfl⟩

theorem Follows.lt (h : Follows n q ts q') (hq : q < n) : q' < n ∧ ∀ t ∈ ts, t.1 < n := by
  induction ts generalizing q with
  | nil =>
    obtain rfl : q = q' := h
    exact ⟨hq, by simp⟩
  | cons t ts ih =>
    obtain ⟨rfl, h⟩ := h
    obtain ⟨h₁, h₂⟩ := ih h (Turn.next_lt hq)
    exact ⟨h₁, List.forall_mem_cons.mpr ⟨hq, h₂⟩⟩

theorem served_concat (i : Nat) : served (ts ++ [t]) i = served ts i + if t.1 = i then 1 else 0 := by
  simp [served, List.countP_append, List.countP_singleton]

/-- Every turn is counted at one place. -/
theorem sum_served (h : ∀ t ∈ ts, t.1 < n) : ∑ i ∈ Finset.range n, served ts i = ts.length := by
  induction ts with
  | nil => simp [served]
  | cons t ts ih =>
    obtain ⟨ht, hts⟩ := List.forall_mem_cons.mp h
    have hcons (i : Nat) : served (t :: ts) i = served ts i + if t.1 = i then 1 else 0 := by
      simp [served, List.countP_cons]
    simp only [hcons, Finset.sum_add_distrib, ih hts, Finset.sum_ite_eq, Finset.mem_range, ht, if_true,
      List.length_cons]

theorem settled_concat : Settled n (ts ++ [t]) ↔ Settled n ts ∧ (t.2 = false → n ∣ ts.length + 1) := by
  constructor
  · intro h
    refine ⟨fun k u hk => h k u ?_, fun ht => h ts.length t (by simp) ht⟩
    rwa [List.getElem?_append_left (List.getElem?_eq_some_iff.mp hk).1]
  · rintro ⟨h, ht⟩ k u hk hu
    rcases Nat.lt_or_ge k ts.length with hlt | hge
    · exact h k u (by rwa [List.getElem?_append_left hlt] at hk) hu
    · rw [List.getElem?_append_right hge, List.getElem?_singleton] at hk
      split at hk
      · obtain rfl := Option.some.inj hk
        rw [show k = ts.length by omega]
        exact ht hu
      · cases hk

theorem Settled.of_prefix (h : Settled n ts) (hp : us <+: ts) : Settled n us := by
  obtain ⟨vs, rfl⟩ := hp
  intro k t hk
  exact h k t (by rwa [List.getElem?_append_left (List.getElem?_eq_some_iff.mp hk).1])

end Sequences

/-! ## Fairness -/

section Fairness

variable {n q q' : Nat} {ts us : List Turn} {t s : Turn}

theorem level_nil : Level n q [] := fun _ _ _ _ _ => ⟨Nat.le_refl 0, Nat.zero_le _⟩

theorem Level.fair (h : Level n q ts) : Fair n ts := by
  intro i hi j hj
  rcases Nat.le_total (offset n q i) (offset n q j) with hle | hle
  · exact Nat.le_succ_of_le (h i hi j hj hle).1
  · exact (h j hj i hi hle).2

theorem Even.level (h : Even n ts) : Level n q ts := fun i hi j hj _ =>
  ⟨Nat.le_of_eq (h i hi j hj), Nat.le_succ_of_le (Nat.le_of_eq (h j hj i hi))⟩

/-- To serve the first place makes it the last. -/
theorem Level.succ (h : Level n t.1 ts) (ht : t.1 < n) : Level n (succ n t.1) (ts ++ [t]) := by
  intro i hi j hj hij
  have hfirst (k : Nat) (hk : k < n) := h t.1 ht k hk (by simp [offset])
  rw [served_concat, served_concat]
  by_cases hti : t.1 = i
  · have htj : t.1 = j := by
      subst hti
      simp only [offset, RoundRobin.succ] at hij
      split at hij <;> split at hij <;> split at hij <;> omega
    subst hti htj
    simp
  · by_cases htj : t.1 = j
    · subst htj
      simp only [hti, if_false, if_true]
      have := hfirst i hi
      omega
    · simp only [hti, htj, if_false]
      refine h i hi j hj ?_
      simp only [offset, RoundRobin.succ] at hij ⊢
      split at hij <;> split at hij <;> split at hij <;> split <;> split <;> omega

/-- With all counts within one of each other, they are equal just when whole
rounds were served. -/
theorem Fair.even_iff (h : Fair n ts) (hts : ∀ t ∈ ts, t.1 < n) : Even n ts ↔ n ∣ ts.length := by
  rw [← sum_served hts]
  constructor
  · intro he
    rcases Nat.eq_zero_or_pos n with rfl | hn
    · simp
    have heq : ∑ i ∈ Finset.range n, served ts i = ∑ _i ∈ Finset.range n, served ts 0 :=
      Finset.sum_congr rfl fun i hi => he i (Finset.mem_range.mp hi) 0 hn
    rw [heq, Finset.sum_const, Finset.card_range, smul_eq_mul]
    exact Nat.dvd_mul_right _ _
  · rintro ⟨c, hc⟩
    -- a place served less than another leaves the sum strictly between two multiples
    have hle : ∀ i < n, ∀ j < n, served ts j ≤ served ts i := by
      intro i hi j hj
      by_contra hlt
      have hlow : ∑ _k ∈ Finset.range n, served ts i < ∑ k ∈ Finset.range n, served ts k :=
        Finset.sum_lt_sum (fun k hk => by have := h j hj k (Finset.mem_range.mp hk); omega)
          ⟨j, Finset.mem_range.mpr hj, by omega⟩
      have hhigh : ∑ k ∈ Finset.range n, served ts k < ∑ _k ∈ Finset.range n, (served ts i + 1) :=
        Finset.sum_lt_sum (fun k hk => h k (Finset.mem_range.mp hk) i hi)
          ⟨i, Finset.mem_range.mpr hi, by omega⟩
      simp only [Finset.sum_const, Finset.card_range, smul_eq_mul] at hlow hhigh
      rw [hc] at hlow hhigh
      have h₁ := Nat.lt_of_mul_lt_mul_left hlow
      have h₂ := Nat.lt_of_mul_lt_mul_left hhigh
      omega
    exact fun i hi j hj => Nat.le_antisymm (hle j hj i hi) (hle i hi j hj)

/-- Turns that stay only after whole rounds keep the counts level. -/
theorem Follows.level (h : Follows n q ts q') (hq : q < n) (hs : Settled n ts) : Level n q' ts := by
  induction ts using List.reverseRecOn generalizing q' with
  | nil => exact level_nil
  | append_singleton ts t ih =>
    obtain ⟨hf, rfl⟩ := follows_concat.mp h
    obtain ⟨hs, ht⟩ := settled_concat.mp hs
    have hlt := (hf.lt hq).1
    have hlevel := (ih hf hs).succ hlt
    cases hstay : t.2 with
    | true => simpa [Turn.next, hstay] using hlevel
    | false =>
      have hdvd : n ∣ (ts ++ [t]).length := by simpa using ht hstay
      exact ((hlevel.fair.even_iff (h.lt hq).2).mpr hdvd).level

/-- If the same place is served twice and that is fair, a round was complete in between. -/
theorem Level.dvd_of_stay (h : Level n s.1 ts) (hs : s.1 < n) (hts : ∀ u ∈ ts, u.1 < n)
    (hfair : Fair n (ts ++ [s] ++ [t])) (hst : t.1 = s.1) : n ∣ ts.length + 1 := by
  have heven : Even n (ts ++ [s]) := by
    have hother (j : Nat) (hj : j < n) : served (ts ++ [s]) j = served ts s.1 + 1 := by
      have h₁ := h s.1 hs j hj (by simp [offset])
      have h₂ := hfair s.1 hs j hj
      rw [served_concat, served_concat, served_concat, served_concat, hst] at h₂
      rw [served_concat]
      by_cases hsj : s.1 = j
      · simp [hsj]
      · simp only [hsj, if_false, if_true] at h₂ ⊢
        omega
    exact fun i hi j hj => (hother i hi).trans (hother j hj).symm
  have hmem : ∀ u ∈ ts ++ [s], u.1 < n := by
    intro u hu
    rcases List.mem_append.mp hu with hu | hu
    · exact hts u hu
    · rw [List.mem_singleton.mp hu]
      exact hs
  have := ((h.succ hs).fair.even_iff hmem).mp heven
  simpa using this

/-- Where the service is fair all along, all but the last turn keep the counts level. -/
theorem Follows.settled (h : Follows n q (ts ++ [t]) q') (hq : q < n)
    (hfair : ∀ us, us <+: ts ++ [t] → Fair n us) : Settled n ts := by
  induction ts using List.reverseRecOn generalizing t q' with
  | nil => intro k t hk; simp at hk
  | append_singleton ts s ih =>
    obtain ⟨hf, -⟩ := follows_concat.mp h
    obtain ⟨hfs, hts⟩ := follows_concat.mp hf
    have hs := ih hf fun us hus => hfair us (hus.trans (List.prefix_append _ _))
    refine settled_concat.mpr ⟨hs, fun hstay => ?_⟩
    refine (hfs.level hq hs).dvd_of_stay (hfs.lt hq).1 (hfs.lt hq).2 (hfair _ (List.prefix_refl _)) ?_
    simpa [Turn.next, hstay] using hts

theorem fair_iff_steady (h : Follows n q ts q') (hq : q < n) :
    (∀ us, us <+: ts → Fair n us) ↔ Steady n ts := by
  induction ts using List.reverseRecOn generalizing q' with
  | nil =>
    refine iff_of_true (fun us hus => ?_) (fun k t hk => ?_)
    · rw [List.prefix_nil.mp hus]
      exact (level_nil (q := 0)).fair
    · simp at hk
  | append_singleton ts t _ =>
    unfold Steady
    rw [List.dropLast_concat]
    refine ⟨h.settled hq, fun hs us hus => ?_⟩
    induction us using List.reverseRecOn with
    | nil => exact (level_nil (q := 0)).fair
    | append_singleton us u _ =>
      obtain ⟨vs, hvs⟩ := hus
      obtain ⟨m, hfu, -⟩ := follows_append.mp (hvs ▸ h)
      obtain ⟨hf, -⟩ := follows_concat.mp hfu
      have hpre : us <+: ts := by
        have hle : us.length ≤ ts.length := by
          have := congrArg List.length hvs
          simp only [List.length_append, List.length_singleton] at this
          omega
        exact List.prefix_of_prefix_length_le ⟨u :: vs, by simpa using hvs⟩ (List.prefix_append ts [t]) hle
      exact ((hf.level hq (hs.of_prefix hpre)).succ (hf.lt hq).1).fair

end Fairness

/-! ## Places from a counter -/

/-- The next `n` of `n` places, by a counter that starts over at `N`. -/
def counted (N start n : Nat) : List Nat := (List.range n).map fun i => (start + i) % N % n

section Counter

variable {N start n : Nat}

/-- Two that are served alike. -/
theorem not_perm_of_collision {i j : Nat} (hij : i < j) (hj : j < n)
    (h : (start + i) % N % n = (start + j) % N % n) : ¬ (counted N start n).Perm (List.range n) := by
  intro hp
  have hinj := List.inj_on_of_nodup_map (hp.nodup_iff.mpr List.nodup_range)
  have := hinj (List.mem_range.mpr (hij.trans hj)) (List.mem_range.mpr hj) h
  omega

theorem perm_of_injective (hn : ∀ i < n, ∀ j < n, (start + i) % N % n = (start + j) % N % n → i = j) :
    (counted N start n).Perm (List.range n) := by
  have hnodup : (counted N start n).Nodup := by
    refine List.Nodup.map_on (fun i hi j hj h => ?_) List.nodup_range
    exact hn i (List.mem_range.mp hi) j (List.mem_range.mp hj) h
  have hsub : counted N start n ⊆ List.range n := by
    intro p hp
    obtain ⟨i, hi, rfl⟩ := List.mem_map.mp hp
    exact List.mem_range.mpr (Nat.mod_lt _ (Nat.zero_lt_of_lt (List.mem_range.mp hi)))
  refine (List.subperm_of_subset hnodup hsub).perm_of_length_le ?_
  simp [counted]

theorem eq_of_mod_eq {i j : Nat} (hi : i < n) (hj : j < n) (h : (start + i) % n = (start + j) % n) : i = j := by
  have h' : i ≡ j [MOD n] := Nat.ModEq.add_left_cancel' start h
  exact h'.eq_of_lt_of_lt hi hj

/-- Every place is served once if and only if the counter does not start over, or does so after
whole rounds. -/
theorem counted_perm_iff (h : start < N) :
    (counted N start n).Perm (List.range n) ↔ start + n ≤ N ∨ n ∣ N := by
  constructor
  · intro hp
    by_contra hno
    obtain ⟨hwrap, hdvd⟩ := not_or.mp hno
    rcases Nat.lt_or_ge N n with hlt | hge
    · -- the counter is back where it was
      refine not_perm_of_collision (Nat.zero_lt_of_lt h) hlt ?_ hp
      rw [Nat.add_mod_right, Nat.add_zero]
    have hr : 0 < N % n := Nat.pos_of_ne_zero fun h0 => hdvd (Nat.dvd_of_mod_eq_zero h0)
    have hrn : N % n < n := Nat.mod_lt _ (by omega)
    have hN := Nat.div_add_mod N n
    -- it starts over after `a` of them, where an unfinished round of `N % n` has begun
    obtain ⟨a, ha⟩ := Nat.exists_eq_add_of_le h.le
    have hback (k : Nat) (hk : k < n) : (start + (a + k)) % N % n = k := by
      rw [show start + (a + k) = N + k by omega, Nat.add_mod_left,
        Nat.mod_eq_of_lt (show k < N by omega), Nat.mod_eq_of_lt hk]
    rcases Nat.lt_or_ge a (N % n) with hlt | hge
    · -- the first one is served again in the round that begins
      refine not_perm_of_collision (i := 0) (j := N % n) hr hrn ?_ hp
      have hk := hback (N % n - a) (by omega)
      rw [show a + (N % n - a) = N % n by omega] at hk
      rw [hk, Nat.add_zero, Nat.mod_eq_of_lt h,
        show start = N % n - a + n * (N / n) by omega, Nat.add_mul_mod_self_left,
        Nat.mod_eq_of_lt (by omega)]
    · -- the first one of the unfinished round is served again
      refine not_perm_of_collision (i := a - N % n) (j := a) (by omega) (by omega) ?_ hp
      have hk := hback 0 (by omega)
      rw [Nat.add_zero] at hk
      rw [hk, show start + (a - N % n) = n * (N / n) by omega,
        Nat.mod_eq_of_lt (show n * (N / n) < N by omega), Nat.mul_mod_right]
  · rintro (hle | hdvd)
    · refine perm_of_injective fun i hi j hj hij => ?_
      rw [Nat.mod_eq_of_lt (show start + i < N by omega), Nat.mod_eq_of_lt (show start + j < N by omega)] at hij
      exact eq_of_mod_eq hi hj hij
    · refine perm_of_injective fun i hi j hj hij => ?_
      rw [Nat.mod_mod_of_dvd _ hdvd, Nat.mod_mod_of_dvd _ hdvd] at hij
      exact eq_of_mod_eq hi hj hij

end Counter

end Kompact.RoundRobin
