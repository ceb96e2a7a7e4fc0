import Mathlib.Data.List.Nodup

/-!
# Delivery in order

Messages, numbered in the order in which they are dispatched, wait for their
destinations, are queued on channels, may be handed back from there to wait
again, and may be lost at any time. A message that was never queued is `fresh`.

`Delivery.Inv` is kept by the four moves `dispatch`, `enqueue`, `handBack` and
`Sheds`, where a fresh message is queued only if it is the first fresh one for
its destination. It gives `InOrder`: a fresh message is queued after the
earlier ones for the same destination, and none is queued twice on a channel.
-/

namespace Kompact

/-! ## Items in places -/

section HeldOnce

variable {P M : Type} [DecidableEq P] [DecidableEq M] {F F' : P → List M} {p q : P}

/-- Every item is in one place at most, and there once. -/
def HeldOnce (F : P → List M) : Prop := ∀ m, ∃ p, ∀ q, (F q).count m ≤ if q = p then 1 else 0

theorem HeldOnce.le (h : HeldOnce F) (hle : ∀ p m, (F' p).count m ≤ (F p).count m) : HeldOnce F' := by
  intro m
  obtain ⟨p, hp⟩ := h m
  exact ⟨p, fun q => Nat.le_trans (hle q m) (hp q)⟩

theorem HeldOnce.nodup (h : HeldOnce F) (p : P) : (F p).Nodup := by
  refine List.nodup_iff_count_le_one.mpr (fun m => ?_)
  obtain ⟨q, hq⟩ := h m
  have hle := hq p
  split at hle
  · exact hle
  · omega

theorem HeldOnce.eq_of_mem {m : M} (h : HeldOnce F) (hp : m ∈ F p) (hq : m ∈ F q) : p = q := by
  obtain ⟨r, hr⟩ := h m
  have hle := hr p
  have hle' := hr q
  have hpos := List.count_pos_iff.mpr hp
  have hpos' := List.count_pos_iff.mpr hq
  split at hle
  · split at hle'
    · subst_vars; rfl
    · omega
  · omega

/-- The items `ms` move from one place to another. -/
theorem HeldOnce.move (h : HeldOnce F) (hpq : p ≠ q) (ms : List M)
    (hp : ∀ m, (F' p).count m + ms.count m ≤ (F p).count m) (hq : ∀ m, (F' q).count m ≤ (F q).count m + ms.count m)
    (ho : ∀ r, r ≠ p → r ≠ q → ∀ m, (F' r).count m ≤ (F r).count m) : HeldOnce F' := by
  intro m
  obtain ⟨r, hr⟩ := h m
  have hm := hp m
  have hmq := hq m
  have hrp := hr p
  by_cases hz : ms.count m = 0
  · refine ⟨r, fun r' => Nat.le_trans ?_ (hr r')⟩
    by_cases h1 : r' = p
    · subst h1; omega
    · by_cases h2 : r' = q
      · subst h2; omega
      · exact ho r' h1 h2 m
  · -- it was in the first place, and nowhere else
    obtain rfl : p = r := by
      by_contra hne
      rw [if_neg hne] at hrp
      omega
    rw [if_pos rfl] at hrp
    refine ⟨q, fun r' => ?_⟩
    by_cases h1 : r' = p
    · subst h1
      omega
    · have hr' := hr r'
      rw [if_neg h1] at hr'
      by_cases h2 : r' = q
      · subst h2
        rw [if_pos rfl]
        omega
      · have := ho r' h1 h2 m
        omega

/-- A new item is put into one place. -/
theorem HeldOnce.add {m₀ : M} (h : HeldOnce F) (hnew : ∀ p, m₀ ∉ F p)
    (hq : ∀ m, (F' q).count m ≤ (F q).count m + [m₀].count m)
    (ho : ∀ r, r ≠ q → ∀ m, (F' r).count m ≤ (F r).count m) : HeldOnce F' := by
  intro m
  have hmq := hq m
  by_cases hm : m = m₀
  · subst hm
    have hz : ∀ p, (F p).count m = 0 := fun p => List.count_eq_zero.mpr (hnew p)
    refine ⟨q, fun r => ?_⟩
    by_cases hr : r = q
    · subst hr
      rw [if_pos rfl]
      rw [hz, List.count_singleton_self] at hmq
      omega
    · have := ho r hr m
      rw [hz] at this
      omega
  · obtain ⟨r, hr⟩ := h m
    refine ⟨r, fun r' => Nat.le_trans ?_ (hr r')⟩
    by_cases hr' : r' = q
    · subst hr'
      rw [List.count_eq_zero.mpr (fun hmem => hm (List.mem_singleton.mp hmem))] at hmq
      omega
    · exact ho r' hr' m

end HeldOnce

/-! ## The log -/

/-- A message is queued on a channel, or handed back from it. -/
inductive DeliveryEntry (C : Type) where
  | enqueued (channel : C) (msg : Nat)
  | handedBack (channel : C) (msg : Nat)
  deriving DecidableEq, Repr

namespace Delivery

variable {D C : Type}

def wasEnqueued (log : List (DeliveryEntry C)) (m : Nat) : Bool :=
  log.any fun
    | .enqueued _ m' => m' = m
    | .handedBack _ _ => false

/-- The messages that were never queued on a channel. -/
def fresh (log : List (DeliveryEntry C)) (ms : List Nat) : List Nat := ms.filter fun m => !wasEnqueued log m

variable {log extra : List (DeliveryEntry C)} {sent : List D} {ms ms' : List Nat} {m : Nat} {c : C} {d : D}

theorem wasEnqueued_iff : wasEnqueued log m = true ↔ ∃ c, .enqueued c m ∈ log := by
  unfold wasEnqueued
  rw [List.any_eq_true]
  constructor
  · rintro ⟨e, he, hm⟩
    cases e with
    | enqueued c m' => exact ⟨c, of_decide_eq_true hm ▸ he⟩
    | handedBack c m' => cases hm
  · rintro ⟨c, hc⟩
    exact ⟨_, hc, decide_eq_true rfl⟩

theorem mem_fresh : m ∈ fresh log ms ↔ m ∈ ms ∧ ∀ c, .enqueued c m ∉ log := by
  unfold fresh
  rw [List.mem_filter, Bool.not_eq_true', ← Bool.not_eq_true, wasEnqueued_iff, not_exists]

theorem fresh_append : fresh log (ms ++ ms') = fresh log ms ++ fresh log ms' := List.filter_append _ _

/-- The longer the log, the fewer messages are fresh. -/
theorem fresh_sublist {log' : List (DeliveryEntry C)} (h : ∀ e ∈ log, e ∈ log') :
    (fresh log' ms).Sublist (fresh log ms) := by
  refine List.monotone_filter_right _ (fun m hm => ?_)
  rw [Bool.not_eq_true', ← Bool.not_eq_true, wasEnqueued_iff] at hm ⊢
  exact fun ⟨c, hc⟩ => hm ⟨c, h _ hc⟩

theorem fresh_eq_nil (h : ∀ m ∈ ms, ∃ c, .enqueued c m ∈ log) : fresh log ms = [] := by
  refine List.eq_nil_iff_forall_not_mem.mpr (fun m hm => ?_)
  obtain ⟨hm, hn⟩ := mem_fresh.mp hm
  obtain ⟨c, hc⟩ := h m hm
  exact hn c hc

/-- What is said of one message that is queued: the log before it, and its channel. -/
structure Proper (sent : List D) (before : List (DeliveryEntry C)) (c : C) (m : Nat) : Prop where
  once : .enqueued c m ∉ before
  order : (∀ c' m', .enqueued c' m' ∈ before → sent[m']? = sent[m]? → m' < m) ∨
    ∃ c', .enqueued c' m ∈ before ∧ .handedBack c' m ∈ before

/-- Another message is dispatched. -/
theorem Proper.mono {before : List (DeliveryEntry C)} (h : Proper sent before c m)
    (hlt : ∀ c m, .enqueued c m ∈ before → m < sent.length) (hm : m < sent.length) :
    Proper (sent ++ [d]) before c m := by
  refine ⟨h.once, h.order.imp (fun ho c' m' hc heq => ?_) id⟩
  rw [List.getElem?_append_left hm, List.getElem?_append_left (hlt c' m' hc)] at heq
  exact ho c' m' hc heq

/-- Messages for the same destination are queued in the order in which they were dispatched, apart from those that
were queued before and handed back; and none is queued twice on a channel. -/
def InOrder (sent : List D) (log : List (DeliveryEntry C)) : Prop :=
  ∀ before c m after, log = before ++ .enqueued c m :: after → Proper sent before c m

theorem InOrder.append (h : InOrder sent log)
    (he : ∀ before c m after, extra = before ++ .enqueued c m :: after → Proper sent (log ++ before) c m) :
    InOrder sent (log ++ extra) := by
  intro before c m after heq
  rcases List.append_eq_append_iff.mp heq with ⟨mid, rfl, hmid⟩ | ⟨mid, hmid, htail⟩
  · exact he mid c m after hmid
  · cases mid with
    | nil =>
      rw [List.append_nil] at hmid
      subst hmid
      have := he [] c m after htail.symm
      rwa [List.append_nil] at this
    | cons e rest =>
      obtain ⟨rfl, -⟩ := List.cons.inj htail
      exact h before c m rest hmid

end Delivery

/-! ## Moves -/

structure Delivery (D C : Type) where
  /-- The destination of each message that was dispatched. -/
  sent : List D
  waiting : D → List Nat
  queued : C → List Nat
  /-- Nothing is queued on such a channel any more. -/
  dead : C → Prop
  log : List (DeliveryEntry C)

namespace Delivery

variable {D C : Type} [DecidableEq D] [DecidableEq C] {s s' : Delivery D C} {d e : D} {c : C} {m : Nat} {ms : List Nat}

/-- Where messages are. -/
def held (s : Delivery D C) : D ⊕ C → List Nat
  | .inl d => s.waiting d
  | .inr c => s.queued c

def dispatch (s : Delivery D C) (d : D) : Delivery D C :=
  { s with
    sent := s.sent ++ [d]
    waiting := Function.update s.waiting d (s.waiting d ++ [s.sent.length]) }

def enqueue (s : Delivery D C) (d : D) (c : C) (m : Nat) : Delivery D C :=
  { s with
    waiting := Function.update s.waiting d ((s.waiting d).erase m)
    queued := Function.update s.queued c (s.queued c ++ [m])
    log := s.log ++ [.enqueued c m] }

/-- The messages `ms` of the channel wait for the destination, and the others are lost. -/
def handBack (s : Delivery D C) (c : C) (d : D) (ms : List Nat) : Delivery D C :=
  { s with
    waiting := Function.update s.waiting d (s.waiting d ++ ms)
    queued := Function.update s.queued c []
    dead := Function.update s.dead c True
    log := s.log ++ ms.map (.handedBack c) }

/-- Messages are lost, and those that wait are reordered, but not the fresh ones among them. -/
structure Sheds (s s' : Delivery D C) : Prop where
  sent : s'.sent = s.sent
  log : s'.log = s.log
  waiting : ∀ d m, (s'.waiting d).count m ≤ (s.waiting d).count m
  fresh : ∀ d, (fresh s.log (s'.waiting d)).Sublist (fresh s.log (s.waiting d))
  queued : ∀ c m, (s'.queued c).count m ≤ (s.queued c).count m
  dead : ∀ c, s.dead c → s'.dead c

structure Inv (s : Delivery D C) : Prop where
  once : HeldOnce s.held
  lt : ∀ p, ∀ m ∈ s.held p, m < s.sent.length
  sorted : ∀ d, (fresh s.log (s.waiting d)).Pairwise (· < ·)
  addressed : ∀ d, ∀ m ∈ fresh s.log (s.waiting d), s.sent[m]? = some d
  later : ∀ d, ∀ m ∈ fresh s.log (s.waiting d), ∀ c m', .enqueued c m' ∈ s.log → s.sent[m']? = some d → m' < m
  logged : ∀ c m, .enqueued c m ∈ s.log → m < s.sent.length
  /-- A message that waits was handed back from wherever it was queued. -/
  back : ∀ d, ∀ m ∈ s.waiting d, ∀ c, .enqueued c m ∈ s.log → .handedBack c m ∈ s.log ∧ s.dead c
  elsewhere : ∀ c', ∀ m ∈ s.queued c', ∀ c, .enqueued c m ∈ s.log → c = c' ∨ (.handedBack c m ∈ s.log ∧ s.dead c)
  queued : ∀ c, ∀ m ∈ s.queued c, .enqueued c m ∈ s.log
  inOrder : InOrder s.sent s.log

theorem inv_empty (c₀ : C) (hw : ∀ d, s.waiting d = []) (hq : ∀ c, s.queued c = []) (hl : s.log = []) : Inv s := by
  have hheld : ∀ p, s.held p = [] := by
    intro p
    cases p with
    | inl d => exact hw d
    | inr c => exact hq c
  have hnone : ∀ e, e ∉ s.log := fun e he => by rw [hl] at he; cases he
  have hfresh : ∀ d m, m ∉ Delivery.fresh s.log (s.waiting d) := fun d m hm => by rw [hw] at hm; cases hm
  refine ⟨fun m => ?_, fun p m hm => ?_, fun d => ?_, fun d m hm => absurd hm (hfresh d m),
    fun d m hm => absurd hm (hfresh d m), fun c m hc => absurd hc (hnone _), fun d m _ c hc => absurd hc (hnone _),
    fun c' m _ c hc => absurd hc (hnone _), fun c m hm => ?_, fun before c m after heq => ?_⟩
  · refine ⟨.inr c₀, fun q => ?_⟩
    rw [hheld, List.count_nil]
    exact Nat.zero_le _
  · rw [hheld] at hm
    cases hm
  · rw [hw]
    exact List.Pairwise.nil
  · rw [hq] at hm
    cases hm
  · rw [hl] at heq
    cases before <;> cases heq

theorem mem_of_count_le {l l' : List Nat} (h : ∀ m, l'.count m ≤ l.count m) (hm : m ∈ l') : m ∈ l :=
  List.count_pos_iff.mp (Nat.lt_of_lt_of_le (List.count_pos_iff.mpr hm) (h m))

theorem Inv.shed (h : Inv s) (hs : Sheds s s') : Inv s' := by
  have hheld : ∀ p m, (s'.held p).count m ≤ (s.held p).count m := by
    intro p m
    cases p with
    | inl d => exact hs.waiting d m
    | inr c => exact hs.queued c m
  have hfresh : ∀ d, (Delivery.fresh s'.log (s'.waiting d)).Sublist (Delivery.fresh s.log (s.waiting d)) := by
    intro d
    rw [hs.log]
    exact hs.fresh d
  refine ⟨h.once.le hheld, fun p m hm => ?_, fun d => (h.sorted d).sublist (hfresh d), fun d m hm => ?_,
    fun d m hm c m' hc hd => ?_, fun c m hc => ?_, fun d m hm c hc => ?_, fun c' m hm c hc => ?_, fun c m hm => ?_, ?_⟩
  · rw [hs.sent]
    exact h.lt p m (mem_of_count_le (hheld p) hm)
  · rw [hs.sent]
    exact h.addressed d m ((hfresh d).subset hm)
  · rw [hs.log] at hc
    rw [hs.sent] at hd
    exact h.later d m ((hfresh d).subset hm) c m' hc hd
  · rw [hs.log] at hc
    rw [hs.sent]
    exact h.logged c m hc
  · rw [hs.log] at hc ⊢
    obtain ⟨hb, hdead⟩ := h.back d m (mem_of_count_le (hs.waiting d) hm) c hc
    exact ⟨hb, hs.dead c hdead⟩
  · rw [hs.log] at hc ⊢
    rcases h.elsewhere c' m (mem_of_count_le (hs.queued c') hm) c hc with heq | ⟨hb, hdead⟩
    · exact .inl heq
    · exact .inr ⟨hb, hs.dead c hdead⟩
  · rw [hs.log]
    exact h.queued c m (mem_of_count_le (hs.queued c) hm)
  · rw [hs.log, hs.sent]
    exact h.inOrder

/-! ### Dispatching a message -/

omit [DecidableEq C] in
theorem waiting_dispatch (e : D) :
    (s.dispatch d).waiting e = s.waiting e ++ if e = d then [s.sent.length] else [] := by
  show Function.update s.waiting d _ e = _
  rw [Function.update_apply]
  split
  · subst_vars; rfl
  · exact (List.append_nil _).symm

omit [DecidableEq C] in
theorem mem_waiting_dispatch : m ∈ (s.dispatch d).waiting e ↔ m ∈ s.waiting e ∨ (e = d ∧ m = s.sent.length) := by
  rw [waiting_dispatch, List.mem_append]
  split
  · simp [*]
  · simp [*]

/-- A fresh message is an old one or the new one. -/
theorem Inv.fresh_dispatch (h : Inv s) (d e : D) : Delivery.fresh s.log ((s.dispatch d).waiting e) =
    Delivery.fresh s.log (s.waiting e) ++ if e = d then [s.sent.length] else [] := by
  rw [waiting_dispatch, fresh_append]
  split
  · congr 1
    refine List.filter_eq_self.mpr (fun m hm => ?_)
    obtain rfl := List.mem_singleton.mp hm
    rw [Bool.not_eq_true', ← Bool.not_eq_true, wasEnqueued_iff]
    rintro ⟨c, hc⟩
    exact Nat.lt_irrefl _ (h.logged c _ hc)
  · rfl

theorem Inv.once_dispatch (h : Inv s) (d : D) : HeldOnce (s.dispatch d).held := by
  have hnew : ∀ p, s.sent.length ∉ s.held p := fun p hm => Nat.lt_irrefl _ (h.lt p _ hm)
  refine h.once.add (q := .inl d) hnew (fun m => ?_) (fun r hr m => ?_)
  · show ((s.dispatch d).waiting d).count m ≤ (s.waiting d).count m + _
    refine Nat.le_of_eq ?_
    rw [waiting_dispatch, if_pos rfl, List.count_append]
  · cases r with
    | inl e =>
      show ((s.dispatch d).waiting e).count m ≤ (s.waiting e).count m
      refine Nat.le_of_eq ?_
      rw [waiting_dispatch, if_neg (fun he => hr (congrArg Sum.inl he)), List.append_nil]
    | inr c => exact Nat.le_refl _

theorem Inv.dispatch (h : Inv s) (d : D) : Inv (s.dispatch d) := by
  have hlen : (s.dispatch d).sent.length = s.sent.length + 1 := List.length_append
  have hcases : ∀ {e m}, m ∈ Delivery.fresh s.log ((s.dispatch d).waiting e) →
      m ∈ Delivery.fresh s.log (s.waiting e) ∨ (e = d ∧ m = s.sent.length) := by
    intro e m hm
    obtain ⟨hm, hn⟩ := mem_fresh.mp hm
    exact (mem_waiting_dispatch.mp hm).imp (fun hm => mem_fresh.mpr ⟨hm, hn⟩) id
  have hget : ∀ {m}, m < s.sent.length → (s.dispatch d).sent[m]? = s.sent[m]? := fun hm =>
    List.getElem?_append_left hm
  refine ⟨h.once_dispatch d, fun p m hm => ?_, fun e => ?_, fun e m hm => ?_, fun e m hm c m' hc he => ?_,
    fun c m hc => ?_, fun e m hm c hc => ?_, h.elsewhere, h.queued, ?_⟩
  · rw [hlen]
    cases p with
    | inl e =>
      rcases mem_waiting_dispatch.mp hm with hm | ⟨-, rfl⟩
      · exact Nat.lt_succ_of_lt (h.lt (.inl e) m hm)
      · exact Nat.lt_succ_self _
    | inr c => exact Nat.lt_succ_of_lt (h.lt (.inr c) m hm)
  · -- the new message is greater than all others
    show (Delivery.fresh s.log _).Pairwise _
    rw [h.fresh_dispatch]
    refine List.pairwise_append.mpr ⟨h.sorted e, ?_, fun m hm m' hm' => ?_⟩
    · split
      · exact List.pairwise_singleton _ _
      · exact List.Pairwise.nil
    · split at hm'
      · obtain rfl := List.mem_singleton.mp hm'
        exact h.lt (.inl e) m (mem_fresh.mp hm).1
      · cases hm'
  · rcases hcases hm with hm | ⟨rfl, rfl⟩
    · rw [hget (h.lt (.inl e) m (mem_fresh.mp hm).1)]
      exact h.addressed e m hm
    · exact List.getElem?_concat_length
  · have hm' := h.logged c m' hc
    rcases hcases hm with hm | ⟨rfl, rfl⟩
    · rw [hget hm'] at he
      exact h.later e m hm c m' hc he
    · exact hm'
  · rw [hlen]
    exact Nat.lt_succ_of_lt (h.logged c m hc)
  · rcases mem_waiting_dispatch.mp hm with hm | ⟨-, rfl⟩
    · exact h.back e m hm c hc
    · exact absurd (h.logged c _ hc) (Nat.lt_irrefl _)
  · intro before c m after heq
    have hin : ∀ e ∈ before ++ .enqueued c m :: after, e ∈ s.log := fun e he => heq ▸ he
    refine (h.inOrder before c m after heq).mono (fun c' m' hc => ?_) ?_
    · exact h.logged c' m' (hin _ (List.mem_append_left _ hc))
    · exact h.logged c m (hin _ (List.mem_append_right _ List.mem_cons_self))

/-! ### Queueing a message -/

theorem waiting_enqueue (e : D) :
    (s.enqueue d c m).waiting e = if e = d then (s.waiting d).erase m else s.waiting e :=
  Function.update_apply _ _ _ _

theorem queued_enqueue (b : C) :
    (s.enqueue d c m).queued b = if b = c then s.queued c ++ [m] else s.queued b :=
  Function.update_apply _ _ _ _

theorem waiting_enqueue_sublist (e : D) : ((s.enqueue d c m).waiting e).Sublist (s.waiting e) := by
  rw [waiting_enqueue]
  split
  · subst_vars; exact List.erase_sublist
  · exact List.Sublist.refl _

theorem mem_queued_enqueue {b : C} {m' : Nat} :
    m' ∈ (s.enqueue d c m).queued b ↔ m' ∈ s.queued b ∨ (b = c ∧ m' = m) := by
  rw [queued_enqueue]
  split
  · subst_vars
    simp
  · simp [*]

theorem mem_log_enqueue {e : DeliveryEntry C} : e ∈ (s.enqueue d c m).log ↔ e ∈ s.log ∨ e = .enqueued c m := by
  show e ∈ s.log ++ [.enqueued c m] ↔ _
  rw [List.mem_append, List.mem_singleton]

omit [DecidableEq D] [DecidableEq C] in
theorem exists_enqueued (hm : m ∈ s.waiting d) (hn : m ∉ Delivery.fresh s.log (s.waiting d)) :
    ∃ a, .enqueued a m ∈ s.log := by
  by_contra hnot
  exact hn (mem_fresh.mpr ⟨hm, not_exists.mp hnot⟩)

theorem Inv.once_enqueue (h : Inv s) (hm : m ∈ s.waiting d) : HeldOnce (s.enqueue d c m).held := by
  refine h.once.move (p := .inl d) (q := .inr c) (by simp) [m] (fun m' => ?_) (fun m' => ?_) (fun r hp hq m' => ?_)
  · show ((s.enqueue d c m).waiting d).count m' + _ ≤ (s.waiting d).count m'
    rw [waiting_enqueue, if_pos rfl, List.count_erase, List.count_singleton]
    have := List.count_pos_iff.mpr hm
    split
    · rename_i heq
      rw [beq_iff_eq] at heq
      subst heq
      omega
    · omega
  · show ((s.enqueue d c m).queued c).count m' ≤ (s.queued c).count m' + _
    refine Nat.le_of_eq ?_
    rw [queued_enqueue, if_pos rfl, List.count_append]
  · cases r with
    | inl e => exact (waiting_enqueue_sublist e).count_le m'
    | inr b =>
      show ((s.enqueue d c m).queued b).count m' ≤ (s.queued b).count m'
      refine Nat.le_of_eq ?_
      rw [queued_enqueue, if_neg (fun hb => hq (congrArg Sum.inr hb))]

/-- A message that is queued does not wait any more. -/
theorem Inv.notMem_waiting_enqueue (h : Inv s) (hm : m ∈ s.waiting d) (e : D) :
    m ∉ (s.enqueue d c m).waiting e := by
  intro he
  have hq : m ∈ (s.enqueue d c m).queued c := mem_queued_enqueue.mpr (.inr ⟨rfl, rfl⟩)
  have heq : (Sum.inl e : D ⊕ C) = .inr c := (h.once_enqueue hm).eq_of_mem he hq
  cases heq

/-- What is still fresh was fresh, and is not the message itself. -/
theorem Inv.mem_fresh_enqueue (h : Inv s) (hm : m ∈ s.waiting d) {m' : Nat}
    (hf : m' ∈ Delivery.fresh (s.enqueue d c m).log ((s.enqueue d c m).waiting e)) :
    m' ∈ Delivery.fresh s.log (s.waiting e) ∧ m' ≠ m := by
  obtain ⟨hw, hn⟩ := mem_fresh.mp hf
  refine ⟨mem_fresh.mpr ⟨(waiting_enqueue_sublist e).subset hw, fun b hb => hn b (mem_log_enqueue.mpr (.inl hb))⟩,
    fun heq => ?_⟩
  exact h.notMem_waiting_enqueue hm e (heq ▸ hw)

/-- What is still fresh was sent after all that was queued for its destination. -/
theorem Inv.later_enqueue (h : Inv s) (hm : m ∈ s.waiting d)
    (hfirst : m ∈ Delivery.fresh s.log (s.waiting d) → (Delivery.fresh s.log (s.waiting d)).head? = some m)
    {m' m'' : Nat} {b : C} (hf : m' ∈ Delivery.fresh s.log (s.waiting e)) (hne : m' ≠ m)
    (hb : .enqueued b m'' ∈ (s.enqueue d c m).log) (he : s.sent[m'']? = some e) : m'' < m' := by
  rcases mem_log_enqueue.mp hb with hb | hb
  · exact h.later e m' hf b m'' hb he
  · obtain ⟨rfl, rfl⟩ := DeliveryEntry.enqueued.inj hb
    by_cases hnew : m'' ∈ Delivery.fresh s.log (s.waiting d)
    · -- it was the first one of the fresh ones, which are sorted
      obtain rfl : e = d := Option.some.inj (he.symm.trans (h.addressed d m'' hnew))
      obtain ⟨rest, hrest⟩ := List.head?_eq_some_iff.mp (hfirst hnew)
      have hs := h.sorted e
      rw [hrest] at hs hf
      rcases List.mem_cons.mp hf with rfl | hf
      · exact absurd rfl hne
      · exact (List.pairwise_cons.mp hs).1 m' hf
    · obtain ⟨a, ha⟩ := exists_enqueued hm hnew
      exact h.later e m' hf a m'' ha he

theorem Inv.inOrder_enqueue (h : Inv s) (hm : m ∈ s.waiting d) (hc : ¬ s.dead c) :
    InOrder s.sent (s.enqueue d c m).log := by
  refine h.inOrder.append (fun before b m' after heq => ?_)
  obtain ⟨rfl, hb⟩ : before = [] ∧ .enqueued b m' = DeliveryEntry.enqueued c m := by
    cases before with
    | nil => exact ⟨rfl, (List.cons.inj heq).1.symm⟩
    | cons x rest => simp at heq
  obtain ⟨rfl, rfl⟩ := DeliveryEntry.enqueued.inj hb
  rw [List.append_nil]
  refine ⟨fun hb => hc (h.back d m' hm b hb).2, ?_⟩
  by_cases hnew : m' ∈ Delivery.fresh s.log (s.waiting d)
  · refine .inl (fun a m'' ha he => h.later d m' hnew a m'' ha ?_)
    rw [he]
    exact h.addressed d m' hnew
  · obtain ⟨a, ha⟩ := exists_enqueued hm hnew
    exact .inr ⟨a, ha, (h.back d m' hm a ha).1⟩

/-- A message that waits is queued on a channel; a fresh one is the first one of its destination. -/
theorem Inv.enqueue (h : Inv s) (hm : m ∈ s.waiting d) (hc : ¬ s.dead c)
    (hfirst : m ∈ Delivery.fresh s.log (s.waiting d) → (Delivery.fresh s.log (s.waiting d)).head? = some m) :
    Inv (s.enqueue d c m) := by
  have hfresh : ∀ e, (Delivery.fresh (s.enqueue d c m).log ((s.enqueue d c m).waiting e)).Sublist
      (Delivery.fresh s.log (s.waiting e)) := by
    intro e
    exact (fresh_sublist (fun e he => mem_log_enqueue.mpr (.inl he))).trans ((waiting_enqueue_sublist e).filter _)
  refine ⟨h.once_enqueue hm, fun p m' hm' => ?_, fun e => (h.sorted e).sublist (hfresh e), fun e m' hm' => ?_,
    fun e m' hm' b m'' hb he => ?_, fun b m' hb => ?_, fun e m' hm' b hb => ?_, fun b' m' hm' b hb => ?_,
    fun b m' hm' => ?_, h.inOrder_enqueue hm hc⟩
  · cases p with
    | inl e => exact h.lt (.inl e) m' ((waiting_enqueue_sublist e).subset hm')
    | inr b =>
      rcases mem_queued_enqueue.mp hm' with hm' | ⟨-, rfl⟩
      · exact h.lt (.inr b) m' hm'
      · exact h.lt (.inl d) m' hm
  · exact h.addressed e m' (h.mem_fresh_enqueue hm hm').1
  · obtain ⟨hf, hne⟩ := h.mem_fresh_enqueue hm hm'
    exact h.later_enqueue hm hfirst hf hne hb he
  · rcases mem_log_enqueue.mp hb with hb | hb
    · exact h.logged b m' hb
    · obtain ⟨rfl, rfl⟩ := DeliveryEntry.enqueued.inj hb
      exact h.lt (.inl d) m' hm
  · rcases mem_log_enqueue.mp hb with hb | hb
    · obtain ⟨h1, h2⟩ := h.back e m' ((waiting_enqueue_sublist e).subset hm') b hb
      exact ⟨mem_log_enqueue.mpr (.inl h1), h2⟩
    · obtain ⟨rfl, rfl⟩ := DeliveryEntry.enqueued.inj hb
      exact absurd hm' (h.notMem_waiting_enqueue hm e)
  · rcases mem_log_enqueue.mp hb with hlog | hb
    · rcases mem_queued_enqueue.mp hm' with hm' | ⟨-, rfl⟩
      · exact (h.elsewhere b' m' hm' b hlog).imp id fun ⟨h1, h2⟩ => ⟨mem_log_enqueue.mpr (.inl h1), h2⟩
      · obtain ⟨h1, h2⟩ := h.back d m' hm b hlog
        exact .inr ⟨mem_log_enqueue.mpr (.inl h1), h2⟩
    · obtain ⟨rfl, rfl⟩ := DeliveryEntry.enqueued.inj hb
      have hq : m' ∈ (s.enqueue d b m').queued b := mem_queued_enqueue.mpr (.inr ⟨rfl, rfl⟩)
      exact .inl (Sum.inr.inj ((h.once_enqueue hm).eq_of_mem hq hm'))
  · rcases mem_queued_enqueue.mp hm' with hm' | ⟨rfl, rfl⟩
    · exact mem_log_enqueue.mpr (.inl (h.queued b m' hm'))
    · exact mem_log_enqueue.mpr (.inr rfl)

/-! ### Handing messages back -/

theorem waiting_handBack (e : D) :
    (s.handBack c d ms).waiting e = if e = d then s.waiting d ++ ms else s.waiting e :=
  Function.update_apply _ _ _ _

theorem queued_handBack (b : C) : (s.handBack c d ms).queued b = if b = c then [] else s.queued b :=
  Function.update_apply _ _ _ _

theorem dead_handBack (b : C) : (s.handBack c d ms).dead b ↔ b = c ∨ s.dead b := by
  show Function.update s.dead c True b ↔ _
  rw [Function.update_apply]
  split
  · simp [*]
  · simp [*]

theorem mem_waiting_handBack (hm : m ∈ (s.handBack c d ms).waiting e) : m ∈ s.waiting e ∨ m ∈ ms := by
  rw [waiting_handBack] at hm
  split at hm
  · subst_vars; exact List.mem_append.mp hm
  · exact .inl hm

theorem queued_handBack_sublist (b : C) : ((s.handBack c d ms).queued b).Sublist (s.queued b) := by
  rw [queued_handBack]
  split
  · exact List.nil_sublist _
  · exact List.Sublist.refl _

theorem mem_log_handBack {e : DeliveryEntry C} :
    e ∈ (s.handBack c d ms).log ↔ e ∈ s.log ∨ ∃ m ∈ ms, .handedBack c m = e := by
  show e ∈ s.log ++ ms.map (.handedBack c) ↔ _
  rw [List.mem_append, List.mem_map]

theorem enqueued_mem_log_handBack {b : C} :
    .enqueued b m ∈ (s.handBack c d ms).log ↔ .enqueued b m ∈ s.log := by
  rw [mem_log_handBack]
  refine ⟨fun he => he.resolve_right ?_, .inl⟩
  rintro ⟨m', -, he⟩
  cases he

/-- What was queued is not fresh. -/
theorem Inv.fresh_handBack (h : Inv s) (hms : ms.Sublist (s.queued c)) (e : D) :
    Delivery.fresh (s.handBack c d ms).log ((s.handBack c d ms).waiting e) = Delivery.fresh s.log (s.waiting e) := by
  have hnil : Delivery.fresh s.log ms = [] := fresh_eq_nil (fun m hm => ⟨c, h.queued c m (hms.subset hm)⟩)
  have hsame : Delivery.fresh (s.handBack c d ms).log ((s.handBack c d ms).waiting e) =
      Delivery.fresh s.log ((s.handBack c d ms).waiting e) := by
    refine List.filter_congr (fun m _ => congrArg _ (Bool.eq_iff_iff.mpr ?_))
    rw [wasEnqueued_iff, wasEnqueued_iff]
    exact exists_congr (fun b => enqueued_mem_log_handBack)
  rw [hsame, waiting_handBack]
  split
  · subst_vars
    rw [fresh_append, hnil, List.append_nil]
  · rfl

theorem Inv.once_handBack (h : Inv s) (hms : ms.Sublist (s.queued c)) : HeldOnce (s.handBack c d ms).held := by
  refine h.once.move (p := .inr c) (q := .inl d) (by simp) ms (fun m => ?_) (fun m => ?_) (fun r hp hq m => ?_)
  · show ((s.handBack c d ms).queued c).count m + ms.count m ≤ (s.queued c).count m
    rw [queued_handBack, if_pos rfl, List.count_nil, Nat.zero_add]
    exact hms.count_le m
  · show ((s.handBack c d ms).waiting d).count m ≤ (s.waiting d).count m + ms.count m
    refine Nat.le_of_eq ?_
    rw [waiting_handBack, if_pos rfl, List.count_append]
  · cases r with
    | inl e =>
      show ((s.handBack c d ms).waiting e).count m ≤ (s.waiting e).count m
      refine Nat.le_of_eq ?_
      rw [waiting_handBack, if_neg (fun he => hq (congrArg Sum.inl he))]
    | inr b => exact (queued_handBack_sublist b).count_le m

/-- A channel dies, and some of its messages wait again. -/
theorem Inv.handBack (h : Inv s) (hms : ms.Sublist (s.queued c)) : Inv (s.handBack c d ms) := by
  refine ⟨h.once_handBack hms, fun p m hm => ?_, fun e => ?_, fun e m hm => ?_, fun e m hm b m' hb he => ?_,
    fun b m hb => h.logged b m (enqueued_mem_log_handBack.mp hb), fun e m hm b hb => ?_, fun b' m hm b hb => ?_,
    fun b m hm => ?_, ?_⟩
  · cases p with
    | inl e =>
      rcases mem_waiting_handBack hm with hm | hm
      · exact h.lt (.inl e) m hm
      · exact h.lt (.inr c) m (hms.subset hm)
    | inr b => exact h.lt (.inr b) m ((queued_handBack_sublist b).subset hm)
  · rw [h.fresh_handBack hms]
    exact h.sorted e
  · rw [h.fresh_handBack hms] at hm
    exact h.addressed e m hm
  · rw [h.fresh_handBack hms] at hm
    exact h.later e m hm b m' (enqueued_mem_log_handBack.mp hb) he
  · have hlog := enqueued_mem_log_handBack.mp hb
    rcases mem_waiting_handBack hm with hw | hback
    · obtain ⟨h1, h2⟩ := h.back e m hw b hlog
      exact ⟨mem_log_handBack.mpr (.inl h1), (dead_handBack b).mpr (.inr h2)⟩
    · rcases h.elsewhere c m (hms.subset hback) b hlog with rfl | ⟨h1, h2⟩
      · exact ⟨mem_log_handBack.mpr (.inr ⟨m, hback, rfl⟩), (dead_handBack b).mpr (.inl rfl)⟩
      · exact ⟨mem_log_handBack.mpr (.inl h1), (dead_handBack b).mpr (.inr h2)⟩
  · have hq := (queued_handBack_sublist b').subset hm
    refine (h.elsewhere b' m hq b (enqueued_mem_log_handBack.mp hb)).imp id ?_
    exact fun ⟨h1, h2⟩ => ⟨mem_log_handBack.mpr (.inl h1), (dead_handBack b).mpr (.inr h2)⟩
  · exact enqueued_mem_log_handBack.mpr (h.queued b m ((queued_handBack_sublist b).subset hm))
  · refine h.inOrder.append (fun before b m after heq => ?_)
    have hin : .enqueued b m ∈ ms.map (DeliveryEntry.handedBack c) := by
      rw [heq]
      exact List.mem_append_right _ List.mem_cons_self
    obtain ⟨m', -, he⟩ := List.mem_map.mp hin
    cases he

end Delivery

end Kompact
