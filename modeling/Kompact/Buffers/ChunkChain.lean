import Kompact.Buffers.ChunkRef

/-!
# Chains of leases and references

What appending, splitting, converting, cloning and chaining do to the bytes
that are left to read. Only the read pointer of the first node of a chain
counts, also of one that has become the tail of another: a reference that was
read is chained behind a lease with all of its bytes (`chainAlgebra_iff`).

`Obtained` are the leases and references that can be made at all. As long as
their slices have bytes left, `chunk` is a non-empty prefix of these; at the
end it panics, where it should be empty (`chunk_contract_iff`).
-/

namespace Kompact

namespace ChunkLease

/-- The loop of `create_byte_clone`. A round copies at least one byte, so the
length of the chain is enough fuel. -/
def cloneLoop (m : Mem) (l : ChunkLease) : Nat → Nat → Panics (List UInt8)
  | fuel, readPointer =>
    if readPointer < l.capacity then
      match fuel with
      | 0 => .error "create_byte_clone makes no progress"
      | fuel + 1 => do
        let readBytes ← l.getChunkAt readPointer
        return readBytes.bytes m ++ (← cloneLoop m l fuel (readPointer + readBytes.len))
    else .ok []

/-- A copy of the bytes that are left to read. -/
def createByteClone (m : Mem) (l : ChunkLease) : Panics (List UInt8) := cloneLoop m l l.capacity l.readPointer

/-- The stored lengths are those of the slices, whatever was read. -/
def Sized : ChunkLease → Prop
  | last n => n.chainHeadLen = n.content.len ∧ n.chainLen = n.content.len
  | link n c => n.chainHeadLen = n.content.len ∧ n.chainLen = n.content.len + c.capacity ∧ c.Sized

theorem WF.sized {l : ChunkLease} (h : l.WF) : l.Sized := by
  induction l with
  | last n => exact h
  | link n c ih => exact ⟨h.1, h.2.1, ih h.2.2.2⟩

theorem Sized.headed {l : ChunkLease} (h : l.Sized) : l.Headed := by
  induction l with
  | last n => exact h.1
  | link n c ih => exact ⟨h.1, ih h.2.2⟩

theorem Sized.held_eq {l : ChunkLease} (h : l.Sized) : l.held = l.capacity := by
  induction l with
  | last n => exact h.2.symm
  | link n c ih => rw [held, ih h.2.2]; exact h.2.1.symm

theorem Sized.advance {l : ChunkLease} (h : l.Sized) (k : Nat) : (l.advance k).Sized := by
  cases l <;> exact h

@[simp] theorem held_appendToChain (l t : ChunkLease) : (l.appendToChain t).held = l.held + t.held := by
  induction l with
  | last n => rfl
  | link n c ih => simp only [appendToChain, held, ih, Nat.add_assoc]

theorem Headed.appendToChain {l t : ChunkLease} (hl : l.Headed) (ht : t.Headed) : (l.appendToChain t).Headed := by
  induction l with
  | last n => exact ⟨hl, ht⟩
  | link n c ih => exact ⟨hl.1, ih hl.2⟩

theorem Sized.appendToChain {l t : ChunkLease} (hl : l.Sized) (ht : t.Sized) : (l.appendToChain t).Sized := by
  induction l with
  | last n => exact ⟨hl.1, by simp only [hl.2], ht⟩
  | link n c ih =>
    obtain ⟨hn, hlen, hc⟩ := hl
    refine ⟨hn, ?_, ih hc⟩
    rw [capacity_appendToChain, hlen, Nat.add_assoc]

theorem unread_of_unread {l : ChunkLease} (h : l.readPointer = 0) (m : Mem) : l.unread m = l.bytes m := by
  rw [unread, h, List.drop_zero]

/-- What is left to read of a chain that was extended: nothing of the tail was
read, whatever its read pointer says. -/
theorem unread_appendToChain {l t : ChunkLease} (hr : l.readPointer ≤ l.held) (m : Mem) :
    (l.appendToChain t).unread m = l.unread m ++ t.bytes m := by
  rw [unread, bytes_appendToChain, readPointer_appendToChain, List.drop_append_of_le_length (by simpa using hr)]
  rfl

/-- What is left to read is as long as the stored lengths say. -/
structure Measured (l : ChunkLease) : Prop where
  capacity : ∀ m, (l.bytes m).length = l.capacity
  remaining : ∀ m, (l.unread m).length = l.remaining

theorem Sized.measured {l : ChunkLease} (h : l.Sized) : l.Measured where
  capacity m := by rw [length_bytes_held, h.held_eq]
  remaining m := by rw [unread, List.length_drop, length_bytes_held, h.held_eq, remaining]

/-! ## Cloning -/

theorem cloneLoop_spec (m : Mem) {l : ChunkLease} (h : l.Sized) (fuel readPointer : Nat)
    (hf : l.capacity ≤ fuel + readPointer) :
    cloneLoop m l fuel readPointer = .ok ((l.bytes m).drop readPointer) := by
  induction fuel generalizing readPointer with
  | zero =>
    have hge : ¬ readPointer < l.capacity := by omega
    rw [cloneLoop, if_neg hge, List.drop_of_length_le (by rw [length_bytes_held, h.held_eq]; omega)]
  | succ fuel ih =>
    rw [cloneLoop]
    by_cases hlt : readPointer < l.capacity
    swap
    · rw [if_neg hlt, List.drop_of_length_le (by rw [length_bytes_held, h.held_eq]; omega)]
    rw [if_pos hlt]
    rcases getChunkAt_cases h.headed readPointer with ⟨-, s, hs, h0, hpre⟩ | ⟨hge, -⟩
    · -- the slice that is copied, and the rest by induction
      have hrec := ih (readPointer + s.len) (by omega)
      obtain ⟨rest, hrest⟩ := hpre m
      simp only [hs, hrec, bind, Except.bind, pure, Except.pure]
      rw [← hrest, ← List.drop_drop, ← hrest, List.drop_left' (Slice.length_bytes m s)]
    · rw [h.held_eq] at hge
      omega

theorem createByteClone_spec (m : Mem) {l : ChunkLease} (h : l.Sized) : l.createByteClone m = .ok (l.unread m) :=
  cloneLoop_spec m h _ _ (Nat.le_add_right ..)

end ChunkLease

/-! ## The algebra -/

/-- What the operations on chains do to the bytes that are left to read: of two
leases of which the second was not read, a reference, and a position to split at. -/
structure ChainAlgebra (l t : ChunkLease) (r : ChunkRef) (p : Nat) : Prop where
  append : (l.appendToChain t).Measured ∧ ∀ m, (l.appendToChain t).unread m = l.unread m ++ t.unread m
  split : l.readPointer = 0 → ∃ l' t', l.splitAt p = .ok (l', t') ∧ l'.WF ∧ t'.WF ∧ l'.Measured ∧ t'.Measured ∧
    ∀ m, l'.unread m = (l.unread m).take p ∧ t'.unread m = (l.unread m).drop p
  convert : ∃ r', l.intoChunkRef = .ok r' ∧ r'.lease.Measured ∧ ∀ m, r'.unread m = l.unread m
  clone : ∀ m, l.createByteClone m = .ok (l.unread m)
  withTail : ∃ r', l.intoChunkRefWithTail r = .ok r' ∧ r'.lease.Measured ∧
    ∀ m, r'.unread m = l.unread m ++ r.unread m
  withHead : ∃ r', l.intoChunkRefWithHead r = .ok r' ∧ r'.lease.Measured ∧
    ∀ m, r'.unread m = r.unread m ++ l.unread m

namespace ChunkLease

/-- A reference that was made from a lease, with another behind it. -/
theorem intoChunkRefWithTail_spec {l : ChunkLease} (h : l.WF) (hr : l.readPointer ≤ l.capacity) (tail : ChunkRef) :
    ∃ r, l.intoChunkRefWithTail tail = .ok r ∧ (tail.lease.Sized → r.lease.Sized) ∧
      ∀ m, r.unread m = l.unread m ++ tail.bytes m := by
  obtain ⟨r, hinto, hwf, h0, hbytes, -⟩ := intoChunkRef_spec h hr
  refine ⟨r.appendToChain tail, ?_, hwf.sized.appendToChain, fun m => ?_⟩
  · simp only [intoChunkRefWithTail, hinto, bind, Except.bind]
    rfl
  · have happ := unread_appendToChain (l := r.lease) (t := tail.lease) (h0.trans_le (Nat.zero_le _)) m
    have hun : r.lease.unread m = l.unread m := (unread_of_unread h0 m).trans (hbytes m)
    rw [← hun]
    exact happ

/-- A reference that was made from a lease, behind another one. -/
theorem intoChunkRefWithHead_spec {l : ChunkLease} (h : l.WF) (hr : l.readPointer ≤ l.capacity) {head : ChunkRef}
    (hh : head.lease.Sized) (hhr : head.readPointer ≤ head.capacity) :
    ∃ r, l.intoChunkRefWithHead head = .ok r ∧ r.lease.Sized ∧ ∀ m, r.unread m = head.unread m ++ l.unread m := by
  obtain ⟨r, hinto, hwf, h0, hbytes, -⟩ := intoChunkRef_spec h hr
  refine ⟨head.appendToChain r, ?_, hh.appendToChain hwf.sized, fun m => ?_⟩
  · simp only [intoChunkRefWithHead, hinto, bind, Except.bind]
    rfl
  · rw [← hbytes m]
    exact unread_appendToChain (by rw [hh.held_eq]; exact hhr) m

end ChunkLease

/-- All is as it should be if and only if the reference was not read before it is
chained behind the lease. -/
theorem chainAlgebra_iff {l t : ChunkLease} {r : ChunkRef} {p : Nat} (hl : l.WF) (hlr : l.readPointer ≤ l.capacity)
    (ht : t.WF) (ht0 : t.readPointer = 0) (hr : r.lease.Sized) (hrr : r.readPointer ≤ r.capacity)
    (hp : p ≤ l.capacity) : ChainAlgebra l t r p ↔ r.readPointer = 0 := by
  obtain ⟨r', htail, htsized, htun⟩ := ChunkLease.intoChunkRefWithTail_spec hl hlr r
  constructor
  · -- otherwise the chained reference is too long
    rintro ⟨-, -, -, -, ⟨r'', htail', -, hun⟩, -⟩
    obtain rfl := Except.ok.inj (htail.symm.trans htail')
    have hsame := List.append_cancel_left ((htun fun _ _ => 0).symm.trans (hun fun _ _ => 0))
    have hlen := congrArg List.length hsame
    rw [ChunkRef.unread, ChunkLease.unread, List.length_drop, ChunkRef.bytes, ChunkLease.length_bytes_held,
      hr.held_eq] at hlen
    unfold ChunkRef.readPointer ChunkRef.capacity at hrr
    unfold ChunkRef.readPointer
    omega
  · intro h0
    refine ⟨⟨(hl.sized.appendToChain ht.sized).measured, fun m => ?_⟩, fun hl0 => ?_, ?_,
      fun m => ChunkLease.createByteClone_spec m hl.sized, ⟨r', htail, (htsized hr).measured, fun m => ?_⟩, ?_⟩
    · rw [ChunkLease.unread_appendToChain (by rw [hl.held_eq]; exact hlr), ChunkLease.unread_of_unread ht0]
    · obtain ⟨l', t', hs, sp⟩ := ChunkLease.splitAt_spec hl hp
      refine ⟨l', t', hs, sp.wf, sp.wf_tail, sp.wf.sized.measured, sp.wf_tail.sized.measured, fun m => ⟨?_, ?_⟩⟩
      · rw [ChunkLease.unread_of_unread (sp.readPointer.trans hl0), ChunkLease.unread_of_unread hl0, sp.bytes]
      · rw [ChunkLease.unread_of_unread sp.readPointer_tail, ChunkLease.unread_of_unread hl0, sp.bytes_tail]
    · obtain ⟨r₀, hinto, hwf, hr0, hbytes, -⟩ := ChunkLease.intoChunkRef_spec hl hlr
      exact ⟨r₀, hinto, hwf.sized.measured, fun m => (ChunkLease.unread_of_unread hr0 m).trans (hbytes m)⟩
    · rw [htun m]
      exact congrArg (l.unread m ++ ·) (ChunkLease.unread_of_unread h0 m).symm
    · obtain ⟨r₀, hinto, hsized, hun⟩ := ChunkLease.intoChunkRefWithHead_spec hl hlr hr hrr
      exact ⟨r₀, hinto, hsized.measured, hun⟩

/-- Two slices in different chunks. -/
def twoSlices (a b : ChunkId) : ChunkLease := (ChunkLease.new ⟨a, 0, 3⟩ a).appendToChain (.new ⟨b, 2, 2⟩ b)

/-- A lease of two slices of which four bytes were read, a fresh one, and a
reference of two slices; the cut is in the second slice. -/
theorem chainAlgebra_iff_read : ChainAlgebra ((twoSlices 1 2).advance 4) (twoSlices 3 4) ⟨twoSlices 5 6⟩ 4 := by
  have hwf : ∀ a b, (twoSlices a b).WF := fun a b => (ChunkLease.wf_new _ _).appendToChain (ChunkLease.wf_new _ _) rfl
  exact (chainAlgebra_iff ((hwf 1 2).advance 4) (by decide) (hwf 3 4) rfl (hwf 5 6).sized (by decide)
    (by decide)).mpr rfl

/-- A lease of three bytes, and a reference to five bytes of which one was read:
all five are behind the lease. -/
theorem not_chainAlgebra_read_tail :
    ¬ ChainAlgebra (.new ⟨1, 0, 3⟩ 1) (.new ⟨2, 0, 3⟩ 2) (ChunkRef.advance ⟨twoSlices 5 6⟩ 1) 0 ∧
      ∃ r, (ChunkLease.new ⟨1, 0, 3⟩ 1).intoChunkRefWithTail (ChunkRef.advance ⟨twoSlices 5 6⟩ 1) = .ok r ∧
        r.remaining = 8 := by
  refine ⟨?_, _, rfl, rfl⟩
  rintro ⟨-, -, -, -, ⟨r, hr, hm, hun⟩, -⟩
  obtain rfl := Except.ok.inj hr
  have hlen := congrArg List.length (hun fun _ _ => 0)
  exact absurd hlen (by decide)

/-! ## What a buffer promises -/

namespace ChunkLease

/-- What `Buf` asks of `chunk`: no panic, an empty slice exactly where nothing
is left, and otherwise the first of the bytes that are left. -/
def ChunkContract (l : ChunkLease) : Prop :=
  ∃ s, l.chunk = .ok s ∧ (s.len = 0 ↔ l.remaining = 0) ∧ ∀ m, s.bytes m <+: l.unread m

/-- The loop over `chunk` and `advance`, until nothing is left. -/
def readAll (m : Mem) : Nat → ChunkLease → Panics (List UInt8)
  | fuel, l =>
    if l.remaining = 0 then .ok []
    else
      match fuel with
      | 0 => .error "the loop makes no progress"
      | fuel + 1 => do
        let src ← l.chunk
        return src.bytes m ++ (← readAll m fuel (l.advance src.len))

/-- A chain that stores at least the number of its bytes as its length. -/
structure Covered (l : ChunkLease) : Prop where
  headed : l.Headed
  held_le : l.held ≤ l.capacity

theorem Covered.advance {l : ChunkLease} (h : l.Covered) (k : Nat) : (l.advance k).Covered where
  headed := h.headed.advance k
  held_le := by rw [held_advance, capacity_advance]; exact h.held_le

theorem Sized.covered {l : ChunkLease} (h : l.Sized) : l.Covered := ⟨h.headed, Nat.le_of_eq h.held_eq⟩

theorem Covered.appendToChain {l t : ChunkLease} (hl : l.Covered) (ht : t.Covered) : (l.appendToChain t).Covered where
  headed := hl.headed.appendToChain ht.headed
  held_le := by
    rw [held_appendToChain, capacity_appendToChain]
    exact Nat.add_le_add hl.held_le ht.held_le

/-- `chunk` is as `Buf` asks if and only if the slices have bytes left. -/
theorem Covered.contract_iff {l : ChunkLease} (h : l.Covered) : l.ChunkContract ↔ l.readPointer < l.held := by
  have hle := h.held_le
  rcases getChunkAt_cases h.headed l.readPointer with ⟨hlt, s, hs, h0, hpre⟩ | ⟨hge, e, he⟩
  · refine iff_of_true ⟨s, hs, ?_, hpre⟩ hlt
    unfold remaining
    omega
  · refine iff_of_false ?_ (Nat.not_lt.mpr hge)
    rintro ⟨s, hs, -⟩
    rw [chunk, he] at hs
    cases hs

/-- The loop reads what is left, if that is what the chain says. -/
theorem Headed.readAll {l : ChunkLease} (h : l.Headed) (he : l.held = l.capacity) (m : Mem) {fuel : Nat}
    (hf : l.remaining ≤ fuel) : l.readAll m fuel = .ok (l.unread m) := by
  have hend : ∀ {l : ChunkLease}, l.held = l.capacity → l.remaining = 0 → l.unread m = [] := by
    intro l he h0
    unfold remaining at h0
    rw [unread, List.drop_of_length_le (by rw [length_bytes_held, he]; omega)]
  induction fuel generalizing l with
  | zero =>
    have h0 : l.remaining = 0 := by omega
    rw [ChunkLease.readAll, if_pos h0, hend he h0]
  | succ fuel ih =>
    rw [ChunkLease.readAll]
    by_cases h0 : l.remaining = 0
    · rw [if_pos h0, hend he h0]
    rw [if_neg h0]
    unfold remaining at h0 hf
    rcases getChunkAt_cases h l.readPointer with ⟨-, s, hs, hpos, hpre⟩ | ⟨hge, -⟩
    · have hrec := @ih (l.advance s.len) (h.advance _) (by rw [held_advance, capacity_advance, he])
        (by rw [remaining, capacity_advance, readPointer_advance]; omega)
      obtain ⟨rest, hrest⟩ := hpre m
      have hun : l.unread m = s.bytes m ++ rest := hrest.symm
      simp only [chunk, hs, hrec, bind, Except.bind, pure, Except.pure]
      rw [unread_advance, hun, List.drop_left' (Slice.length_bytes m s)]
    · omega

/-- Otherwise it panics at the end of the slices, whatever it has read. -/
theorem Headed.readAll_error {l : ChunkLease} (h : l.Headed) (hlt : l.held < l.capacity)
    (hr : l.readPointer < l.capacity) (m : Mem) (fuel : Nat) : ∃ e, l.readAll m fuel = .error e := by
  induction fuel generalizing l with
  | zero => exact ⟨_, if_neg (show l.remaining ≠ 0 by unfold remaining; omega)⟩
  | succ fuel ih =>
    have h0 : l.remaining ≠ 0 := by unfold remaining; omega
    rw [ChunkLease.readAll, if_neg h0]
    rcases getChunkAt_cases h l.readPointer with ⟨-, s, hs, -, hpre⟩ | ⟨-, e, he⟩
    · have hslen : s.len ≤ l.held - l.readPointer := by
        have := (hpre m).length_le
        rwa [Slice.length_bytes, List.length_drop, length_bytes_held] at this
      obtain ⟨e, he⟩ := @ih (l.advance s.len) (h.advance _) (by rw [held_advance, capacity_advance]; exact hlt)
        (by rw [capacity_advance, readPointer_advance]; omega)
      refine ⟨e, ?_⟩
      simp only [chunk, hs, he, bind, Except.bind]
    · exact ⟨e, by simp only [chunk, he, bind, Except.bind]⟩

/-- The loop ends with what is left if and only if the chain has as many bytes as
it says, or nothing is left by its own account. -/
theorem Covered.readAll_iff {l : ChunkLease} (h : l.Covered) (hr : l.readPointer ≤ l.capacity) (m : Mem) :
    (∃ fuel, l.readAll m fuel = .ok (l.unread m)) ↔ l.held = l.capacity ∨ l.remaining = 0 := by
  have hle := h.held_le
  constructor
  · rintro ⟨fuel, hrun⟩
    by_contra hno
    obtain ⟨hne, h0⟩ := not_or.mp hno
    unfold remaining at h0
    obtain ⟨e, he⟩ := h.headed.readAll_error (by omega) (by omega) m fuel
    rw [he] at hrun
    cases hrun
  · rintro (he | h0)
    · exact ⟨_, h.headed.readAll he m (Nat.le_refl _)⟩
    · unfold remaining at h0
      refine ⟨0, ?_⟩
      rw [ChunkLease.readAll, if_pos (by unfold remaining; omega), unread,
        List.drop_of_length_le (by rw [length_bytes_held]; omega)]

/-! ## What can be made -/

/-- The leases that can be made: of the bytes of a buffer, by appending,
splitting anywhere and reading. -/
inductive Obtained : ChunkLease → Prop
  | empty : Obtained empty
  | new (content : Slice) (lock : ChunkId) : Obtained (new content lock)
  | append {l t : ChunkLease} : Obtained l → Obtained t → Obtained (l.appendToChain t)
  | splitHead {l l' t : ChunkLease} {p : Nat} : Obtained l → l.splitAt p = .ok (l', t) → Obtained l'
  | splitTail {l l' t : ChunkLease} {p : Nat} : Obtained l → l.splitAt p = .ok (l', t) → Obtained t
  | advance {l : ChunkLease} {k : Nat} : Obtained l → k ≤ l.remaining → Obtained (l.advance k)

/-- Splitting keeps the lengths right, also where inner nodes were read. -/
theorem Sized.splitAt {l l' t : ChunkLease} {p : Nat} (h : l.Sized) (hs : l.splitAt p = .ok (l', t)) :
    l'.Sized ∧ t.Sized ∧ l'.capacity = p ∧ l'.capacity + t.capacity = l.capacity := by
  induction l generalizing p l' t with
  | last n =>
    obtain ⟨hn, hl⟩ := h
    simp only [ChunkLease.splitAt] at hs
    split at hs
    swap
    · cases hs
    split at hs
    · cases hs
    split at hs
    · rename_i hp hlt he
      obtain ⟨rfl, rfl⟩ := Prod.mk.inj (Except.ok.inj hs)
      exact ⟨⟨hn, he.trans hn⟩, (wf_new _ _).sized, rfl, by simp only [capacity, node, ChunkLease.empty, new]; omega⟩
    · rename_i hp hlt he
      obtain ⟨rfl, rfl⟩ := Prod.mk.inj (Except.ok.inj hs)
      exact ⟨⟨rfl, rfl⟩, (wf_new _ _).sized, rfl, by simp only [capacity, node, cutHead, cutTail, new]; omega⟩
  | link n c ih =>
    obtain ⟨hn, hl, hc⟩ := h
    simp only [ChunkLease.splitAt] at hs
    split at hs
    swap
    · cases hs
    rename_i hp
    split at hs
    · rename_i hlt
      split at hs
      swap
      · cases hs
      rename_i c' t' hcs
      obtain ⟨rfl, rfl⟩ := Prod.mk.inj (Except.ok.inj hs)
      obtain ⟨hsc, hst, hcap, hsum⟩ := ih hc hcs
      refine ⟨⟨hn, ?_, hsc⟩, hst, rfl, ?_⟩
      · simp only [hcap]; omega
      · simp only [capacity, node] at hcap hsum hl ⊢; omega
    rename_i hlt
    split at hs
    · rename_i he
      obtain ⟨rfl, rfl⟩ := Prod.mk.inj (Except.ok.inj hs)
      exact ⟨⟨hn, he.trans hn⟩, hc, rfl, by simp only [capacity, node] at hl ⊢; omega⟩
    · rename_i he
      obtain ⟨rfl, rfl⟩ := Prod.mk.inj (Except.ok.inj hs)
      refine ⟨⟨rfl, rfl⟩, (wf_new _ _).sized.appendToChain hc, rfl, ?_⟩
      rw [capacity_appendToChain]
      simp only [capacity, node, cutHead, cutTail, new] at hl ⊢
      omega

theorem Obtained.sized {l : ChunkLease} (h : l.Obtained) : l.Sized := by
  induction h with
  | empty => exact (wf_new _ _).sized
  | new content lock => exact (wf_new _ _).sized
  | append _ _ hl ht => exact hl.appendToChain ht
  | splitHead _ hs ih => exact (ih.splitAt hs).1
  | splitTail _ hs ih => exact (ih.splitAt hs).2.1
  | advance _ _ ih => exact ih.advance _

/-- The lease without what was read of it. -/
theorem Sized.dropRead {l l' : ChunkLease} (h : l.Sized) (hd : l.dropRead = .ok l') :
    l'.Sized ∧ l'.capacity = l.capacity - l.readPointer := by
  unfold ChunkLease.dropRead at hd
  split at hd
  · obtain ⟨⟨l₁, t⟩, hs, hd⟩ := Panics.bind_eq_ok.mp hd
    obtain ⟨-, hst, hcap, hsum⟩ := h.splitAt hs
    obtain rfl := Except.ok.inj hd
    refine ⟨by cases t <;> exact hst, ?_⟩
    rw [capacity, node_mapNode]
    show t.capacity = _
    omega
  · rename_i h0
    obtain rfl := Except.ok.inj hd
    exact ⟨h, by omega⟩

/-- The nodes of a reference know their own lengths. Those of the chains may count
bytes that were dropped because an inner node had been read. -/
theorem Sized.intoRef {fuel : Nat} {l l' : ChunkLease} (h : l.Sized) (hi : l.intoRef fuel = .ok l') :
    l'.Covered ∧ l'.capacity = l.capacity - l.readPointer := by
  induction fuel generalizing l l' with
  | zero => cases hi
  | succ fuel ih =>
    obtain ⟨l₁, hd, hi⟩ := Panics.bind_eq_ok.mp hi
    obtain ⟨hs, hcap⟩ := h.dropRead hd
    cases l₁ with
    | last n =>
      obtain rfl := Except.ok.inj hi
      exact ⟨hs.covered, hcap⟩
    | link n c =>
      obtain ⟨c', hc, hi⟩ := Panics.bind_eq_ok.mp hi
      obtain rfl := Except.ok.inj hi
      obtain ⟨hcov, hccap⟩ := ih hs.2.2 hc
      have hle := hcov.held_le
      have hlen := hs.2.1
      refine ⟨⟨⟨hs.1, hcov.headed⟩, ?_⟩, hcap⟩
      simp only [held]
      show _ ≤ n.chainLen
      omega

end ChunkLease

namespace ChunkRef

/-- The references that can be made: of a lease, with another one behind or
before it, and by reading. A clone is the same reference. -/
inductive Obtained : ChunkRef → Prop
  | intoChunkRef {l : ChunkLease} {r : ChunkRef} : l.Obtained → l.intoChunkRef = .ok r → Obtained r
  | withTail {l : ChunkLease} {tail r : ChunkRef} :
      l.Obtained → Obtained tail → l.intoChunkRefWithTail tail = .ok r → Obtained r
  | withHead {l : ChunkLease} {head r : ChunkRef} :
      l.Obtained → Obtained head → l.intoChunkRefWithHead head = .ok r → Obtained r
  | advance {r : ChunkRef} {k : Nat} : Obtained r → k ≤ r.remaining → Obtained (r.advance k)

theorem covered_intoChunkRef {l : ChunkLease} {r : ChunkRef} (h : l.Obtained) (hr : l.intoChunkRef = .ok r) :
    r.lease.Covered := by
  obtain ⟨l', hi, hr⟩ := Panics.bind_eq_ok.mp hr
  obtain rfl := Except.ok.inj hr
  exact (h.sized.intoRef hi).1

theorem Obtained.covered {r : ChunkRef} (h : r.Obtained) : r.lease.Covered := by
  induction h with
  | intoChunkRef hl hr => exact covered_intoChunkRef hl hr
  | @withTail l tail r hl _ hr ih =>
    obtain ⟨r₀, hi, hr⟩ := Panics.bind_eq_ok.mp hr
    obtain rfl := Except.ok.inj hr
    exact (covered_intoChunkRef hl hi).appendToChain ih
  | @withHead l head r hl _ hr ih =>
    obtain ⟨r₀, hi, hr⟩ := Panics.bind_eq_ok.mp hr
    obtain rfl := Except.ok.inj hr
    exact ih.appendToChain (covered_intoChunkRef hl hi)
  | advance _ _ ih => exact ih.advance _

end ChunkRef

/-- `chunk` of a lease is as `Buf` asks if and only if bytes are left, and the
loop reads them all. Of a reference it is if and only if its slices have bytes
left, and the loop reads them all unless the chain counts more than it has. -/
theorem chunk_contract_iff (m : Mem) (l : ChunkLease) (r : ChunkRef) :
    (l.Obtained → l.readPointer ≤ l.capacity →
      (l.ChunkContract ↔ 0 < l.remaining) ∧ ∃ fuel, l.readAll m fuel = .ok (l.unread m)) ∧
    (r.Obtained → r.readPointer ≤ r.capacity →
      (r.lease.ChunkContract ↔ r.readPointer < r.lease.held) ∧
      ((∃ fuel, r.lease.readAll m fuel = .ok (r.unread m)) ↔ r.lease.held = r.capacity ∨ r.remaining = 0)) := by
  refine ⟨fun hl hr => ⟨?_, ?_⟩, fun hr hle => ⟨hr.covered.contract_iff, hr.covered.readAll_iff hle m⟩⟩
  · rw [hl.sized.covered.contract_iff, hl.sized.held_eq, ChunkLease.remaining]
    omega
  · exact (hl.sized.covered.readAll_iff hr m).mpr (.inl hl.sized.held_eq)

theorem obtained_twoSlices (a b : ChunkId) : (twoSlices a b).Obtained := (ChunkLease.Obtained.new _ _).append (.new _ _)

/-- Two slices of which four bytes were read, as a lease and as a reference. -/
theorem chunk_contract_iff_chained :
    ((twoSlices 1 2).advance 4).ChunkContract ∧
      ∃ r, ((twoSlices 1 2).advance 4).intoChunkRef = .ok r ∧ r.lease.ChunkContract := by
  have hl : ((twoSlices 1 2).advance 4).Obtained := (obtained_twoSlices 1 2).advance (by decide)
  have hboth : ∀ r, ((twoSlices 1 2).advance 4).intoChunkRef = .ok r → _ := fun r _ =>
    chunk_contract_iff (fun _ _ => 0) ((twoSlices 1 2).advance 4) r
  refine ⟨((hboth _ rfl).1 hl (by decide)).1.mpr (by decide), _, rfl, ?_⟩
  exact ((hboth _ rfl).2 (.intoChunkRef hl rfl) (by decide)).1.mpr (by decide)

/-- At the end `chunk` panics: of a lease that never had any bytes, of one that
was read to its end, and of a reference made from it. -/
theorem not_chunk_contract_end :
    (ChunkLease.empty.Obtained ∧ ¬ ChunkLease.empty.ChunkContract) ∧
      (((twoSlices 1 2).advance 5).Obtained ∧ ¬ ((twoSlices 1 2).advance 5).ChunkContract) ∧
      ∃ r : ChunkRef, r.Obtained ∧ ((twoSlices 1 2).advance 5).intoChunkRef = .ok r ∧ ¬ r.lease.ChunkContract := by
  have hl : ((twoSlices 1 2).advance 5).Obtained := (obtained_twoSlices 1 2).advance (by decide)
  have hpanic : ∀ {l : ChunkLease} {e : String}, l.chunk = .error e → ¬ l.ChunkContract := by
    rintro l e he ⟨s, hs, -⟩
    rw [he] at hs
    cases hs
  exact ⟨⟨.empty, hpanic rfl⟩, ⟨hl, hpanic rfl⟩, _, .intoChunkRef hl rfl, rfl, hpanic rfl⟩

end Kompact
