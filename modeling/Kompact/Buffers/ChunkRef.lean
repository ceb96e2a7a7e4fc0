import Kompact.Buffers.Frames
import Kompact.Buffers.EncodeBuffer
import Kompact.Framework.Splice

/-!
# Frame heads and chunk references

A lease can be written from its front, to put a frame head in the place that
was padded for it (`insertHead`). The head may lie in several slices of the
chain. As no byte is in a lease twice, the bytes after the head stay
(`insertHead_spec`).

A `ChunkRef` is what a lease becomes when it is to be shared: the bytes that
were read are dropped (`intoChunkRef_spec`).
-/

namespace Kompact

namespace ChunkLease

/-! ## `BufMut` -/

/-- The rest of the slice at position `pos` of the chain, to be written. -/
def getChunkMutAt : ChunkLease → Nat → Panics Slice
  | last n, pos =>
    if n.chainHeadLen ≤ pos then .error "Critical Bug in ChunkLease, bad chain"
    else .ok ⟨n.content.chunk, n.content.off + pos, n.chainHeadLen - pos⟩
  | link n chain, pos =>
    if n.chainHeadLen ≤ pos then chain.getChunkMutAt (pos - n.chainHeadLen)
    else .ok ⟨n.content.chunk, n.content.off + pos, n.chainHeadLen - pos⟩

def writePointer (l : ChunkLease) : Nat := l.node.writePointer

def setWritePointer (l : ChunkLease) (k : Nat) : ChunkLease := l.mapNode fun n => { n with writePointer := k }

def remainingMut (l : ChunkLease) : Nat := l.capacity - l.writePointer

def chunkMut (l : ChunkLease) : Panics Slice := l.getChunkMutAt l.writePointer

def advanceMut (l : ChunkLease) (cnt : Nat) : ChunkLease := l.setWritePointer (l.writePointer + cnt)

/-- The loop of `BufMut::put_slice`, over `chunk_mut` and `advance_mut`. -/
def putLoop : Nat → Mem → ChunkLease → List UInt8 → Panics (Mem × ChunkLease)
  | _, m, l, [] => .ok (m, l)
  | 0, _, _, _ :: _ => .error "put_slice makes no progress"
  | fuel + 1, m, l, src => do
    let dst ← l.chunkMut
    let cnt := min src.length dst.len
    putLoop fuel (m.write dst.chunk dst.off (src.take cnt)) (l.advanceMut cnt) (src.drop cnt)

def putSlice (m : Mem) (l : ChunkLease) (src : List UInt8) : Panics (Mem × ChunkLease) :=
  if l.remainingMut < src.length then .error "advance out of bounds" else putLoop src.length m l src

end ChunkLease

/-- `FrameHead::encode_into` a lease. -/
def FrameHead.encodeInto (h : FrameHead) (m : Mem) (dst : ChunkLease) : Panics (Mem × ChunkLease) :=
  if dst.remainingMut < frameHeadLen then
    .error "assertion failed: dst.remaining_mut() >= FRAME_HEAD_LEN as usize"
  else do
    let (m, dst) ← dst.putSlice m (toBE 4 magicNum)
    let (m, dst) ← dst.putSlice m (toBE 4 h.contentLength)
    dst.putSlice m [h.frameType.toByte]

/-- Writes the head over the first bytes, which should have been padded. -/
def ChunkLease.insertHead (m : Mem) (l : ChunkLease) (head : FrameHead) : Panics (Mem × ChunkLease) := do
  let written := l.writePointer
  let (m, l) ← head.encodeInto m (l.setWritePointer 0)
  return (m, l.setWritePointer written)

/-! ## References -/

/-- A reference: what a lease has except the write pointer, which nothing reads. -/
structure ChunkRef where
  lease : ChunkLease
  deriving DecidableEq, Repr

namespace ChunkRef

def capacity (r : ChunkRef) : Nat := r.lease.capacity

def readPointer (r : ChunkRef) : Nat := r.lease.readPointer

/-- Appends `newTail` to the end of the chain; its read pointer stays. -/
def appendToChain (r newTail : ChunkRef) : ChunkRef := ⟨r.lease.appendToChain newTail.lease⟩

def remaining (r : ChunkRef) : Nat := r.lease.remaining

def advance (r : ChunkRef) (cnt : Nat) : ChunkRef := ⟨r.lease.advance cnt⟩

/-- The bytes of the whole chain. -/
def bytes (m : Mem) (r : ChunkRef) : List UInt8 := r.lease.bytes m

/-- The bytes not read yet. -/
def unread (m : Mem) (r : ChunkRef) : List UInt8 := r.lease.unread m

end ChunkRef

namespace ChunkLease

/-- The number of nodes of the chain. -/
def nodes : ChunkLease → Nat
  | last _ => 1
  | link _ c => c.nodes + 1

/-- The lease without the bytes that were read. -/
def dropRead (l : ChunkLease) : Panics ChunkLease :=
  if 0 < l.readPointer then do
    let (_, tail) ← l.splitAt l.readPointer
    return tail.mapNode fun n => { n with readPointer := 0 }
  else .ok l

/-- `into_chunk_ref`, along the chain. -/
def intoRef : Nat → ChunkLease → Panics ChunkLease
  | 0, _ => .error "into_chunk_ref does not end"
  | fuel + 1, l => do
    match ← l.dropRead with
    | last n => return last n
    | link n chain => return link n (← intoRef fuel chain)

/-- The lease as a reference. What was read is dropped. -/
def intoChunkRef (l : ChunkLease) : Panics ChunkRef := return ⟨← intoRef l.nodes l⟩

def intoChunkRefWithTail (l : ChunkLease) (tail : ChunkRef) : Panics ChunkRef :=
  return (← l.intoChunkRef).appendToChain tail

def intoChunkRefWithHead (l : ChunkLease) (head : ChunkRef) : Panics ChunkRef :=
  return head.appendToChain (← l.intoChunkRef)

/-! ## Writing the head -/

@[simp] theorem writePointer_setWritePointer (l : ChunkLease) (k : Nat) : (l.setWritePointer k).writePointer = k := by
  simp [writePointer, setWritePointer]

@[simp] theorem capacity_setWritePointer (l : ChunkLease) (k : Nat) : (l.setWritePointer k).capacity = l.capacity := by
  simp [capacity, setWritePointer]

@[simp] theorem bytes_setWritePointer (m : Mem) (l : ChunkLease) (k : Nat) :
    (l.setWritePointer k).bytes m = l.bytes m := by
  cases l <;> rfl

@[simp] theorem slices_setWritePointer (l : ChunkLease) (k : Nat) : (l.setWritePointer k).slices = l.slices := by
  cases l <;> rfl

@[simp] theorem setWritePointer_setWritePointer (l : ChunkLease) (j k : Nat) :
    (l.setWritePointer j).setWritePointer k = l.setWritePointer k := by
  cases l <;> rfl

theorem setWritePointer_self (l : ChunkLease) : l.setWritePointer l.writePointer = l := by
  cases l <;> rfl

theorem WF.setWritePointer {l : ChunkLease} (h : l.WF) (k : Nat) : (l.setWritePointer k).WF := by
  cases l <;> exact h

/-- The part of a slice from `k` on. -/
theorem bytes_write_slice (m : Mem) (s : Slice) {k : Nat} {bs : List UInt8} (h : k + bs.length ≤ s.len) :
    s.bytes (m.write s.chunk (s.off + k) bs) = splice (s.bytes m) k bs := by
  have hsplit : s.len = k + (bs.length + (s.len - (k + bs.length))) := by omega
  have hm : ∀ m' : Mem, s.bytes m' = m'.bytes s.chunk s.off k ++ (m'.bytes s.chunk (s.off + k) bs.length ++
      m'.bytes s.chunk (s.off + k + bs.length) (s.len - (k + bs.length))) := fun m' => by
    rw [Slice.bytes, hsplit, Mem.bytes_add, Mem.bytes_add, ← hsplit]
  rw [hm, Mem.bytes_write_self, Mem.bytes_write_of_sep (fun _ => .inl (Nat.le_refl _)),
    Mem.bytes_write_of_sep (fun _ => .inr (Nat.le_refl _)), splice, Slice.bytes,
    Mem.take_bytes _ _ _ (show k ≤ s.len by omega), Mem.drop_bytes _ _ _ h, List.append_assoc, Nat.add_assoc]

/-- A write into the slice at `pos` overwrites the bytes of the chain there, and
nothing else. -/
theorem getChunkMutAt_spec {l : ChunkLease} (h : l.WF) (hs : l.slices.Pairwise Slice.Apart) {pos : Nat}
    (hp : pos < l.capacity) :
    ∃ dst, l.getChunkMutAt pos = .ok dst ∧ 0 < dst.len ∧ dst.len ≤ l.capacity - pos ∧
      ∀ (m : Mem) (bs : List UInt8), bs.length ≤ dst.len →
        l.bytes (m.write dst.chunk dst.off bs) = splice (l.bytes m) pos bs ∧
        ∀ t : Slice, (∀ s ∈ l.slices, s.Apart t) → t.bytes (m.write dst.chunk dst.off bs) = t.bytes m := by
  -- a write into the node's own bytes
  have own : ∀ (n : LeaseNode) (k : Nat) (m : Mem) (bs : List UInt8) (t : Slice), n.content.Apart t →
      k + bs.length ≤ n.content.len → t.bytes (m.write n.content.chunk (n.content.off + k) bs) = t.bytes m := by
    intro n k m bs t ht hk
    refine Mem.bytes_write_of_sep fun hc => ?_
    rcases ht hc.symm with h | h
    · exact .inr (by omega)
    · exact .inl (by omega)
  induction l generalizing pos with
  | last n =>
    obtain ⟨hn, hl⟩ := h
    simp only [capacity, node] at hp ⊢
    refine ⟨⟨n.content.chunk, n.content.off + pos, n.chainHeadLen - pos⟩, ?_, ?_, ?_,
      fun m bs hb => ⟨?_, fun t ht => ?_⟩⟩
    · rw [getChunkMutAt, if_neg (by omega)]
    · simp only; omega
    · simp only; omega
    · simp only at hb
      exact bytes_write_slice m n.content (by omega)
    · simp only at hb
      exact own n pos m bs t (ht _ (List.mem_singleton_self _)) (by omega)
  | link n c ih =>
    obtain ⟨hn, hl, -, hc⟩ := h
    simp only [capacity, node] at hp ⊢
    simp only [slices, List.pairwise_cons] at hs
    have hlen : ∀ m, (n.content.bytes m).length = n.chainHeadLen := fun m => by rw [Slice.length_bytes, hn]
    by_cases hg : n.chainHeadLen ≤ pos
    · have hlt : pos - n.chainHeadLen < c.capacity := by
        unfold capacity at hl ⊢
        omega
      obtain ⟨dst, hget, h0, hle, hw⟩ := ih hc hs.2 hlt
      refine ⟨dst, by rw [getChunkMutAt, if_pos hg, hget], h0, by unfold capacity at hl hle; omega,
        fun m bs hb => ⟨?_, fun t ht => (hw m bs hb).2 t fun s hs' => ht s (List.mem_cons_of_mem _ hs')⟩⟩
      simp only [bytes]
      rw [(hw m bs hb).1, (hw m bs hb).2 n.content (fun s hs' => (hs.1 s hs').symm),
        splice_append_right (by rw [hlen]; exact hg), hlen]
    · refine ⟨⟨n.content.chunk, n.content.off + pos, n.chainHeadLen - pos⟩, ?_, ?_, ?_,
        fun m bs hb => ⟨?_, fun t ht => ?_⟩⟩
      · rw [getChunkMutAt, if_neg hg]
      · simp only; omega
      · simp only; omega
      · simp only at hb
        have hkeep : c.bytes (m.write n.content.chunk (n.content.off + pos) bs) = c.bytes m :=
          bytes_congr fun s hs' => own n pos m bs s (hs.1 s hs') (by omega)
        simp only [bytes]
        rw [bytes_write_slice m n.content (by omega), hkeep,
          splice_append_left (by rw [hlen]; omega)]
      · simp only at hb
        exact own n pos m bs t (ht _ (List.mem_cons_self ..)) (by omega)

/-- The memory after `bs` was written over the bytes of the lease at `pos`. -/
structure Overwrote (l : ChunkLease) (pos : Nat) (bs : List UInt8) (m m' : Mem) : Prop where
  bytes : l.bytes m' = splice (l.bytes m) pos bs
  apart : ∀ t : Slice, (∀ s ∈ l.slices, s.Apart t) → t.bytes m' = t.bytes m

theorem Overwrote.trans {l : ChunkLease} {pos : Nat} {bs bs' : List UInt8} {m m' m'' : Mem}
    (h : l.Overwrote pos bs m m') (h' : l.Overwrote (pos + bs.length) bs' m' m'')
    (hb : pos + bs.length ≤ (l.bytes m).length) : l.Overwrote pos (bs ++ bs') m m'' where
  bytes := by rw [h'.bytes, h.bytes, splice_splice hb]
  apart t ht := (h'.apart t ht).trans (h.apart t ht)

theorem putLoop_spec {fuel : Nat} {m : Mem} {l : ChunkLease} {src : List UInt8} (h : l.WF)
    (hs : l.slices.Pairwise Slice.Apart) (hroom : l.writePointer + src.length ≤ l.capacity) (hf : src.length ≤ fuel) :
    ∃ m', putLoop fuel m l src = .ok (m', l.advanceMut src.length) ∧ l.Overwrote l.writePointer src m m' := by
  induction fuel generalizing m l src with
  | zero =>
    obtain rfl : src = [] := List.length_eq_zero_iff.mp (by omega)
    refine ⟨m, ?_, by rw [splice_nil], fun _ _ => rfl⟩
    rw [putLoop, List.length_nil, advanceMut, Nat.add_zero, setWritePointer_self]
  | succ fuel ih =>
    by_cases hne : src = []
    · subst hne
      refine ⟨m, ?_, by rw [splice_nil], fun _ _ => rfl⟩
      rw [putLoop, List.length_nil, advanceMut, Nat.add_zero, setWritePointer_self]
    have hpos : 0 < src.length := List.length_pos_iff.mpr hne
    obtain ⟨dst, hget, h0, hle, hw⟩ := getChunkMutAt_spec h hs (show l.writePointer < l.capacity by omega)
    -- what is written in this round
    generalize hcnt : min src.length dst.len = cnt
    have htake : (src.take cnt).length = cnt := by rw [List.length_take]; omega
    have hdrop : (src.drop cnt).length = src.length - cnt := List.length_drop
    obtain ⟨hb, ha⟩ := hw m (src.take cnt) (by omega)
    have hfirst : l.Overwrote l.writePointer (src.take cnt) m (m.write dst.chunk dst.off (src.take cnt)) := ⟨hb, ha⟩
    have hl : (l.advanceMut cnt).writePointer = l.writePointer + cnt := writePointer_setWritePointer ..
    obtain ⟨m', hrun, hrest⟩ := @ih (m.write dst.chunk dst.off (src.take cnt)) (l.advanceMut cnt) (src.drop cnt)
      (h.setWritePointer _) (by rw [advanceMut, slices_setWritePointer]; exact hs)
      (by rw [hl, hdrop, advanceMut, capacity_setWritePointer]; omega) (by omega)
    refine ⟨m', ?_, ?_⟩
    · have hround : putLoop (fuel + 1) m l src =
          putLoop fuel (m.write dst.chunk dst.off (src.take cnt)) (l.advanceMut cnt) (src.drop cnt) := by
        obtain ⟨b, tail, rfl⟩ := List.exists_cons_of_ne_nil hne
        simp only [putLoop, chunkMut, hget, bind, Except.bind, hcnt]
      have hsum : l.writePointer + cnt + (src.length - cnt) = l.writePointer + src.length := by omega
      rw [hround, hrun, hdrop]
      simp only [advanceMut, setWritePointer_setWritePointer, writePointer_setWritePointer, hsum]
    · have hrest' : l.Overwrote (l.writePointer + (src.take cnt).length) (src.drop cnt)
          (m.write dst.chunk dst.off (src.take cnt)) m' := by
        have hsl : (l.advanceMut cnt).slices = l.slices := slices_setWritePointer ..
        refine ⟨?_, fun t ht => hrest.apart t (hsl ▸ ht)⟩
        have hbytes := hrest.bytes
        rw [hl] at hbytes
        simpa only [advanceMut, bytes_setWritePointer, htake] using hbytes
      have := hfirst.trans hrest' (by rw [h.length_bytes, htake]; omega)
      rwa [List.take_append_drop] at this

theorem putSlice_spec (m : Mem) {l : ChunkLease} (src : List UInt8) (h : l.WF)
    (hs : l.slices.Pairwise Slice.Apart) (hroom : l.writePointer + src.length ≤ l.capacity) :
    ∃ m', l.putSlice m src = .ok (m', l.setWritePointer (l.writePointer + src.length)) ∧
      l.Overwrote l.writePointer src m m' := by
  have hr : ¬ l.remainingMut < src.length := by unfold remainingMut; omega
  rw [putSlice, if_neg hr]
  exact putLoop_spec h hs hroom (Nat.le_refl _)

/-- The head takes the place of the first bytes; the others, and all leases
apart from this one, stay. -/
theorem insertHead_spec {l : ChunkLease} {leases : List ChunkLease} (h : l.Own leases) (hc : frameHeadLen ≤ l.capacity)
    (m : Mem) (head : FrameHead) :
    ∃ m', l.insertHead m head = .ok (m', l) ∧ l.bytes m' = head.encode ++ (l.bytes m).drop frameHeadLen ∧
      ∀ l' : ChunkLease, l.Apart l' → l'.bytes m' = l'.bytes m := by
  have hwf := fun k => h.wf.setWritePointer k
  have hsc := fun k => (slices_setWritePointer l k).symm ▸ h.scattered
  have hlen : (l.bytes m).length = l.capacity := h.wf.length_bytes m
  simp only [frameHeadLen] at hc
  -- the three fields, one after the other
  obtain ⟨m₁, hput₁, ho₁⟩ := putSlice_spec m (toBE 4 magicNum) (hwf 0) (hsc 0) (by simp; omega)
  obtain ⟨m₂, hput₂, ho₂⟩ :=
    putSlice_spec m₁ (toBE 4 head.contentLength) (hwf 4) (hsc 4) (by simp; omega)
  obtain ⟨m₃, hput₃, ho₃⟩ :=
    putSlice_spec m₂ [head.frameType.toByte] (hwf 8) (hsc 8) (by simp; omega)
  simp only [writePointer_setWritePointer, setWritePointer_setWritePointer, length_toBE, List.length_singleton,
    Nat.zero_add, Nat.reduceAdd] at hput₁ hput₂ hput₃ ho₁ ho₂ ho₃
  have hsame : ∀ {k pos : Nat} {bs : List UInt8} {m m' : Mem}, (l.setWritePointer k).Overwrote pos bs m m' →
      l.Overwrote pos bs m m' := fun ho =>
    ⟨by simpa only [bytes_setWritePointer] using ho.bytes, by simpa only [slices_setWritePointer] using ho.apart⟩
  have ho : l.Overwrote 0 head.encode m m₃ := by
    have h₁₂ : l.Overwrote 0 (toBE 4 magicNum ++ toBE 4 head.contentLength) m m₂ :=
      (hsame ho₁).trans (by rw [length_toBE]; exact hsame ho₂) (by rw [length_toBE, hlen]; omega)
    have h₃ : l.Overwrote (0 + (toBE 4 magicNum ++ toBE 4 head.contentLength).length) [head.frameType.toByte] m₂ m₃ := by
      rw [List.length_append, length_toBE, length_toBE]
      exact hsame ho₃
    refine h₁₂.trans h₃ ?_
    rw [List.length_append, length_toBE, length_toBE, hlen]
    omega
  refine ⟨m₃, ?_, ?_, fun l' hl' => bytes_congr fun t ht => ho.apart t fun s hs => hl' s hs t ht⟩
  · have hrem : ¬ (l.setWritePointer 0).remainingMut < frameHeadLen := by
      rw [remainingMut, capacity_setWritePointer, writePointer_setWritePointer, frameHeadLen]
      omega
    simp only [insertHead, FrameHead.encodeInto, if_neg hrem, hput₁, hput₂, hput₃, bind, Except.bind, pure, Except.pure,
      setWritePointer_setWritePointer, setWritePointer_self]
  · rw [ho.bytes, splice_zero, length_encode_head]

/-! ## Becoming a reference -/

theorem dropRead_of_unread {l : ChunkLease} (h0 : l.readPointer = 0) : l.dropRead = .ok l := by
  rw [dropRead, if_neg (by omega)]

/-- All nodes of a chain that was not read go over. -/
theorem intoRef_wf {fuel : Nat} {l l' : ChunkLease} (hd : l.dropRead = .ok l') (h : l'.WF) (hf : l'.nodes ≤ fuel) :
    intoRef fuel l = .ok l' := by
  induction l' generalizing fuel l with
  | last n =>
    obtain ⟨fuel, rfl⟩ : ∃ k, fuel = k + 1 := Nat.exists_eq_succ_of_ne_zero (by simp only [nodes] at hf; omega)
    simp only [intoRef, hd, bind, Except.bind]
    rfl
  | link n c ih =>
    obtain ⟨-, -, hr, hc⟩ := h
    simp only [nodes] at hf
    obtain ⟨fuel, rfl⟩ : ∃ k, fuel = k + 1 := Nat.exists_eq_succ_of_ne_zero (by omega)
    simp only [intoRef, hd, bind, Except.bind, ih (dropRead_of_unread hr) hc (show c.nodes ≤ fuel by omega)]
    rfl

theorem nodes_appendToChain (l t : ChunkLease) : (l.appendToChain t).nodes = l.nodes + t.nodes := by
  induction l with
  | last n => simp only [appendToChain, nodes]; omega
  | link n c ih => simp only [appendToChain, nodes, ih]; omega

/-- The rest of a split has no more nodes. -/
theorem nodes_splitAt {l l' t : ChunkLease} {p : Nat} (h : l.splitAt p = .ok (l', t)) : t.nodes ≤ l.nodes := by
  induction l generalizing p l' t with
  | last n =>
    simp only [splitAt] at h
    split at h
    · split at h
      · cases h
      · split at h
        · obtain ⟨-, rfl⟩ := Prod.mk.inj (Except.ok.inj h)
          exact Nat.le_refl _
        · obtain ⟨-, rfl⟩ := Prod.mk.inj (Except.ok.inj h)
          exact Nat.le_refl _
    · cases h
  | link n c ih =>
    simp only [splitAt] at h
    split at h
    · split at h
      · split at h
        · rename_i hc
          obtain ⟨-, rfl⟩ := Prod.mk.inj (Except.ok.inj h)
          exact Nat.le_succ_of_le (ih hc)
        · cases h
      · split at h
        · obtain ⟨-, rfl⟩ := Prod.mk.inj (Except.ok.inj h)
          exact Nat.le_succ _
        · obtain ⟨-, rfl⟩ := Prod.mk.inj (Except.ok.inj h)
          rw [nodes_appendToChain]
          simp only [nodes, cutTail, new]
          omega
    · cases h

theorem intoChunkRef_of_unread {l : ChunkLease} (h : l.WF) (h0 : l.readPointer = 0) : l.intoChunkRef = .ok ⟨l⟩ := by
  simp only [intoChunkRef, intoRef_wf (dropRead_of_unread h0) h (Nat.le_refl _), bind, Except.bind]
  rfl

/-- The reference has the bytes that were not read, and starts at them. -/
theorem intoChunkRef_spec {l : ChunkLease} (h : l.WF) (hr : l.readPointer ≤ l.capacity) :
    ∃ r, l.intoChunkRef = .ok r ∧ r.lease.WF ∧ r.readPointer = 0 ∧ (∀ m, r.bytes m = l.unread m) ∧
      ∀ c o, l.Below c o → r.lease.Below c o := by
  by_cases h0 : 0 < l.readPointer
  · obtain ⟨l', t, hs, sp⟩ := splitAt_spec h hr
    have ht : t.mapNode (fun n => { n with readPointer := 0 }) = t := by
      have h0 := sp.readPointer_tail
      cases t <;> simp only [readPointer, node] at h0 <;> simp only [mapNode, ← h0]
    have hd : l.dropRead = .ok t := by
      simp only [dropRead, if_pos h0, hs, bind, Except.bind, ht]
      rfl
    refine ⟨⟨t⟩, ?_, sp.wf_tail, sp.readPointer_tail, sp.bytes_tail, fun c o hb => (sp.below c o hb).2⟩
    simp only [intoChunkRef, intoRef_wf hd sp.wf_tail (nodes_splitAt hs), bind, Except.bind]
    rfl
  · have h0 : l.readPointer = 0 := by omega
    refine ⟨⟨l⟩, intoChunkRef_of_unread h h0, h, h0, fun m => ?_, fun _ _ hb => hb⟩
    rw [unread, h0]
    rfl

end ChunkLease

end Kompact
