import Kompact.Buffers.Memory
import Kompact.Framework.BigEndian

/-!
# Chunk leases

A `ChunkLease` is a chain of slices of chunks, read through a read pointer
that counts from the start of the chain (the nodes after the first keep
theirs at zero). `bytes` are the bytes of the whole chain, `unread` those
after the read pointer.

`WF` says that the lengths a lease stores are those of its slices, and that
only its head has been read. On such leases `appendToChain` and `splitAt`
append and cut the bytes (`bytes_appendToChain`, `splitAt_spec`), `chunk` is a
non-empty prefix of the unread bytes (`getChunkAt_spec`) and the `Buf` reads
take the next bytes (`copyToSlice_spec`, `getUint_spec`).
-/

namespace Kompact

/-- One node of a chain of leases. `chainLen` is the length of the chain from
this node on. -/
structure LeaseNode where
  content : Slice
  writePointer : Nat
  readPointer : Nat
  chainHeadLen : Nat
  lock : ChunkId
  chainLen : Nat
  deriving DecidableEq, Repr

/-- A lease: a node whose `chain` is `None`, or one with the next lease in it. -/
inductive ChunkLease where
  | last (node : LeaseNode)
  | link (node : LeaseNode) (chain : ChunkLease)
  deriving DecidableEq, Repr

namespace ChunkLease

def node : ChunkLease → LeaseNode
  | last n => n
  | link n _ => n

/-- Change the first node. -/
def mapNode (f : LeaseNode → LeaseNode) : ChunkLease → ChunkLease
  | last n => last (f n)
  | link n c => link (f n) c

/-- A lease of already written bytes. -/
def new (content : Slice) (lock : ChunkId) : ChunkLease :=
  last { content, writePointer := content.len, chainHeadLen := content.len, lock, readPointer := 0,
         chainLen := content.len }

/-- The lease of no bytes, at a dangling pointer and with a lock of its own. -/
def empty : ChunkLease := new ⟨0, 0, 0⟩ 0

/-- The length of the underlying bytes, without read and write pointers. -/
def capacity (l : ChunkLease) : Nat := l.node.chainLen

def readPointer (l : ChunkLease) : Nat := l.node.readPointer

/-- Appends `newTail` to the end of the chain. -/
def appendToChain : ChunkLease → ChunkLease → ChunkLease
  | last n, newTail => link { n with chainLen := n.chainLen + newTail.capacity } newTail
  | link n tail, newTail =>
    link { n with chainLen := n.chainLen + newTail.capacity } (tail.appendToChain newTail)

/-- The node with its own bytes cut at `position`, and without what followed. -/
def cutHead (n : LeaseNode) (position : Nat) : LeaseNode :=
  { n with chainLen := position, chainHeadLen := position, content := n.content.takeFirst position }

/-- A lease of the node's own bytes from `position` on. -/
def cutTail (n : LeaseNode) (position : Nat) : ChunkLease :=
  new ⟨n.content.chunk, n.content.off + position, n.chainHeadLen - position⟩ n.lock

/-- Splits a lease in two, the first of length `position`. Read and write
pointers are not accounted for. -/
def splitAt : ChunkLease → Nat → Panics (ChunkLease × ChunkLease)
  | last n, position =>
    if position ≤ n.chainLen then
      if n.chainHeadLen < position then .error "Trying to split faulty ChunkLease"
      else if position = n.chainHeadLen then .ok (last { n with chainLen := position }, empty)
      else .ok (last (cutHead n position), cutTail n position)
    else .error "Trying to split at bad position"
  | link n tail, position =>
    if position ≤ n.chainLen then
      if n.chainHeadLen < position then
        match tail.splitAt (position - n.chainHeadLen) with
        | .ok (tail', rest) => .ok (link { n with chainLen := position } tail', rest)
        | .error e => .error e
      else if position = n.chainHeadLen then .ok (last { n with chainLen := position }, tail)
      else .ok (last (cutHead n position), (cutTail n position).appendToChain tail)
    else .error "Trying to split at bad position"

/-- The rest of the slice at position `pos` of the chain. -/
def getChunkAt : ChunkLease → Nat → Panics Slice
  | last n, pos =>
    if n.chainHeadLen ≤ pos then .error "Critical Bug in ChunkLease, bad chain"
    else if pos ≤ n.content.len then .ok (n.content.dropFirst pos)
    else .error "slice index starts past the end of the slice"
  | link n chain, pos =>
    if n.chainHeadLen ≤ pos then chain.getChunkAt (pos - n.chainHeadLen)
    else if pos ≤ n.content.len then .ok (n.content.dropFirst pos)
    else .error "slice index starts past the end of the slice"

/-! ## `Buf` -/

def remaining (l : ChunkLease) : Nat := l.capacity - l.readPointer

def chunk (l : ChunkLease) : Panics Slice := l.getChunkAt l.readPointer

def advance (l : ChunkLease) (cnt : Nat) : ChunkLease :=
  l.mapNode fun n => { n with readPointer := n.readPointer + cnt }

/-- The loop of `Buf::copy_to_slice`, over `chunk` and `advance`. Each round
copies at least one byte unless it makes no progress at all, so `fuel` rounds
are enough for `fuel` bytes. -/
def copyLoop (m : Mem) : Nat → Nat → ChunkLease → Panics (List UInt8 × ChunkLease)
  | _, 0, l => .ok ([], l)
  | 0, _ + 1, _ => .error "copy_to_slice makes no progress"
  | fuel + 1, n + 1, l =>
    match l.chunk with
    | .error e => .error e
    | .ok src =>
      let cnt := min src.len (n + 1)
      match copyLoop m fuel (n + 1 - cnt) (l.advance cnt) with
      | .error e => .error e
      | .ok (rest, l') => .ok ((src.takeFirst cnt).bytes m ++ rest, l')

/-- `Buf::copy_to_slice` into a slice of `n` bytes. -/
def copyToSlice (m : Mem) (l : ChunkLease) (n : Nat) : Panics (List UInt8 × ChunkLease) :=
  if l.remaining < n then .error "advance out of bounds" else copyLoop m n n l

/-- `Buf::get_u8`, `get_u16`, `get_u32` and `get_u128`, by their width in bytes. -/
def getUint (m : Mem) (l : ChunkLease) (w : Nat) : Panics (Nat × ChunkLease) :=
  match l.copyToSlice m w with
  | .error e => .error e
  | .ok (bs, l') => .ok (ofBE bs, l')

/-! ## The bytes of a lease -/

/-- The bytes of the whole chain. -/
def bytes (m : Mem) : ChunkLease → List UInt8
  | last n => n.content.bytes m
  | link n c => n.content.bytes m ++ c.bytes m

/-- The bytes not read yet. -/
def unread (m : Mem) (l : ChunkLease) : List UInt8 := (l.bytes m).drop l.readPointer

/-- The slices of the chain. -/
def slices : ChunkLease → List Slice
  | last n => [n.content]
  | link n c => n.content :: c.slices

/-- The stored lengths are those of the slices, and only the head has been read. -/
def WF : ChunkLease → Prop
  | last n => n.chainHeadLen = n.content.len ∧ n.chainLen = n.content.len
  | link n c => n.chainHeadLen = n.content.len ∧ n.chainLen = n.content.len + c.capacity ∧
      c.readPointer = 0 ∧ c.WF

@[simp] theorem node_mapNode (f : LeaseNode → LeaseNode) (l : ChunkLease) : (l.mapNode f).node = f l.node := by
  cases l <;> rfl

@[simp] theorem bytes_new (m : Mem) (s : Slice) (k : ChunkId) : (new s k).bytes m = s.bytes m := rfl

@[simp] theorem slices_new (s : Slice) (k : ChunkId) : (new s k).slices = [s] := rfl

theorem wf_new (s : Slice) (k : ChunkId) : (new s k).WF := ⟨rfl, rfl⟩

@[simp] theorem capacity_advance (l : ChunkLease) (k : Nat) : (l.advance k).capacity = l.capacity := by
  simp [capacity, advance]

@[simp] theorem slices_advance (l : ChunkLease) (k : Nat) : (l.advance k).slices = l.slices := by
  cases l <;> rfl

@[simp] theorem readPointer_advance (l : ChunkLease) (k : Nat) :
    (l.advance k).readPointer = l.readPointer + k := by
  simp [readPointer, advance]

@[simp] theorem bytes_advance (m : Mem) (l : ChunkLease) (k : Nat) : (l.advance k).bytes m = l.bytes m := by
  cases l <;> rfl

theorem advance_advance (l : ChunkLease) (a b : Nat) : (l.advance a).advance b = l.advance (a + b) := by
  cases l <;> simp [advance, mapNode, Nat.add_assoc]

theorem advance_zero (l : ChunkLease) : l.advance 0 = l := by
  cases l <;> rfl

theorem WF.advance {l : ChunkLease} (h : l.WF) (k : Nat) : (l.advance k).WF := by
  cases l <;> exact h

theorem WF.length_bytes {l : ChunkLease} (h : l.WF) (m : Mem) : (l.bytes m).length = l.capacity := by
  induction l with
  | last n => simp only [bytes, Slice.length_bytes]; exact h.2.symm
  | link n c ih =>
    obtain ⟨-, hl, -, hc⟩ := h
    simp only [bytes, List.length_append, Slice.length_bytes, ih hc]
    exact hl.symm

theorem WF.length_unread {l : ChunkLease} (h : l.WF) (m : Mem) : (l.unread m).length = l.remaining := by
  rw [unread, List.length_drop, h.length_bytes, remaining]

theorem bytes_congr {m m' : Mem} {l : ChunkLease} (h : ∀ s ∈ l.slices, s.bytes m' = s.bytes m) :
    l.bytes m' = l.bytes m := by
  induction l with
  | last n => exact h _ (List.mem_singleton_self _)
  | link n c ih =>
    simp only [bytes]
    rw [h _ (List.mem_cons_self ..), ih fun s hs => h s (List.mem_cons_of_mem _ hs)]

/-! ### Appending -/

@[simp] theorem capacity_appendToChain (l t : ChunkLease) :
    (l.appendToChain t).capacity = l.capacity + t.capacity := by
  cases l <;> rfl

@[simp] theorem readPointer_appendToChain (l t : ChunkLease) :
    (l.appendToChain t).readPointer = l.readPointer := by
  cases l <;> rfl

theorem bytes_appendToChain (m : Mem) (l t : ChunkLease) :
    (l.appendToChain t).bytes m = l.bytes m ++ t.bytes m := by
  induction l with
  | last n => rfl
  | link n c ih => simp only [appendToChain, bytes, ih, List.append_assoc]

theorem slices_appendToChain (l t : ChunkLease) : (l.appendToChain t).slices = l.slices ++ t.slices := by
  induction l with
  | last n => rfl
  | link n c ih => simp only [appendToChain, slices, ih, List.cons_append]

theorem WF.appendToChain {l t : ChunkLease} (hl : l.WF) (ht : t.WF) (h0 : t.readPointer = 0) :
    (l.appendToChain t).WF := by
  induction l with
  | last n => exact ⟨hl.1, by simp only [hl.2], h0, ht⟩
  | link n c ih =>
    obtain ⟨hn, hlen, hr, hc⟩ := hl
    refine ⟨hn, ?_, by rwa [readPointer_appendToChain], ih hc⟩
    rw [capacity_appendToChain, hlen, Nat.add_assoc]

/-! ### Splitting -/

/-- Every slice of the lease in chunk `c` ends at or before offset `o`. -/
def Below (c : ChunkId) (o : Nat) (l : ChunkLease) : Prop := ∀ s ∈ l.slices, s.chunk = c → s.off + s.len ≤ o

theorem Below.mono {c : ChunkId} {o o' : Nat} {l : ChunkLease} (h : l.Below c o) (ho : o ≤ o') : l.Below c o' :=
  fun s hs hc => (h s hs hc).trans ho

/-- What `splitAt` returns: well-formed leases of the first `p` bytes and of
the others, within the slices of the lease. -/
structure Split (l : ChunkLease) (p : Nat) (l' t : ChunkLease) : Prop where
  wf : l'.WF
  wf_tail : t.WF
  capacity : l'.capacity = p
  bytes : ∀ m, l'.bytes m = (l.bytes m).take p
  bytes_tail : ∀ m, t.bytes m = (l.bytes m).drop p
  readPointer : l'.readPointer = l.readPointer
  readPointer_tail : t.readPointer = 0
  below : ∀ c o, l.Below c o → l'.Below c o ∧ t.Below c o

theorem bytes_cutTail (m : Mem) {n : LeaseNode} (hn : n.chainHeadLen = n.content.len) {p : Nat}
    (hp : p ≤ n.content.len) : (cutTail n p).bytes m = (n.content.bytes m).drop p := by
  rw [cutTail, bytes_new, ← Slice.bytes_dropFirst m n.content hp, hn]; rfl

theorem below_cutHead {n : LeaseNode} {p o : Nat} {c : ChunkId} (hp : p ≤ n.content.len)
    (h : n.content.chunk = c → n.content.off + n.content.len ≤ o) : (last (cutHead n p)).Below c o := by
  intro s hs hc
  simp only [slices, List.mem_singleton] at hs
  subst hs
  have := h hc
  simp only [cutHead, Slice.takeFirst]; omega

theorem below_cutTail {n : LeaseNode} {p o : Nat} {c : ChunkId} (hn : n.chainHeadLen = n.content.len)
    (hp : p ≤ n.content.len) (h : n.content.chunk = c → n.content.off + n.content.len ≤ o) :
    (cutTail n p).Below c o := by
  intro s hs hc
  simp only [cutTail, slices_new, List.mem_singleton] at hs
  subst hs
  have := h hc
  simp only; omega

theorem below_empty (c : ChunkId) (o : Nat) : empty.Below c o := by
  intro s hs _
  simp only [empty, slices_new, List.mem_singleton] at hs
  subst hs; exact Nat.zero_le _

theorem Below.appendToChain {c : ChunkId} {o : Nat} {l t : ChunkLease} (hl : l.Below c o) (ht : t.Below c o) :
    (l.appendToChain t).Below c o := by
  intro s hs
  rw [slices_appendToChain, List.mem_append] at hs
  exact hs.elim (hl s) (ht s)

theorem split_last {n : LeaseNode} {p : Nat} (h : (last n).WF) (hp : p ≤ n.chainLen) :
    ∃ l' t, (last n).splitAt p = .ok (l', t) ∧ Split (last n) p l' t := by
  obtain ⟨hn, hl⟩ := h
  have hbn : ∀ c o, (last n).Below c o → n.content.chunk = c → n.content.off + n.content.len ≤ o :=
    fun c o hb => hb _ (List.mem_singleton_self _)
  by_cases he : p = n.chainHeadLen
  · refine ⟨last { n with chainLen := p }, empty, ?_, ?_⟩
    · simp only [splitAt, hp, ite_true]
      simp [he]
    subst he
    refine ⟨⟨hn, hn⟩, wf_new _ _, rfl, fun m => ?_, fun m => ?_, rfl, rfl, fun c o hb => ⟨hb, below_empty c o⟩⟩
    · exact (List.take_of_length_le (by simp [ChunkLease.bytes, hn])).symm
    · exact (List.drop_of_length_le (by simp [ChunkLease.bytes, hn])).symm
  · have hle : p ≤ n.content.len := by omega
    refine ⟨last (cutHead n p), cutTail n p, ?_, ⟨rfl, rfl⟩, wf_new _ _, rfl,
      fun m => Slice.bytes_takeFirst m n.content hle, fun m => bytes_cutTail m hn hle, rfl, rfl,
      fun c o hb => ⟨below_cutHead hle (hbn c o hb), below_cutTail hn hle (hbn c o hb)⟩⟩
    simp only [splitAt, hp, he, show ¬ n.chainHeadLen < p by omega, ite_true, ite_false]

theorem splitAt_spec {l : ChunkLease} {p : Nat} (h : l.WF) (hp : p ≤ l.capacity) :
    ∃ l' t, l.splitAt p = .ok (l', t) ∧ Split l p l' t := by
  induction l generalizing p with
  | last n => exact split_last h hp
  | link n c ih =>
    obtain ⟨hn, hl, hr, hc⟩ := h
    simp only [ChunkLease.capacity, node] at hp
    have hbc : ∀ c' o, (link n c).Below c' o → c.Below c' o :=
      fun c' o hb s hs => hb s (List.mem_cons_of_mem _ hs)
    have hbn : ∀ c' o, (link n c).Below c' o → n.content.chunk = c' → n.content.off + n.content.len ≤ o :=
      fun c' o hb => hb _ (List.mem_cons_self ..)
    have hlen : ∀ m, (n.content.bytes m).length = n.chainHeadLen := fun m => by rw [Slice.length_bytes, hn]
    by_cases hg : n.chainHeadLen < p
    · -- the cut is in the tail
      obtain ⟨l', t, hs, sp⟩ := ih (p := p - n.chainHeadLen) hc (by omega)
      refine ⟨link { n with chainLen := p } l', t, by simp only [splitAt, hp, hg, hs, ite_true], ?_⟩
      refine ⟨⟨hn, ?_, sp.readPointer.trans hr, sp.wf⟩, sp.wf_tail, rfl, fun m => ?_, fun m => ?_, rfl,
        sp.readPointer_tail, fun c' o hb => ⟨?_, (sp.below c' o (hbc c' o hb)).2⟩⟩
      · simp only [sp.capacity]; omega
      · have ht : (n.content.bytes m).take p = n.content.bytes m := List.take_of_length_le (by rw [hlen]; omega)
        simp only [ChunkLease.bytes, sp.bytes, List.take_append, hlen, ht]
      · have hd : (n.content.bytes m).drop p = [] := List.drop_of_length_le (by rw [hlen]; omega)
        simp only [ChunkLease.bytes, sp.bytes_tail, List.drop_append, hlen, hd, List.nil_append]
      · intro s hs' hc'
        rcases List.mem_cons.mp hs' with rfl | hs'
        · exact hbn c' o hb hc'
        · exact (sp.below c' o (hbc c' o hb)).1 s hs' hc'
    by_cases he : p = n.chainHeadLen
    · -- the cut is between this node and the tail
      refine ⟨last { n with chainLen := p }, c, ?_, ?_⟩
      · rw [he] at hp
        simp only [splitAt, he, hp, ite_true, Nat.lt_irrefl, ite_false]
      subst he
      refine ⟨⟨hn, hn⟩, hc, rfl, fun m => ?_, fun m => ?_, rfl, hr, fun c' o hb => ⟨?_, hbc c' o hb⟩⟩
      · simp only [ChunkLease.bytes]; rw [List.take_left' (hlen m)]
      · simp only [ChunkLease.bytes]; rw [List.drop_left' (hlen m)]
      · intro s hs hc'
        simp only [slices, List.mem_singleton] at hs
        subst hs
        exact hbn c' o hb hc'
    · -- the cut is in this node's own bytes
      have hle : p ≤ n.content.len := by omega
      refine ⟨last (cutHead n p), (cutTail n p).appendToChain c, ?_, ⟨rfl, rfl⟩,
        (wf_new _ _).appendToChain hc hr, rfl, fun m => ?_, fun m => ?_, rfl, rfl,
        fun c' o hb => ⟨below_cutHead hle (hbn c' o hb),
          (below_cutTail hn hle (hbn c' o hb)).appendToChain (hbc c' o hb)⟩⟩
      · simp only [splitAt, hp, hg, he, ite_true, ite_false]
      · simp only [ChunkLease.bytes]
        rw [List.take_append_of_le_length (by rw [hlen]; omega)]
        exact Slice.bytes_takeFirst m n.content hle
      · rw [bytes_appendToChain, bytes_cutTail m hn hle, ChunkLease.bytes,
          List.drop_append_of_le_length (by rw [hlen]; omega)]

/-! ### Reading -/

theorem unread_advance (m : Mem) (l : ChunkLease) (k : Nat) : (l.advance k).unread m = (l.unread m).drop k := by
  simp only [unread, bytes_advance, readPointer_advance, List.drop_drop]

/-- The number of bytes in the slices of the chain. -/
def held : ChunkLease → Nat
  | last n => n.content.len
  | link n c => n.content.len + c.held

/-- Every node knows the length of its own slice. -/
def Headed : ChunkLease → Prop
  | last n => n.chainHeadLen = n.content.len
  | link n c => n.chainHeadLen = n.content.len ∧ c.Headed

@[simp] theorem length_bytes_held (m : Mem) (l : ChunkLease) : (l.bytes m).length = l.held := by
  induction l with
  | last n => exact Slice.length_bytes ..
  | link n c ih => rw [bytes, List.length_append, Slice.length_bytes, ih, held]

theorem WF.headed {l : ChunkLease} (h : l.WF) : l.Headed := by
  induction l with
  | last n => exact h.1
  | link n c ih => exact ⟨h.1, ih h.2.2.2⟩

theorem WF.held_eq {l : ChunkLease} (h : l.WF) : l.held = l.capacity := by
  rw [← length_bytes_held fun _ _ => 0, h.length_bytes]

/-- `getChunkAt` is a non-empty prefix of the bytes from there on, as long as
there are any; then it panics. The lengths of the chains play no role. -/
theorem getChunkAt_cases {l : ChunkLease} (h : l.Headed) (pos : Nat) :
    (pos < l.held ∧ ∃ s, l.getChunkAt pos = .ok s ∧ 0 < s.len ∧ ∀ m, s.bytes m <+: (l.bytes m).drop pos) ∨
      (l.held ≤ pos ∧ ∃ e, l.getChunkAt pos = .error e) := by
  induction l generalizing pos with
  | last n =>
    have hn : n.chainHeadLen = n.content.len := h
    by_cases hg : n.chainHeadLen ≤ pos
    · exact .inr ⟨by simp only [held]; omega, _, if_pos hg⟩
    · refine .inl ⟨by simp only [held]; omega, n.content.dropFirst pos, ?_, by simp only [Slice.dropFirst]; omega,
        fun m => ?_⟩
      · simp only [getChunkAt, hg, show pos ≤ n.content.len by omega, ite_true, ite_false]
      · rw [Slice.bytes_dropFirst m _ (by omega)]
        exact List.prefix_refl _
  | link n c ih =>
    obtain ⟨hn, hc⟩ := h
    have hlen : ∀ m, (n.content.bytes m).length = n.chainHeadLen := fun m => by rw [Slice.length_bytes, hn]
    by_cases hg : n.chainHeadLen ≤ pos
    · have hstep : (link n c).getChunkAt pos = c.getChunkAt (pos - n.chainHeadLen) := if_pos hg
      rw [hstep]
      rcases ih hc (pos - n.chainHeadLen) with ⟨hlt, s, hs, h0, hpre⟩ | ⟨hge, e, he⟩
      · refine .inl ⟨by simp only [held]; omega, s, hs, h0, fun m => ?_⟩
        have hd : (n.content.bytes m).drop pos = [] := List.drop_of_length_le (by rw [hlen]; exact hg)
        simp only [bytes, List.drop_append, hlen, hd, List.nil_append]
        exact hpre m
      · exact .inr ⟨by simp only [held]; omega, e, he⟩
    · refine .inl ⟨by simp only [held]; omega, n.content.dropFirst pos, ?_, by simp only [Slice.dropFirst]; omega,
        fun m => ?_⟩
      · simp only [getChunkAt, hg, show pos ≤ n.content.len by omega, ite_true, ite_false]
      · simp only [bytes]
        rw [List.drop_append_of_le_length (by rw [hlen]; omega), Slice.bytes_dropFirst m _ (by omega)]
        exact List.prefix_append ..

/-- Before the end, `getChunkAt` is a non-empty prefix of the bytes from there on. -/
theorem getChunkAt_spec {l : ChunkLease} (h : l.WF) (pos : Nat) (hp : pos < l.capacity) :
    ∃ s, l.getChunkAt pos = .ok s ∧ 0 < s.len ∧ ∀ m, s.bytes m <+: (l.bytes m).drop pos := by
  rcases getChunkAt_cases h.headed pos with ⟨-, hs⟩ | ⟨hge, -⟩
  · exact hs
  · rw [h.held_eq] at hge
    omega

theorem Headed.advance {l : ChunkLease} (h : l.Headed) (k : Nat) : (l.advance k).Headed := by
  cases l <;> exact h

@[simp] theorem held_advance (l : ChunkLease) (k : Nat) : (l.advance k).held = l.held := by
  cases l <;> rfl

theorem Headed.copyLoop (m : Mem) {fuel n : Nat} {l : ChunkLease} (h : l.Headed)
    (hn : l.readPointer + n ≤ l.held) (hf : n ≤ fuel) :
    l.copyLoop m fuel n = .ok ((l.unread m).take n, l.advance n) := by
  induction fuel generalizing n l with
  | zero =>
    obtain rfl : n = 0 := by omega
    simp [ChunkLease.copyLoop, advance_zero]
  | succ fuel ih =>
    obtain _ | n := n
    · simp [ChunkLease.copyLoop, advance_zero]
    rcases getChunkAt_cases h l.readPointer with ⟨-, s, hs, h0, hpre⟩ | ⟨hge, -⟩
    swap
    · omega
    have hc : l.chunk = .ok s := hs
    have hcnt : min s.len (n + 1) ≤ n + 1 := Nat.min_le_right ..
    have hrec := ih (n := n + 1 - min s.len (n + 1)) (h.advance (min s.len (n + 1)))
      (by rw [readPointer_advance, held_advance]; omega) (by omega)
    simp only [ChunkLease.copyLoop, hc, hrec, advance_advance, Nat.add_sub_cancel' hcnt]
    congr 2
    rw [Slice.bytes_takeFirst m s (Nat.min_le_left ..)]
    obtain ⟨r, hr⟩ := hpre m
    have hu : l.unread m = s.bytes m ++ r := hr.symm
    have htake : (s.bytes m).take (min s.len (n + 1)) = (l.unread m).take (min s.len (n + 1)) := by
      rw [hu, List.take_append_of_le_length (by rw [Slice.length_bytes]; exact Nat.min_le_left ..)]
    rw [unread_advance, htake, ← List.take_add, Nat.add_sub_cancel' hcnt]

/-- `copy_to_slice` takes the next `n` bytes, if the chain has as many as it says. -/
theorem Headed.copyToSlice (m : Mem) {n : Nat} {l : ChunkLease} (h : l.Headed) (he : l.held = l.capacity)
    (hn : l.readPointer + n ≤ l.capacity) :
    l.copyToSlice m n = .ok ((l.unread m).take n, l.advance n) := by
  have hr : ¬ l.remaining < n := by unfold remaining; omega
  rw [ChunkLease.copyToSlice, if_neg hr, h.copyLoop m (by omega) (Nat.le_refl n)]

theorem copyToSlice_spec (m : Mem) {n : Nat} {l : ChunkLease} (h : l.WF)
    (hn : l.readPointer + n ≤ l.capacity) :
    l.copyToSlice m n = .ok ((l.unread m).take n, l.advance n) := h.headed.copyToSlice m h.held_eq hn

theorem getUint_spec (m : Mem) {w : Nat} {l : ChunkLease} (h : l.WF) (hn : w ≤ (l.unread m).length) :
    l.getUint m w = .ok (ofBE ((l.unread m).take w), l.advance w) := by
  rw [h.length_unread, remaining] at hn
  by_cases h0 : w = 0
  · subst h0
    simp [getUint, copyToSlice, copyLoop, advance_zero]
  · simp only [getUint, copyToSlice_spec m h (show l.readPointer + w ≤ l.capacity by omega)]

end ChunkLease

end Kompact
