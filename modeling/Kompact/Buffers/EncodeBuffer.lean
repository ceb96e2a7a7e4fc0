import Kompact.Buffers.BufferPool
import Kompact.Messaging.Paths

/-!
# The encode buffer

An `EncodeBuffer` is written through a `BufferEncoder`: bytes go to the active
chunk, and where it is full what was written so far is put on a chain of leases
and the chunk is swapped with one of the pool. A swap can fail; the encoder
then notes the error and writes no more until a lease is asked for.

`Inv` says that every lease that is live, the chain included, lies before the
read offset of the active chunk or in chunks that the pool does not hand out.
All operations keep it (`putSlice_spec`, `tryReserve_spec`, `getChunkLease_spec`)
but one: where a padded head needs a second chunk and there is none, `advanceMut`
moves the write offset back (`padFails`).
-/

namespace Kompact

/-- An encode buffer. -/
structure EncodeBuffer where
  buffer : BufferChunk
  bufferPool : BufferPool
  writeOffset : Nat
  readOffset : Nat
  minRemaining : Nat
  deriving DecidableEq, Repr

namespace EncodeBuffer

def withConfig (cfg : PoolConfig) : Panics EncodeBuffer := do
  let bufferPool ← BufferPool.withConfig cfg
  match bufferPool.getBuffer with
  | (some buffer, bufferPool) =>
    return { buffer, bufferPool, writeOffset := 0, readOffset := 0, minRemaining := cfg.encodeBufMinFreeSpace }
  | (none, _) => throw "Couldn't initialize EncodeBuffer, bad config"

/-- Swap the active chunk with one of the pool. -/
def swapBuffer (e : EncodeBuffer) : Except SerError Unit × EncodeBuffer :=
  match e.bufferPool.getBuffer with
  | (some newBuffer, bufferPool) =>
    (.ok (), { e with
      buffer := newBuffer, readOffset := 0, writeOffset := 0
      bufferPool := bufferPool.returnBuffer e.buffer.lock })
  | (none, bufferPool) =>
    (.error (.noBuffersAvailable "No Available Buffers in BufferPool"), { e with bufferPool })

/-- The writable length of the active chunk. -/
def writeableLen (e : EncodeBuffer) : Nat := e.buffer.len - e.writeOffset

/-- The bytes between the offsets as a lease, if there are any. -/
def getChunkLease (e : EncodeBuffer) : Panics (Option ChunkLease × EncodeBuffer) :=
  if e.writeOffset < e.readOffset then .error "attempt to subtract with overflow"
  else
    let cnt := e.writeOffset - e.readOffset
    if 0 < cnt then do
      let (lease, buffer) ← e.buffer.getLease (e.writeOffset - cnt) e.writeOffset
      return (some lease, { e with buffer, readOffset := e.readOffset + cnt })
    else .ok (none, e)

end EncodeBuffer

/-- The encoder of an encode buffer, with the memory it writes to. -/
structure BufferEncoder where
  mem : Mem
  encodeBuffer : EncodeBuffer
  chainHead : Option ChunkLease
  serError : Option SerError

/-- The first encoder of a buffer must find it aligned. -/
def BufferEncoder.new (m : Mem) (e : EncodeBuffer) : Panics BufferEncoder :=
  if e.writeOffset = e.readOffset then .ok ⟨m, e, none, none⟩
  else .error "assertion failed: write_offset == read_offset"

/-- An encoder, or the error and the buffer where there is no chunk to swap. -/
def EncodeBuffer.getBufferEncoder (m : Mem) (e : EncodeBuffer) :
    Panics (Except (SerError × EncodeBuffer) BufferEncoder) :=
  if e.writeableLen < e.minRemaining then
    match e.swapBuffer with
    | (.ok _, e) => (BufferEncoder.new m e).map .ok
    | (.error err, e) => .ok (.error (err, e))
  else (BufferEncoder.new m e).map .ok

namespace BufferEncoder

def setWriteOffset (w : BufferEncoder) (n : Nat) : BufferEncoder :=
  { w with encodeBuffer := { w.encodeBuffer with writeOffset := n } }

/-- Put a lease, if there is one, at the end of the chain, or start one with it. -/
def chain (w : BufferEncoder) (lease : Option ChunkLease) : BufferEncoder :=
  match lease, w.chainHead with
  | none, _ => w
  | some lease, some chainHead => { w with chainHead := some (chainHead.appendToChain lease) }
  | some lease, none => { w with chainHead := some lease }

/-- Chain what was written into the active chunk, and swap it. -/
def chainAndSwap (w : BufferEncoder) : Panics (Except SerError Unit × BufferEncoder) := do
  let (lease, encodeBuffer) ← w.encodeBuffer.getChunkLease
  let w := { w with encodeBuffer }.chain lease
  let (r, encodeBuffer) := w.encodeBuffer.swapBuffer
  return (r, { w with encodeBuffer })

/-- `chain_and_swap`, with an error kept for later. -/
def chainAndSwapLater (w : BufferEncoder) : Panics BufferEncoder := do
  match ← w.chainAndSwap with
  | (.ok _, w) => return w
  | (.error err, w) => return { w with serError := some err }

/-- `BufferError` as text. -/
def bufferErrorText : BufferError → String
  | .noAvailableBuffers s => "A BufferPool ran out of Buffers \n " ++ s

/-- See to it that there is room for `size` bytes; swaps the chunk where this
avoids a chain. -/
def tryReserve (w : BufferEncoder) (size : Nat) : Panics (Except SerError Unit × BufferEncoder) :=
  let bufLen := w.encodeBuffer.buffer.len
  let remaining := bufLen - w.encodeBuffer.writeOffset
  if size < remaining then .ok (.ok (), w)
  else if size < bufLen then w.chainAndSwap
  else
    let (r, bufferPool) := w.encodeBuffer.bufferPool.tryReserve (size - remaining)
    .ok (r.mapError fun err => .noBuffersAvailable (bufferErrorText err),
      { w with encodeBuffer := { w.encodeBuffer with bufferPool } })

/-- Everything that was written, as a lease. -/
def getChunkLease (w : BufferEncoder) : Panics (Except SerError ChunkLease × BufferEncoder) :=
  match w.serError with
  | some error => .ok (.error error, { w with serError := none })
  | none => do
    let (lease, encodeBuffer) ← w.encodeBuffer.getChunkLease
    match w.chainHead, lease with
    | some chainHead, some tail =>
      return (.ok (chainHead.appendToChain tail), { w with encodeBuffer, chainHead := none })
    | some chainHead, none => return (.ok chainHead, { w with encodeBuffer, chainHead := none })
    | none, some lease => return (.ok lease, { w with encodeBuffer })
    | none, none => return (.error (.invalidData "No data written"), { w with encodeBuffer })

/-! ## `BufMut` -/

def remainingMut (w : BufferEncoder) : Nat := w.encodeBuffer.writeableLen

/-- Count `cnt` more bytes as written. Those that do not fit in the active chunk
are the first of the next one. -/
def advanceMut (w : BufferEncoder) (cnt : Nat) : Panics BufferEncoder :=
  if w.serError.isSome then .ok w
  else
    let remaining := w.encodeBuffer.writeableLen
    if remaining < cnt then do
      let w ← (w.setWriteOffset (w.encodeBuffer.writeOffset + remaining)).chainAndSwapLater
      return w.setWriteOffset (cnt - remaining)
    else .ok (w.setWriteOffset (w.encodeBuffer.writeOffset + cnt))

def pad (w : BufferEncoder) (cnt : Nat) : Panics BufferEncoder := w.advanceMut cnt

/-- Copy bytes to the front of the writable slice. -/
def copyIn (w : BufferEncoder) (bs : List UInt8) : BufferEncoder :=
  { w with mem := w.mem.write w.encodeBuffer.buffer.chunk w.encodeBuffer.writeOffset bs }

/-- The loop of `put_slice`. A round writes at least one byte, unless the active
chunk is full and is swapped first. -/
def putLoop : Nat → BufferEncoder → List UInt8 → Panics BufferEncoder
  | _, w, [] => .ok w
  | 0, _, _ :: _ => .error "put_slice makes no progress"
  | fuel + 1, w, src =>
    if w.serError.isSome then .ok w
    else do
      let cnt := min w.remainingMut src.length
      let w ← (w.copyIn (src.take cnt)).advanceMut cnt
      let rest := src.drop cnt
      if w.remainingMut < rest.length then
        let w ← w.chainAndSwapLater
        putLoop fuel w rest
      else putLoop fuel w rest

def putSlice (w : BufferEncoder) (src : List UInt8) : Panics BufferEncoder := putLoop (src.length + 1) w src

/-- `put` of a buffer, by the chunks it is read in. -/
def put (w : BufferEncoder) : List (List UInt8) → Panics BufferEncoder
  | [] => .ok w
  | chunk :: chunks => if w.serError.isSome then .ok w else do put (← w.putSlice chunk) chunks

end BufferEncoder

/-! ## Locks -/

namespace ChunkLease

/-- The locks a lease holds, one for each node. -/
def locks : ChunkLease → List ChunkId
  | last n => [n.lock]
  | link n c => n.lock :: c.locks

@[simp] theorem locks_new (s : Slice) (k : ChunkId) : (new s k).locks = [k] := rfl

@[simp] theorem locks_appendToChain (l t : ChunkLease) : (l.appendToChain t).locks = l.locks ++ t.locks := by
  induction l with
  | last n => rfl
  | link n c ih => simp only [appendToChain, locks, ih, List.cons_append]

/-- No byte is in both leases. -/
def Apart (l l' : ChunkLease) : Prop := ∀ s ∈ l.slices, ∀ t ∈ l'.slices, s.Apart t

theorem Apart.symm {l l' : ChunkLease} (h : l.Apart l') : l'.Apart l := fun s hs t ht => (h t ht s hs).symm

/-- A lease of bytes that were written one after the other: nothing of it was
read, and no byte of it is in it twice or in one of the other leases. -/
structure Own (l : ChunkLease) (leases : List ChunkLease) : Prop where
  wf : l.WF
  unread : l.readPointer = 0
  scattered : l.slices.Pairwise Slice.Apart
  apart : ∀ l' ∈ leases, l.Apart l'

theorem Own.appendToChain {l t : ChunkLease} {leases : List ChunkLease} (hl : l.Own leases)
    (ht : t.Own (l :: leases)) : (l.appendToChain t).Own leases where
  wf := hl.wf.appendToChain ht.wf ht.unread
  unread := by rw [readPointer_appendToChain, hl.unread]
  scattered := by
    rw [slices_appendToChain, List.pairwise_append]
    exact ⟨hl.scattered, ht.scattered, (ht.apart l (List.mem_cons_self ..)).symm⟩
  apart l' hl' s hs := by
    rw [slices_appendToChain, List.mem_append] at hs
    rcases hs with hs | hs
    · exact hl.apart l' hl' s hs
    · exact ht.apart l' (List.mem_cons_of_mem _ hl') s hs

end ChunkLease

/-- The locks of several leases. -/
def locksOf (leases : List ChunkLease) : List ChunkId := leases.flatMap ChunkLease.locks

/-- Chunks that are all different, with the locks on them. `next` is a chunk
that does not exist yet. -/
structure Ledger (chunks : List BufferChunk) (next len : Nat) (locks : List ChunkId) : Prop where
  nodup : (chunks.map BufferChunk.chunk).Nodup
  fresh : ∀ b ∈ chunks, b.chunk < next
  old : ∀ c ∈ locks, c < next
  counted : ∀ b ∈ chunks, b.refCount = 1 + locks.count b.chunk
  size : ∀ b ∈ chunks, b.len = len

namespace Ledger

variable {chunks chunks' : List BufferChunk} {next len : Nat} {locks locks' : List ChunkId} {b b' : BufferChunk}

theorem perm (h : Ledger chunks next len locks) (hp : chunks.Perm chunks') : Ledger chunks' next len locks where
  nodup := ((hp.map _).nodup_iff).mp h.nodup
  fresh b hb := h.fresh b (hp.mem_iff.mpr hb)
  old := h.old
  counted b hb := h.counted b (hp.mem_iff.mpr hb)
  size b hb := h.size b (hp.mem_iff.mpr hb)

theorem sublist (h : Ledger chunks next len locks) (hs : chunks'.Sublist chunks) : Ledger chunks' next len locks where
  nodup := (hs.map _).nodup h.nodup
  fresh b hb := h.fresh b (hs.subset hb)
  old := h.old
  counted b hb := h.counted b (hs.subset hb)
  size b hb := h.size b (hs.subset hb)

/-- A chunk is locked or unlocked. -/
theorem setLocked (h : Ledger (b :: chunks) next len locks) (hc : b'.chunk = b.chunk) (hl : b'.len = b.len)
    (hr : b'.refCount = b.refCount) : Ledger (b' :: chunks) next len locks where
  nodup := by
    have := h.nodup
    simpa only [List.map_cons, hc] using this
  fresh x hx := by
    rcases List.mem_cons.mp hx with rfl | hx
    · rw [hc]; exact h.fresh b (List.mem_cons_self ..)
    · exact h.fresh x (List.mem_cons_of_mem _ hx)
  old := h.old
  counted x hx := by
    rcases List.mem_cons.mp hx with rfl | hx
    · rw [hc, hr]; exact h.counted b (List.mem_cons_self ..)
    · exact h.counted x (List.mem_cons_of_mem _ hx)
  size x hx := by
    rcases List.mem_cons.mp hx with rfl | hx
    · rw [hl]; exact h.size b (List.mem_cons_self ..)
    · exact h.size x (List.mem_cons_of_mem _ hx)

/-- A chunk is allocated. -/
theorem allocate (h : Ledger chunks next len locks) :
    Ledger (BufferPool.fromChunk next len :: chunks) (next + 1) len locks where
  nodup := by
    rw [List.map_cons, List.nodup_cons]
    refine ⟨fun hm => ?_, h.nodup⟩
    obtain ⟨b, hb, he⟩ := List.mem_map.mp hm
    exact absurd (h.fresh b hb) (by rw [he]; exact Nat.lt_irrefl _)
  fresh x hx := by
    rcases List.mem_cons.mp hx with rfl | hx
    · exact Nat.lt_succ_self _
    · exact Nat.lt_succ_of_lt (h.fresh x hx)
  old c hc := Nat.lt_succ_of_lt (h.old c hc)
  counted x hx := by
    rcases List.mem_cons.mp hx with rfl | hx
    · have : locks.count next = 0 := List.count_eq_zero.mpr (fun hm => Nat.lt_irrefl _ (h.old next hm))
      show 1 = 1 + locks.count next
      omega
    · exact h.counted x hx
  size x hx := by
    rcases List.mem_cons.mp hx with rfl | hx
    · rfl
    · exact h.size x hx

/-- The lock of a chunk is cloned. -/
theorem clone (h : Ledger (b :: chunks) next len locks) :
    Ledger ({ b with refCount := b.refCount + 1 } :: chunks) next len (b.chunk :: locks) where
  nodup := h.nodup
  fresh x hx := by
    rcases List.mem_cons.mp hx with rfl | hx
    · exact h.fresh b (List.mem_cons_self ..)
    · exact h.fresh x (List.mem_cons_of_mem _ hx)
  old c hc := by
    rcases List.mem_cons.mp hc with rfl | hc
    · exact h.fresh b (List.mem_cons_self ..)
    · exact h.old c hc
  counted x hx := by
    rcases List.mem_cons.mp hx with rfl | hx
    · show b.refCount + 1 = 1 + (b.chunk :: locks).count b.chunk
      rw [List.count_cons_self, h.counted b (List.mem_cons_self ..)]
      omega
    · have hne : b.chunk ≠ x.chunk := by
        have hnd := h.nodup
        rw [List.map_cons, List.nodup_cons] at hnd
        exact fun he => hnd.1 (List.mem_map.mpr ⟨x, hx, he.symm⟩)
      rw [List.count_cons_of_ne hne]
      exact h.counted x (List.mem_cons_of_mem _ hx)
  size x hx := by
    rcases List.mem_cons.mp hx with rfl | hx
    · exact h.size b (List.mem_cons_self ..)
    · exact h.size x (List.mem_cons_of_mem _ hx)

theorem permLocks (h : Ledger chunks next len locks) (hp : locks.Perm locks') : Ledger chunks next len locks' where
  nodup := h.nodup
  fresh := h.fresh
  old c hc := h.old c (hp.mem_iff.mpr hc)
  counted b hb := by rw [h.counted b hb, hp.count_eq]
  size := h.size

end Ledger

/-- The chunks of a pool and those that were handed out, with the locks on
them; a chunk that is not locked in the pool has none. -/
structure BufferPool.Sound (p : BufferPool) (out : List BufferChunk) (locks : List ChunkId) : Prop where
  ledger : Ledger (out ++ p.pool) p.nextChunk p.chunkSize locks
  idle : ∀ b ∈ p.pool, b.locked = false → b.chunk ∉ locks

namespace BufferPool

variable {p p' : BufferPool} {out : List BufferChunk} {locks : List ChunkId} {b : BufferChunk}

theorem free_spec (b : BufferChunk) : b.free.2.chunk = b.chunk ∧ b.free.2.len = b.len ∧
    b.free.2.refCount = b.refCount ∧
      (b.free.1 = true → b.free.2.locked = false ∧ (b.locked = false ∨ b.refCount < 2)) := by
  unfold BufferChunk.free
  by_cases hl : b.locked = true
  · by_cases hr : b.refCount < 2 <;> simp [hl, hr]
  · simp [hl]

/-- What the pool hands out is not locked, and no lease holds a lock on it. -/
theorem Sound.tryReclaim (h : p.Sound out locks) (hb : p.tryReclaim.1 = some b) :
    p.tryReclaim.2.Sound (b :: out) locks ∧ b.locked = false ∧ b.chunk ∉ locks ∧
      p.tryReclaim.2.chunkSize = p.chunkSize := by
  have hr := reclaims p
  rw [hb] at hr
  generalize p.tryReclaim.2 = p' at *
  obtain ⟨hled, hidle⟩ := h
  generalize ho : some b = o at hr
  cases hr with
  | @idle pre post b₀ hp hpre hfree =>
    obtain rfl := Option.some.inj ho
    obtain ⟨hc, hlen, href, hun⟩ := free_spec b₀
    obtain ⟨hun, hwas⟩ := hun hfree
    have hmem : b₀ ∈ p.pool := by rw [hp]; exact List.mem_append_right _ (List.mem_cons_self ..)
    refine ⟨⟨?_, fun x hx => hidle x ?_⟩, hun, ?_, rfl⟩
    · refine (hled.perm ?_).setLocked hc hlen href
      rw [hp]
      exact (List.perm_append_comm.append_left out).trans List.perm_middle
    · rw [hp]
      rcases List.mem_append.mp hx with hx | hx
      · exact List.mem_append_right _ (List.mem_cons_of_mem _ hx)
      · exact List.mem_append_left _ hx
    · rw [hc]
      rcases hwas with hwas | hwas
      · exact hidle b₀ hmem hwas
      · rw [hled.counted b₀ (List.mem_append_right _ hmem)] at hwas
        exact List.count_eq_zero.mp (by omega)
  | allocated hnone hlt =>
    obtain rfl := Option.some.inj ho
    exact ⟨⟨hled.allocate, hidle⟩, rfl, fun hm => Nat.lt_irrefl _ (hled.old _ hm), rfl⟩
  | exhausted hnone hge => cases ho

theorem tryReclaim_none (h : p.tryReclaim.1 = none) : p.tryReclaim.2 = p := by
  have hr := reclaims p
  rw [h] at hr
  generalize p.tryReclaim.2 = p' at *
  cases hr
  rfl

theorem Sound.returnBuffer (h : p.Sound (b :: out) locks) : (p.returnBuffer b).Sound out locks := by
  refine ⟨?_, fun x hx hl => ?_⟩
  · have hlock : Ledger (b.lock :: (out ++ p.pool)) p.nextChunk p.chunkSize locks := h.ledger.setLocked rfl rfl rfl
    refine hlock.perm ?_
    show List.Perm _ (out ++ (p.pool ++ [b.lock]))
    rw [← List.append_assoc]
    exact (List.perm_append_singleton _ _).symm
  · rcases List.mem_append.mp hx with hx | hx
    · exact h.idle x hx hl
    · rw [List.mem_singleton.mp hx] at hl
      cases hl

/-- The loop of a reservation: what it takes out is not locked. -/
theorem Sound.reserveLoop {n : Nat} {reserved : List BufferChunk} (h : p.Sound (reserved ++ out) locks)
    (hr : ∀ b ∈ reserved, b.chunk ∉ locks) :
    (reserveLoop n p reserved).2.chunkSize = p.chunkSize ∧ ∃ reserved', reserved <+: reserved' ∧
      (∀ rs, (BufferPool.reserveLoop n p reserved).1 = some rs → rs = reserved') ∧
      (BufferPool.reserveLoop n p reserved).2.Sound (reserved' ++ out) locks ∧ ∀ b ∈ reserved', b.chunk ∉ locks := by
  induction n generalizing p reserved with
  | zero =>
    refine ⟨rfl, reserved, List.prefix_refl _, fun rs hrs => ?_, h, hr⟩
    exact (Option.some.inj hrs).symm
  | succ n ih =>
    rw [BufferPool.reserveLoop]
    have hsound := fun b hb => Sound.tryReclaim (b := b) h hb
    have hnone := tryReclaim_none (p := p)
    generalize p.tryReclaim = t at *
    obtain ⟨o, p'⟩ := t
    cases o with
    | none =>
      obtain rfl : p' = p := hnone rfl
      exact ⟨rfl, reserved, List.prefix_refl _, (fun rs hrs => by cases hrs), h, hr⟩
    | some b =>
      obtain ⟨hs, -, hnot, hsize⟩ := hsound b rfl
      have hs' : p'.Sound (reserved ++ [b] ++ out) locks := by
        refine ⟨hs.ledger.perm ?_, hs.idle⟩
        simp only [List.append_assoc, List.cons_append]
        exact List.perm_middle.symm
      have hr' : ∀ x ∈ reserved ++ [b], x.chunk ∉ locks := by
        intro x hx
        rcases List.mem_append.mp hx with hx | hx
        · exact hr x hx
        · rw [List.mem_singleton.mp hx]; exact hnot
      obtain ⟨hsz, reserved', hpre, hsome, hfin, hall⟩ := ih hs' hr'
      exact ⟨hsz.trans hsize, reserved', (List.prefix_append _ _).trans hpre, hsome, hfin, hall⟩

theorem Sound.tryReserve (h : p.Sound out locks) (size : Nat) :
    (p.tryReserve size).2.Sound out locks ∧ (p.tryReserve size).2.chunkSize = p.chunkSize := by
  have hnil : p.Sound ([] ++ out) locks := h
  obtain ⟨hsz, reserved', -, hsome, hfin, hall⟩ :=
    hnil.reserveLoop (n := p.requiredBuffers size) (fun b hb => by cases hb)
  unfold BufferPool.tryReserve
  simp only
  split
  · exact ⟨h, rfl⟩
  split
  · exact ⟨h, rfl⟩
  generalize BufferPool.reserveLoop (p.requiredBuffers size) p [] = r at *
  obtain ⟨o, p'⟩ := r
  cases o with
  | none =>
    exact ⟨⟨hfin.ledger.sublist ((List.sublist_append_right _ _).append_right _), hfin.idle⟩, hsz⟩
  | some rs =>
    obtain rfl := hsome rs rfl
    refine ⟨⟨hfin.ledger.perm ?_, fun x hx hl => ?_⟩, hsz⟩
    · show List.Perm _ (out ++ (rs.reverse ++ p'.pool))
      rw [List.append_assoc]
      exact (List.perm_append_comm_assoc ..).trans
        (((List.reverse_perm rs).symm.append_right p'.pool).append_left out)
    · rcases List.mem_append.mp hx with hx | hx
      · exact hall x (List.mem_reverse.mp hx)
      · exact hfin.idle x hx hl

end BufferPool

/-! ## The invariant of an encode buffer -/

/-- A lease whose bytes the buffer does not write: they lie before its read
offset, or in other chunks it holds locks on. -/
structure ChunkLease.Held (e : EncodeBuffer) (l : ChunkLease) : Prop where
  locked : ∀ s ∈ l.slices, s.chunk ∈ l.locks
  below : l.Below e.buffer.chunk e.readOffset

/-- The offsets are in order, the locks are those of the given leases, and
these are not written. -/
structure EncodeBuffer.Inv (e : EncodeBuffer) (leases : List ChunkLease) : Prop where
  offsets : e.readOffset ≤ e.writeOffset
  bound : e.writeOffset ≤ e.buffer.len
  active : e.buffer.locked = false
  sound : e.bufferPool.Sound [e.buffer] (locksOf leases)
  held : ∀ l ∈ leases, l.Held e

namespace EncodeBuffer

variable {e e' : EncodeBuffer} {leases leases' : List ChunkLease}

/-- The bytes between the offsets. -/
def activeBytes (m : Mem) (e : EncodeBuffer) : List UInt8 :=
  m.bytes e.buffer.chunk e.readOffset (e.writeOffset - e.readOffset)

/-- Only the leases matter, not their order. -/
theorem Inv.perm (h : e.Inv leases) (hp : leases.Perm leases') : e.Inv leases' where
  offsets := h.offsets
  bound := h.bound
  active := h.active
  sound := by
    have hl : (locksOf leases).Perm (locksOf leases') := hp.flatMap_right _
    exact ⟨h.sound.ledger.permLocks hl, fun b hb hu hm => h.sound.idle b hb hu (hl.mem_iff.mpr hm)⟩
  held l hl := h.held l (hp.mem_iff.mpr hl)

theorem Inv.size (h : e.Inv leases) : e.buffer.len = e.bufferPool.chunkSize :=
  h.sound.ledger.size e.buffer (List.mem_append_left _ (List.mem_singleton_self _))

/-- The slices of a lease are in chunks with a lock. -/
theorem Inv.mem_locksOf (h : e.Inv leases) {l : ChunkLease} (hl : l ∈ leases) {s : Slice} (hs : s ∈ l.slices) :
    s.chunk ∈ locksOf leases :=
  List.mem_flatMap.mpr ⟨l, hl, (h.held l hl).locked s hs⟩

/-- A swap: a chunk that no lease is in becomes the active one. -/
theorem Inv.swapBuffer (h : e.Inv leases) :
    (e.bufferPool.getBuffer.1.isSome = true ∧ e.swapBuffer.1 = .ok () ∧ e.swapBuffer.2.Inv leases ∧
      e.swapBuffer.2.writeOffset = 0 ∧ e.swapBuffer.2.readOffset = 0 ∧
      e.swapBuffer.2.bufferPool.chunkSize = e.bufferPool.chunkSize) ∨
    (e.bufferPool.getBuffer.1 = none ∧ (∃ err, e.swapBuffer.1 = .error err) ∧ e.swapBuffer.2 = e) := by
  unfold EncodeBuffer.swapBuffer
  have hnone := BufferPool.tryReclaim_none (p := e.bufferPool)
  have hsome := fun b hb => h.sound.tryReclaim (b := b) hb
  rw [BufferPool.getBuffer]
  generalize e.bufferPool.tryReclaim = t at *
  obtain ⟨o, p'⟩ := t
  cases o with
  | none =>
    obtain rfl : p' = e.bufferPool := hnone rfl
    exact .inr ⟨rfl, ⟨_, rfl⟩, rfl⟩
  | some b =>
    obtain ⟨hs, hun, hnot, hsize⟩ := hsome b rfl
    refine .inl ⟨rfl, rfl, ⟨Nat.le_refl _, Nat.zero_le _, hun, ?_, fun l hl => ⟨(h.held l hl).locked, ?_⟩⟩, rfl, rfl,
      hsize⟩
    · refine BufferPool.Sound.returnBuffer ⟨?_, hs.idle⟩
      have hp : Ledger (e.buffer :: ([b] ++ p'.pool)) p'.nextChunk p'.chunkSize (locksOf leases) :=
        hs.ledger.perm (List.Perm.swap _ _ _)
      exact hp.setLocked rfl rfl rfl
    · intro s hs' hc
      exact absurd (hc ▸ h.mem_locksOf hl hs') hnot

/-- What was written becomes a lease, which is not written any more. -/
theorem Inv.getChunkLease (h : e.Inv leases) :
    (e.readOffset = e.writeOffset ∧ e.getChunkLease = .ok (none, e)) ∨
    ∃ l e', e.getChunkLease = .ok (some l, e') ∧ e'.Inv (l :: leases) ∧ l.Own leases ∧
      (∀ m, l.bytes m = e.activeBytes m) ∧ e'.readOffset = e.writeOffset ∧ e'.writeOffset = e.writeOffset ∧
      e'.buffer.chunk = e.buffer.chunk ∧ e'.bufferPool = e.bufferPool ∧ e'.minRemaining = e.minRemaining := by
  have hlt : ¬ e.writeOffset < e.readOffset := Nat.not_lt.mpr h.offsets
  by_cases h0 : 0 < e.writeOffset - e.readOffset
  · have hlo : e.writeOffset - (e.writeOffset - e.readOffset) = e.readOffset := by have := h.offsets; omega
    have hget := DecodeBuffer.getLease_spec (show e.readOffset < e.writeOffset by omega) h.bound h.active
    refine .inr ⟨.new ⟨e.buffer.chunk, e.readOffset, e.writeOffset - e.readOffset⟩ e.buffer.chunk,
      { e with
        buffer := { e.buffer with refCount := e.buffer.refCount + 1 }
        readOffset := e.readOffset + (e.writeOffset - e.readOffset) }, ?_,
      ⟨?_, h.bound, h.active, ⟨?_, fun b hb hu hm => ?_⟩, fun l hl => ?_⟩,
      ⟨ChunkLease.wf_new _ _, rfl, List.pairwise_singleton .., fun l hl t ht u hu hc => .inr ?_⟩, fun m => rfl, ?_, rfl,
      rfl, rfl, rfl⟩
    · unfold EncodeBuffer.getChunkLease
      simp only [if_neg hlt, if_pos h0, hlo, hget]
      rfl
    · show e.readOffset + (e.writeOffset - e.readOffset) ≤ e.writeOffset
      have := h.offsets; omega
    · exact h.sound.ledger.clone
    · -- the active chunk is not in the pool
      rcases List.mem_cons.mp hm with he | hm
      · have hnd := h.sound.ledger.nodup
        rw [List.singleton_append, List.map_cons, List.nodup_cons] at hnd
        exact hnd.1 (List.mem_map.mpr ⟨b, hb, he⟩)
      · exact h.sound.idle b hb hu hm
    · rcases List.mem_cons.mp hl with rfl | hl
      · refine ⟨fun s hs => ?_, fun s hs _ => ?_⟩
        · rw [ChunkLease.slices_new, List.mem_singleton] at hs
          rw [hs]
          exact List.mem_singleton_self _
        · rw [ChunkLease.slices_new, List.mem_singleton] at hs
          rw [hs]
      · exact ⟨(h.held l hl).locked, (h.held l hl).below.mono (Nat.le_add_right ..)⟩
    · rw [ChunkLease.slices_new, List.mem_singleton] at ht
      rw [ht] at hc ⊢
      exact (h.held l hl).below u hu hc.symm
    · show e.readOffset + (e.writeOffset - e.readOffset) = e.writeOffset
      have := h.offsets; omega
  · refine .inl ⟨by have := h.offsets; omega, ?_⟩
    unfold EncodeBuffer.getChunkLease
    simp only [if_neg hlt, if_neg h0]

end EncodeBuffer

/-! ## What the encoder writes -/

namespace BufferEncoder

variable {w w' w₁ : BufferEncoder} {leases : List ChunkLease} {bs bs' : List UInt8} {n cnt : Nat}

/-- The leases that are not to be written: those given, and the chain. -/
def live (w : BufferEncoder) (leases : List ChunkLease) : List ChunkLease := w.chainHead.toList ++ leases

/-- The invariant of an encoder while the given leases are live. -/
structure Inv (w : BufferEncoder) (leases : List ChunkLease) : Prop where
  buffer : w.encodeBuffer.Inv (w.live leases)
  chain_own : ∀ l ∈ w.chainHead, l.Own leases

def chainBytes (w : BufferEncoder) : List UInt8 := w.chainHead.elim [] (ChunkLease.bytes w.mem)

/-- Everything that was written since the last lease was taken. -/
def written (w : BufferEncoder) : List UInt8 := w.chainBytes ++ w.encodeBuffer.activeBytes w.mem

/-- The lease is put on the chain. -/
theorem Inv.chainLease {l : ChunkLease} (h : w.encodeBuffer.Inv (l :: w.live leases))
    (hc : ∀ l ∈ w.chainHead, l.Own leases) (hl : l.Own (w.live leases)) :
    (w.chain (some l)).Inv leases ∧ (w.chain (some l)).chainBytes = w.chainBytes ++ l.bytes w.mem ∧
      (w.chain (some l)).mem = w.mem ∧ (w.chain (some l)).encodeBuffer = w.encodeBuffer ∧
      (w.chain (some l)).serError = w.serError := by
  unfold BufferEncoder.chain
  cases hhead : w.chainHead with
  | some c =>
    have hlive : w.live leases = c :: leases := by rw [live, hhead]; rfl
    rw [hlive] at h hl
    have hheld := h.held
    refine ⟨⟨⟨h.offsets, h.bound, h.active, ?_, fun x hx => ?_⟩, fun x hx => ?_⟩, ?_, rfl, rfl, rfl⟩
    · have hp : (locksOf (l :: c :: leases)).Perm (locksOf (c.appendToChain l :: leases)) := by
        simp only [locksOf, List.flatMap_cons, ChunkLease.locks_appendToChain, List.append_assoc]
        exact List.perm_append_comm_assoc ..
      exact ⟨h.sound.ledger.permLocks hp, fun b hb hu hm => h.sound.idle b hb hu (hp.mem_iff.mpr hm)⟩
    · rcases List.mem_cons.mp hx with rfl | hx
      · have hcl := hheld c (List.mem_cons_of_mem _ (List.mem_cons_self ..))
        have hll := hheld l (List.mem_cons_self ..)
        refine ⟨fun s hs => ?_, hcl.below.appendToChain hll.below⟩
        rw [ChunkLease.slices_appendToChain, List.mem_append] at hs
        rw [ChunkLease.locks_appendToChain, List.mem_append]
        exact hs.imp (hcl.locked s) (hll.locked s)
      · exact hheld x (List.mem_cons_of_mem _ (List.mem_cons_of_mem _ hx))
    · obtain rfl := Option.some.inj hx
      exact (hc c hhead).appendToChain hl
    · simp only [chainBytes, hhead, Option.elim_some, ChunkLease.bytes_appendToChain]
  | none =>
    have hlive : w.live leases = leases := by rw [live, hhead]; rfl
    rw [hlive] at h hl
    refine ⟨⟨h, fun x hx => ?_⟩, ?_, rfl, rfl, rfl⟩
    · obtain rfl := Option.some.inj hx
      exact hl
    · simp only [chainBytes, hhead, Option.elim_some, Option.elim_none, List.nil_append]

/-- Chaining and swapping moves what was written to the chain. -/
theorem Inv.chainAndSwap (h : w.Inv leases) :
    ∃ r w', w.chainAndSwap = .ok (r, w') ∧ w'.Inv leases ∧ w'.mem = w.mem ∧ w'.serError = w.serError ∧
      w'.written = w.written ∧ w'.encodeBuffer.readOffset = w'.encodeBuffer.writeOffset ∧
      w'.encodeBuffer.bufferPool.chunkSize = w.encodeBuffer.bufferPool.chunkSize ∧
      ((w.encodeBuffer.bufferPool.getBuffer.1.isSome = true ∧ r = .ok () ∧ w'.encodeBuffer.writeOffset = 0) ∨
        (w.encodeBuffer.bufferPool.getBuffer.1 = none ∧ ∃ err, r = .error err)) := by
  -- the state between the two halves
  obtain ⟨lease, e₁, hget, he₁, hinv, hmem, herr, hwr, hro, hpool⟩ : ∃ lease e₁,
      w.encodeBuffer.getChunkLease = .ok (lease, e₁) ∧
      (BufferEncoder.chain { w with encodeBuffer := e₁ } lease).encodeBuffer = e₁ ∧
      (BufferEncoder.chain { w with encodeBuffer := e₁ } lease).Inv leases ∧
      (BufferEncoder.chain { w with encodeBuffer := e₁ } lease).mem = w.mem ∧
      (BufferEncoder.chain { w with encodeBuffer := e₁ } lease).serError = w.serError ∧
      (BufferEncoder.chain { w with encodeBuffer := e₁ } lease).chainBytes = w.written ∧ e₁.readOffset = e₁.writeOffset ∧
      e₁.bufferPool = w.encodeBuffer.bufferPool := by
    rcases h.buffer.getChunkLease with ⟨he, hget⟩ | ⟨l, e', hget, hinv, hown, hbs, hro, hwo, -, hpool, -⟩
    · refine ⟨none, _, hget, rfl, h, rfl, rfl, ?_, he, rfl⟩
      rw [written, EncodeBuffer.activeBytes, he, Nat.sub_self, Mem.bytes_zero, List.append_nil]
      rfl
    · have hc := Inv.chainLease (w := { w with encodeBuffer := e' }) hinv h.chain_own hown
      refine ⟨some l, e', hget, hc.2.2.2.1, hc.1, hc.2.2.1, hc.2.2.2.2, ?_, hro.trans hwo.symm, hpool⟩
      rw [hc.2.1, written]
      exact congrArg (w.chainBytes ++ ·) (hbs w.mem)
  have hstep : w.chainAndSwap = .ok (e₁.swapBuffer.1,
      { BufferEncoder.chain { w with encodeBuffer := e₁ } lease with encodeBuffer := e₁.swapBuffer.2 }) := by
    unfold BufferEncoder.chainAndSwap
    rw [hget]
    simp only [bind, Except.bind, pure, Except.pure, he₁]
  generalize BufferEncoder.chain { w with encodeBuffer := e₁ } lease = w₁ at *
  have hchain : ∀ e, BufferEncoder.chainBytes { w₁ with encodeBuffer := e } = w.written := fun _ => hwr
  rcases EncodeBuffer.Inv.swapBuffer (he₁ ▸ hinv.buffer) with
    ⟨hsome, hok, hi, hwo, hr0, hsize⟩ | ⟨hnone, ⟨err, herr'⟩, heq⟩
  · refine ⟨_, _, hstep, ⟨hi, hinv.chain_own⟩, hmem, herr, ?_, by rw [hwo, hr0], ?_, .inl ⟨?_, hok, hwo⟩⟩
    · rw [written, hchain, EncodeBuffer.activeBytes]
      simp only [hwo, hr0, Nat.sub_self, Mem.bytes_zero, List.append_nil]
    · rw [← hpool]; exact hsize
    · rw [← hpool]; exact hsome
  · refine ⟨_, _, hstep, ⟨by rw [heq]; exact he₁ ▸ hinv.buffer, hinv.chain_own⟩, hmem, herr, ?_, by rw [heq]; exact hro,
      by rw [heq, hpool], .inr ⟨?_, err, herr'⟩⟩
    · rw [written, hchain, EncodeBuffer.activeBytes, heq, hro, Nat.sub_self, Mem.bytes_zero, List.append_nil]
    · rw [← hpool]; exact hnone

/-- What an operation that writes `bs` does: unless it fails the bytes are
appended, and no lease is written. -/
structure Wrote (w : BufferEncoder) (leases : List ChunkLease) (w' : BufferEncoder) (bs : List UInt8) : Prop where
  inv : w'.Inv leases
  written : w'.serError = none → w.serError = none ∧ w'.written = w.written ++ bs
  kept : ∀ l ∈ leases, l.bytes w'.mem = l.bytes w.mem
  size : w'.encodeBuffer.bufferPool.chunkSize = w.encodeBuffer.bufferPool.chunkSize

theorem Wrote.trans {w'' : BufferEncoder} (h : w.Wrote leases w' bs) (h' : w'.Wrote leases w'' bs') :
    w.Wrote leases w'' (bs ++ bs') where
  inv := h'.inv
  written hn := by
    obtain ⟨hn', hw'⟩ := h'.written hn
    obtain ⟨hn₀, hw⟩ := h.written hn'
    exact ⟨hn₀, by rw [hw', hw, List.append_assoc]⟩
  kept l hl := (h'.kept l hl).trans (h.kept l hl)
  size := h'.size.trans h.size

theorem wrote_nil (h : w.Inv leases) : w.Wrote leases w [] :=
  ⟨h, fun hn => ⟨hn, (List.append_nil _).symm⟩, fun _ _ => rfl, rfl⟩

/-- An encoder with an error does nothing. -/
theorem wrote_of_error (h : w.Inv leases) (he : w.serError.isSome = true) : w.Wrote leases w bs :=
  ⟨h, (fun hn => by rw [hn] at he; cases he), fun _ _ => rfl, rfl⟩

/-- The bytes of a lease that is not to be written are those before the write. -/
theorem Inv.bytes_copyIn (h : w.Inv leases) {l : ChunkLease} (hl : l ∈ w.live leases) (bs : List UInt8) :
    l.bytes (w.copyIn bs).mem = l.bytes w.mem := by
  refine ChunkLease.bytes_congr fun s hs => Mem.bytes_write_of_sep fun hc => .inl ?_
  exact ((h.buffer.held l hl).below s hs hc).trans h.buffer.offsets

/-- Copying to the writable slice changes nothing yet. -/
theorem Inv.copyIn (h : w.Inv leases) (bs : List UInt8) :
    (w.copyIn bs).Inv leases ∧ (w.copyIn bs).written = w.written := by
  refine ⟨⟨h.buffer, h.chain_own⟩, ?_⟩
  have hactive : w.encodeBuffer.activeBytes (w.copyIn bs).mem = w.encodeBuffer.activeBytes w.mem := by
    refine Mem.bytes_write_of_sep fun _ => .inl ?_
    have := h.buffer.offsets
    omega
  have hchain : (w.copyIn bs).chainBytes = w.chainBytes := by
    unfold chainBytes
    show w.chainHead.elim [] (ChunkLease.bytes (w.copyIn bs).mem) = _
    cases hc : w.chainHead with
    | none => rfl
    | some l => exact h.bytes_copyIn (by rw [live, hc]; exact List.mem_cons_self ..) bs
  rw [written, hchain]
  exact congrArg (w.chainBytes ++ ·) hactive

/-- Counting more bytes of the active chunk as written. -/
theorem Inv.setWriteOffset (h : w.Inv leases) (hn : n ≤ w.remainingMut) :
    (w.setWriteOffset (w.encodeBuffer.writeOffset + n)).Inv leases ∧
      (w.setWriteOffset (w.encodeBuffer.writeOffset + n)).written =
        w.written ++ w.mem.bytes w.encodeBuffer.buffer.chunk w.encodeBuffer.writeOffset n := by
  have ho := h.buffer.offsets
  have hb := h.buffer.bound
  unfold remainingMut EncodeBuffer.writeableLen at hn
  refine ⟨⟨⟨?_, ?_, h.buffer.active, h.buffer.sound, fun l hl => ?_⟩, h.chain_own⟩, ?_⟩
  · show w.encodeBuffer.readOffset ≤ w.encodeBuffer.writeOffset + n; omega
  · show w.encodeBuffer.writeOffset + n ≤ w.encodeBuffer.buffer.len; omega
  · exact ⟨(h.buffer.held l hl).locked, (h.buffer.held l hl).below⟩
  · have hlen : w.encodeBuffer.writeOffset + n - w.encodeBuffer.readOffset =
        w.encodeBuffer.writeOffset - w.encodeBuffer.readOffset + n := by omega
    have hoff : w.encodeBuffer.readOffset + (w.encodeBuffer.writeOffset - w.encodeBuffer.readOffset) =
        w.encodeBuffer.writeOffset := by omega
    rw [written, written, List.append_assoc]
    congr 1
    show w.mem.bytes w.encodeBuffer.buffer.chunk w.encodeBuffer.readOffset
      (w.encodeBuffer.writeOffset + n - w.encodeBuffer.readOffset) = _
    rw [hlen, Mem.bytes_add, hoff]
    rfl

/-- Bytes that fit are counted where they were copied. -/
theorem advanceMut_copyIn {cnt : Nat} (hn : cnt ≤ w.remainingMut) (he : w.serError = none) :
    (w.copyIn bs).advanceMut cnt = .ok ((w.copyIn bs).setWriteOffset (w.encodeBuffer.writeOffset + cnt)) := by
  unfold advanceMut
  have hne : ¬ (w.copyIn bs).serError.isSome = true := by
    show ¬ w.serError.isSome = true
    rw [he]; decide
  rw [if_neg hne]
  exact if_neg (Nat.not_lt.mpr hn)

/-- Copy bytes that fit and count them as written. -/
theorem Inv.writeHere (h : w.Inv leases) (hn : bs.length ≤ w.remainingMut) (he : w.serError = none) :
    w.Wrote leases ((w.copyIn bs).setWriteOffset (w.encodeBuffer.writeOffset + bs.length)) bs := by
  obtain ⟨hi, hw⟩ := h.copyIn bs
  obtain ⟨hi', hw'⟩ := hi.setWriteOffset (n := bs.length) hn
  refine ⟨hi', fun _ => ⟨he, ?_⟩, fun l hl => h.bytes_copyIn (List.mem_append_right _ hl) bs, rfl⟩
  have hbs : (w.copyIn bs).mem.bytes (w.copyIn bs).encodeBuffer.buffer.chunk
      (w.copyIn bs).encodeBuffer.writeOffset bs.length = bs := Mem.bytes_write_self ..
  rw [hbs, hw] at hw'
  exact hw'

/-- A swap on the way: nothing is written, and the encoder notes an error where
there is no chunk. -/
theorem Inv.chainAndSwapLater (h : w.Inv leases) (he : w.serError = none) :
    ∃ w', w.chainAndSwapLater = .ok w' ∧ w.Wrote leases w' [] ∧
      (w'.serError = none → w'.encodeBuffer.writeOffset = 0 ∧ w'.encodeBuffer.readOffset = 0) ∧
      (w'.serError = none ↔ w.encodeBuffer.bufferPool.getBuffer.1.isSome = true) := by
  obtain ⟨r, w', hstep, hinv, hmem, herr, hwr, hoff, hsize, hcase⟩ := h.chainAndSwap
  have hkept : ∀ l ∈ leases, l.bytes w'.mem = l.bytes w.mem := fun l _ => by rw [hmem]
  unfold BufferEncoder.chainAndSwapLater
  rw [hstep]
  rcases hcase with ⟨hsome, rfl, hwo⟩ | ⟨hnone, err, rfl⟩
  · refine ⟨w', rfl, ⟨hinv, fun _ => ⟨he, by rw [hwr, List.append_nil]⟩, hkept, hsize⟩,
      fun _ => ⟨hwo, by rw [hoff, hwo]⟩,
      iff_of_true (herr.trans he) hsome⟩
  · refine ⟨{ w' with serError := some err }, rfl,
      ⟨⟨hinv.buffer, hinv.chain_own⟩, (fun hn => by cases hn), hkept, hsize⟩,
      (fun hn => by cases hn), iff_of_false (fun hn => by cases hn) (by rw [hnone]; decide)⟩

/-- A round of the loop. -/
theorem putLoop_succ {fuel : Nat} {src : List UInt8} (he : w.serError = none) (hne : src ≠ []) :
    putLoop (fuel + 1) w src =
      ((w.copyIn (src.take (min w.remainingMut src.length))).advanceMut (min w.remainingMut src.length)).bind
        fun w₁ =>
          let rest := src.drop (min w.remainingMut src.length)
          if w₁.remainingMut < rest.length then w₁.chainAndSwapLater.bind fun w₂ => putLoop fuel w₂ rest
          else putLoop fuel w₁ rest := by
  obtain ⟨b, tail, rfl⟩ := List.exists_cons_of_ne_nil hne
  exact if_neg (show ¬ w.serError.isSome = true by rw [he]; decide)

/-- A rule for the loop. `P v rest` says of the encoder `v` at the head of the loop that `rest` is
left to write. -/
theorem putLoop_rule {P : BufferEncoder → List UInt8 → Prop} {Q : BufferEncoder → Prop}
    (hnil : ∀ v, P v [] → Q v) (herror : ∀ v rest, P v rest → v.serError.isSome = true → Q v)
    (hhere : ∀ v rest cnt, P v rest → v.serError = none → cnt ≤ v.remainingMut → cnt ≤ rest.length →
      P ((v.copyIn (rest.take cnt)).setWriteOffset (v.encodeBuffer.writeOffset + cnt)) (rest.drop cnt))
    (hswap : ∀ v rest, P v rest → v.serError = none → v.remainingMut = 0 → rest ≠ [] →
      ∃ v', v.chainAndSwapLater = .ok v' ∧ P v' rest ∧ (v'.serError = none → 0 < v'.remainingMut))
    {fuel : Nat} {src : List UInt8} (h : P w src)
    (hf : src ≠ [] → src.length + (if w.remainingMut = 0 then 1 else 0) ≤ fuel) :
    ∃ w', putLoop fuel w src = .ok w' ∧ Q w' := by
  induction fuel generalizing w src with
  | zero =>
    cases src with
    | nil => exact ⟨w, rfl, hnil w h⟩
    | cons b src =>
      have := hf (List.cons_ne_nil _ _)
      simp at this
  | succ fuel ih =>
    by_cases hne : src = []
    · subst hne
      exact ⟨w, rfl, hnil w h⟩
    have hpos : 0 < src.length := List.length_pos_iff.mpr hne
    have hfuel := hf hne
    by_cases he : w.serError.isSome = true
    · obtain ⟨b, tail, rfl⟩ := List.exists_cons_of_ne_nil hne
      exact ⟨w, if_pos he, herror w _ h he⟩
    have he' : w.serError = none := by simpa using he
    rw [putLoop_succ he' hne]
    -- what is written here, and what is left
    generalize hcnt : min w.remainingMut src.length = cnt
    have hdrop : (src.drop cnt).length = src.length - cnt := List.length_drop
    have hround := hhere w src cnt h he' (by omega) (by omega)
    have hrem : ((w.copyIn (src.take cnt)).setWriteOffset (w.encodeBuffer.writeOffset + cnt)).remainingMut =
        w.remainingMut - cnt := by
      show w.encodeBuffer.buffer.len - (w.encodeBuffer.writeOffset + cnt) = _ - _ - _
      omega
    have herr₁ : ((w.copyIn (src.take cnt)).setWriteOffset (w.encodeBuffer.writeOffset + cnt)).serError = none := he'
    rw [advanceMut_copyIn (by omega) he']
    generalize (w.copyIn (src.take cnt)).setWriteOffset (w.encodeBuffer.writeOffset + cnt) = w₁ at *
    show ∃ w', (if w₁.remainingMut < (src.drop cnt).length then _ else _) = _ ∧ _
    split
    · -- the chunk is full: go on in the next one
      have hne₁ : src.drop cnt ≠ [] := List.ne_nil_of_length_pos (by omega)
      obtain ⟨w₂, hsw, hnext, hrem₂⟩ := hswap w₁ _ hround herr₁ (by omega) hne₁
      rw [hsw]
      by_cases herr₂ : w₂.serError = none
      · refine ih hnext fun _ => ?_
        have := hrem₂ herr₂
        rw [if_neg (by omega), hdrop]
        by_cases h0 : w.remainingMut = 0
        · rw [if_pos h0] at hfuel; omega
        · rw [if_neg h0] at hfuel; omega
      · have hsome : w₂.serError.isSome = true := Option.isSome_iff_ne_none.mpr herr₂
        obtain ⟨fuel', hfuel'⟩ : ∃ fuel', fuel = fuel' + 1 := by
          refine Nat.exists_eq_succ_of_ne_zero fun h0 => ?_
          by_cases h1 : w.remainingMut = 0
          · rw [if_pos h1] at hfuel; omega
          · rw [if_neg h1] at hfuel; omega
        refine ⟨w₂, ?_, herror w₂ _ hnext hsome⟩
        show BufferEncoder.putLoop fuel w₂ (src.drop cnt) = _
        rw [hfuel']
        cases src.drop cnt with
        | nil => rfl
        | cons b rest => exact if_pos hsome
    · refine ih hround fun hne' => ?_
      have := List.length_pos_iff.mpr hne'
      rw [if_neg (by omega), hdrop]
      by_cases h0 : w.remainingMut = 0
      · rw [if_pos h0] at hfuel; omega
      · rw [if_neg h0] at hfuel; omega

/-- The loop writes all it is given, or ends with an error. -/
theorem Inv.putLoop {fuel : Nat} {src : List UInt8} (h : w.Inv leases) (hc : 0 < w.encodeBuffer.bufferPool.chunkSize)
    (hf : src ≠ [] → src.length + (if w.remainingMut = 0 then 1 else 0) ≤ fuel) :
    ∃ w', putLoop fuel w src = .ok w' ∧ w.Wrote leases w' src := by
  refine putLoop_rule (P := fun v rest => ∃ done, done ++ rest = src ∧ w.Wrote leases v done)
    ?_ ?_ ?_ ?_ ⟨[], rfl, wrote_nil h⟩ hf
  · rintro v ⟨done, rfl, hv⟩
    rwa [List.append_nil]
  · rintro v rest ⟨done, rfl, hv⟩ he
    exact hv.trans (wrote_of_error hv.inv he)
  · rintro v rest cnt ⟨done, rfl, hv⟩ he hcnt hle
    have htake : (rest.take cnt).length = cnt := List.length_take_of_le hle
    have hwrote := hv.inv.writeHere (show (rest.take cnt).length ≤ _ by rw [htake]; exact hcnt) he
    rw [htake] at hwrote
    exact ⟨done ++ rest.take cnt, by rw [List.append_assoc, List.take_append_drop], hv.trans hwrote⟩
  · rintro v rest ⟨done, rfl, hv⟩ he - -
    obtain ⟨v', hswap, hnil, hzero, -⟩ := hv.inv.chainAndSwapLater he
    refine ⟨v', hswap, ⟨done, rfl, by simpa using hv.trans hnil⟩, fun he' => ?_⟩
    show 0 < v'.encodeBuffer.buffer.len - v'.encodeBuffer.writeOffset
    rw [(hzero he').1, hnil.inv.buffer.size, hnil.size, hv.size]
    exact hc

theorem putSlice_spec (h : w.Inv leases) (hc : 0 < w.encodeBuffer.bufferPool.chunkSize) (src : List UInt8) :
    ∃ w', w.putSlice src = .ok w' ∧ w.Wrote leases w' src := by
  refine h.putLoop hc (fun _ => ?_)
  split <;> omega

theorem put_spec (h : w.Inv leases) (hc : 0 < w.encodeBuffer.bufferPool.chunkSize) (chunks : List (List UInt8)) :
    ∃ w', w.put chunks = .ok w' ∧ w.Wrote leases w' chunks.flatten := by
  induction chunks generalizing w with
  | nil => exact ⟨w, rfl, wrote_nil h⟩
  | cons chunk chunks ih =>
    by_cases he : w.serError.isSome = true
    · exact ⟨w, if_pos he, wrote_of_error h he⟩
    obtain ⟨w₁, hp, hw₁⟩ := putSlice_spec h hc chunk
    obtain ⟨w', hrun, hw'⟩ := ih hw₁.inv (by rw [hw₁.size]; exact hc)
    refine ⟨w', ?_, by simpa using hw₁.trans hw'⟩
    rw [put, if_neg he, hp]
    exact hrun

/-- The padding needs another chunk, and there is none. -/
def padFails (w : BufferEncoder) (cnt : Nat) : Prop :=
  w.serError = none ∧ w.encodeBuffer.writeableLen < cnt ∧ w.encodeBuffer.bufferPool.getBuffer.1 = none

/-- Padding that does not fail counts some bytes as written. -/
theorem pad_spec (h : w.Inv leases) (hc : cnt ≤ w.encodeBuffer.bufferPool.chunkSize) (hok : ¬ w.padFails cnt) :
    ∃ w' junk, w.pad cnt = .ok w' ∧ junk.length = cnt ∧ w.Wrote leases w' junk := by
  by_cases he : w.serError.isSome = true
  · exact ⟨w, List.replicate cnt 0, if_pos he, List.length_replicate, wrote_of_error h he⟩
  have he' : w.serError = none := by simpa using he
  by_cases hrem : w.encodeBuffer.writeableLen < cnt
  swap
  · obtain ⟨hi, hw⟩ := h.setWriteOffset (n := cnt) (Nat.not_lt.mp hrem)
    refine ⟨_, _, ?_, Mem.length_bytes .., hi, fun _ => ⟨he', hw⟩, fun _ _ => rfl, rfl⟩
    rw [pad, advanceMut, if_neg he]
    exact if_neg hrem
  -- the first bytes are the last of this chunk, the others the first of the next one
  obtain ⟨hi, hw⟩ := h.setWriteOffset (n := w.encodeBuffer.writeableLen) (Nat.le_refl _)
  obtain ⟨w₁, hsw, hnil, hzero, hiff⟩ := hi.chainAndSwapLater he'
  have hsome : w.encodeBuffer.bufferPool.getBuffer.1.isSome = true := by
    rw [Option.isSome_iff_ne_none]
    exact fun hnone => hok ⟨he', hrem, hnone⟩
  have herr₁ : w₁.serError = none := hiff.mpr hsome
  obtain ⟨hwo, hro⟩ := hzero herr₁
  have hroom : cnt - w.encodeBuffer.writeableLen ≤ w₁.remainingMut := by
    unfold remainingMut EncodeBuffer.writeableLen
    rw [hwo, hnil.inv.buffer.size, hnil.size]
    show cnt - _ ≤ w.encodeBuffer.bufferPool.chunkSize - 0
    omega
  obtain ⟨hi', hw'⟩ := hnil.inv.setWriteOffset hroom
  rw [hwo, Nat.zero_add] at hi' hw'
  rw [(hnil.written herr₁).2, hw, List.append_nil, List.append_assoc] at hw'
  refine ⟨w₁.setWriteOffset (cnt - w.encodeBuffer.writeableLen), _, ?_, ?_, hi', fun _ => ⟨he', hw'⟩, hnil.kept,
    hnil.size⟩
  · rw [pad, advanceMut, if_neg he]
    simp only [if_pos hrem, hsw]
    rfl
  · rw [List.length_append, Mem.length_bytes, Mem.length_bytes]
    omega

/-- Padding that fails leaves the memory alone, and the encoder with an error. -/
theorem pad_fails (h : w.Inv leases) (hf : w.padFails cnt) :
    ∃ w', w.pad cnt = .ok w' ∧ w'.serError.isSome = true ∧ w'.mem = w.mem := by
  obtain ⟨he, hrem, hnone⟩ := hf
  obtain ⟨hi, -⟩ := h.setWriteOffset (n := w.encodeBuffer.writeableLen) (Nat.le_refl _)
  obtain ⟨r, w', hstep, -, hmem, -, -, -, -, hcase⟩ := hi.chainAndSwap
  have hne : ¬ w.serError.isSome = true := by rw [he]; decide
  rcases hcase with ⟨hsome, -, -⟩ | ⟨-, err, rfl⟩
  · refine absurd hsome ?_
    show ¬ w.encodeBuffer.bufferPool.getBuffer.1.isSome = true
    rw [hnone]
    decide
  · refine ⟨setWriteOffset { w' with serError := some err } (cnt - w.encodeBuffer.writeableLen), ?_, rfl, hmem⟩
    rw [pad, advanceMut, if_neg hne]
    simp only [if_pos hrem, chainAndSwapLater, hstep]
    rfl

theorem tryReserve_spec (h : w.Inv leases) (size : Nat) :
    ∃ r w', w.tryReserve size = .ok (r, w') ∧ w.Wrote leases w' [] ∧ w'.serError = w.serError := by
  unfold BufferEncoder.tryReserve
  simp only
  split
  · exact ⟨_, w, rfl, wrote_nil h, rfl⟩
  split
  · obtain ⟨r, w', hstep, hinv, hmem, herr, hwr, -, hsize, -⟩ := h.chainAndSwap
    exact ⟨r, w', hstep, ⟨hinv, fun hn => ⟨herr ▸ hn, by rw [hwr, List.append_nil]⟩, fun l _ => by rw [hmem], hsize⟩,
      herr⟩
  · have hs := h.buffer.sound.tryReserve (size - (w.encodeBuffer.buffer.len - w.encodeBuffer.writeOffset))
    refine ⟨_, _, rfl, ⟨⟨⟨h.buffer.offsets, h.buffer.bound, h.buffer.active, hs.1, fun l hl => ?_⟩, h.chain_own⟩,
      fun hn => ⟨hn, (List.append_nil _).symm⟩, fun _ _ => rfl, hs.2⟩, rfl⟩
    exact ⟨(h.buffer.held l hl).locked, (h.buffer.held l hl).below⟩

/-- An aligned buffer gives an encoder, or the error of a swap that failed. -/
theorem getBufferEncoder_spec {e : EncodeBuffer} (h : e.Inv leases) (ha : e.readOffset = e.writeOffset) (m : Mem) :
    (∃ e', e.getBufferEncoder m = .ok (.ok ⟨m, e', none, none⟩) ∧ e'.Inv leases ∧ e'.readOffset = e'.writeOffset ∧
      e'.bufferPool.chunkSize = e.bufferPool.chunkSize) ∨
    ∃ err, e.getBufferEncoder m = .ok (.error (err, e)) := by
  unfold EncodeBuffer.getBufferEncoder
  by_cases hlow : e.writeableLen < e.minRemaining
  · rw [if_pos hlow]
    rcases h.swapBuffer with ⟨-, hok, hi, hwo, hro, hsize⟩ | ⟨-, ⟨err, herr⟩, heq⟩
    · generalize e.swapBuffer = r at *
      obtain ⟨r, e'⟩ := r
      simp only at *
      subst hok
      have hnew : BufferEncoder.new m e' = .ok ⟨m, e', none, none⟩ := if_pos (hwo.trans hro.symm)
      refine .inl ⟨e', ?_, hi, hro.trans hwo.symm, hsize⟩
      simp only [hnew]
      rfl
    · generalize e.swapBuffer = r at *
      obtain ⟨r, e'⟩ := r
      simp only at *
      subst herr heq
      exact .inr ⟨err, rfl⟩
  · have hnew : BufferEncoder.new m e = .ok ⟨m, e, none, none⟩ := if_pos ha.symm
    refine .inl ⟨e, ?_, h, ha, rfl⟩
    rw [if_neg hlow, hnew]
    rfl

/-- An error is returned once. Otherwise all that was written becomes a lease,
if there is anything. -/
theorem getChunkLease_spec (h : w.Inv leases) :
    (∃ err w', w.getChunkLease = .ok (.error err, w') ∧ w'.Inv leases ∧ w'.mem = w.mem ∧ w'.serError = none ∧
      w'.encodeBuffer.bufferPool.chunkSize = w.encodeBuffer.bufferPool.chunkSize) ∨
    ∃ l w', w.getChunkLease = .ok (.ok l, w') ∧ w.serError = none ∧ w'.Inv (l :: leases) ∧ w'.mem = w.mem ∧
      w'.serError = none ∧ w'.chainHead = none ∧ l.Own leases ∧ l.bytes w'.mem = w.written ∧
      w'.encodeBuffer.readOffset = w'.encodeBuffer.writeOffset ∧
      w'.encodeBuffer.bufferPool.chunkSize = w.encodeBuffer.bufferPool.chunkSize := by
  obtain ⟨m, e, chainHead, serError⟩ := w
  cases serError with
  | some err => exact .inl ⟨err, _, rfl, ⟨h.buffer, h.chain_own⟩, rfl, rfl, rfl⟩
  | none =>
  have hown := h.chain_own
  rcases h.buffer.getChunkLease with ⟨hoff, hget⟩ | ⟨l, e', hget, hinv, hl, hbs, hro, hwo, -, hpool, -⟩
  · -- nothing in the active chunk
    have hactive : e.activeBytes m = [] := by
      rw [EncodeBuffer.activeBytes, hoff, Nat.sub_self, Mem.bytes_zero]
    cases chainHead with
    | none =>
      refine .inl ⟨.invalidData "No data written", ⟨m, e, none, none⟩, ?_, h, rfl, rfl, rfl⟩
      simp only [BufferEncoder.getChunkLease, hget]
      rfl
    | some c =>
      refine .inr ⟨c, ⟨m, e, none, none⟩, ?_, rfl, ⟨h.buffer, (fun l hl => by cases hl)⟩, rfl, rfl, rfl,
        hown c rfl, ?_, hoff, rfl⟩
      · simp only [BufferEncoder.getChunkLease, hget]
        rfl
      · show c.bytes m = c.bytes m ++ e.activeBytes m
        rw [hactive, List.append_nil]
  · have hsize : e'.bufferPool.chunkSize = e.bufferPool.chunkSize := by rw [hpool]
    have hal : e'.readOffset = e'.writeOffset := hro.trans hwo.symm
    cases chainHead with
    | none =>
      refine .inr ⟨l, ⟨m, e', none, none⟩, ?_, rfl, ⟨hinv, (fun l hl => by cases hl)⟩, rfl, rfl, rfl, hl, hbs m,
        hal, hsize⟩
      simp only [BufferEncoder.getChunkLease, hget]
      rfl
    | some c =>
      -- as if the lease had been put on the chain
      have hch := Inv.chainLease (w := ⟨m, e', some c, none⟩) hinv hown hl
      refine .inr ⟨c.appendToChain l, ⟨m, e', none, none⟩, ?_, rfl, ⟨hch.1.buffer, (fun l hl => by cases hl)⟩, rfl, rfl,
        rfl, hch.1.chain_own _ rfl, ?_, hal, hsize⟩
      · simp only [BufferEncoder.getChunkLease, hget]
        rfl
      · rw [ChunkLease.bytes_appendToChain]
        exact congrArg (c.bytes m ++ ·) (hbs m)

end BufferEncoder

end Kompact
