import Kompact.Buffers.EncodeBuffer

/-!
# Isolation of leases

An encode buffer over many encodings: encoders come and go, leases are taken
from them, shared and dropped, and with its last lock a chunk may be used
again. Everything the buffer may still write is apart from the leases that are
live (`Encoding.Isolated`), in every run in which no padding fails
(`leases_isolated`).

Where the padding of a head needs a second chunk and the pool has none, the
write offset goes back to the start of the chunk, whose bytes are leased
(`not_isolated_pad`).
-/

namespace Kompact

namespace EncodeBuffer

/-- Change the chunks of the buffer. -/
def mapChunks (f : BufferChunk → BufferChunk) (e : EncodeBuffer) : EncodeBuffer :=
  { e with buffer := f e.buffer, bufferPool := { e.bufferPool with pool := e.bufferPool.pool.map f } }

/-- A lease is dropped, and with it its locks. -/
def dropLocks (e : EncodeBuffer) (locks : List ChunkId) : EncodeBuffer :=
  locks.foldl (fun e c => e.mapChunks (.dropLock c)) e

/-- A reference is cloned, and with it its locks. -/
def cloneLocks (e : EncodeBuffer) (locks : List ChunkId) : EncodeBuffer :=
  locks.foldl (fun e c => e.mapChunks (.cloneLock c)) e

end EncodeBuffer

/-- An encode buffer in use. `encoder` is its encoder while one is alive, and
has neither a chain nor an error otherwise. -/
structure Encoding where
  encoder : BufferEncoder
  isOpen : Bool
  /-- The leases and references that were taken and not dropped yet. -/
  leases : List ChunkLease

namespace Encoding

inductive Action where
  | getBufferEncoder
  | put (chunks : List (List UInt8))
  | putSlice (src : List UInt8)
  /-- Padding for a frame head. -/
  | pad
  | tryReserve (size : Nat)
  | getChunkLease
  | dropEncoder
  /-- The `k`-th lease is dropped. -/
  | dropLease (k : Nat)
  /-- The `k`-th lease, as a reference, is cloned. -/
  | cloneRef (k : Nat)
  deriving DecidableEq, Repr

def withConfig (cfg : PoolConfig) (m : Mem) : Panics Encoding := do
  let e ← EncodeBuffer.withConfig cfg
  return { encoder := ⟨m, e, none, none⟩, isOpen := false, leases := [] }

/-- The rest of a step of the encoder; a panic ends the run. -/
def andThen {α : Type} (r : Panics α) (f : α → Encoding) : Option Encoding :=
  match r with
  | .ok a => some (f a)
  | .error _ => none

/-- Align the buffer, and drop the chain. -/
def closeEncoder (w : BufferEncoder) : BufferEncoder where
  mem := w.mem
  encodeBuffer :=
    { w.encodeBuffer with readOffset := w.encodeBuffer.writeOffset }.dropLocks
      (w.chainHead.elim [] ChunkLease.locks)
  chainHead := none
  serError := none

def step (s : Encoding) : Action → Option Encoding
  | .getBufferEncoder =>
    if s.isOpen then none
    else andThen (s.encoder.encodeBuffer.getBufferEncoder s.encoder.mem) fun
      | .ok w => { s with encoder := w, isOpen := true }
      | .error (_, e) => { s with encoder := { s.encoder with encodeBuffer := e } }
  | .put chunks => if s.isOpen then andThen (s.encoder.put chunks) fun w => { s with encoder := w } else none
  | .putSlice src => if s.isOpen then andThen (s.encoder.putSlice src) fun w => { s with encoder := w } else none
  | .pad => if s.isOpen then andThen (s.encoder.pad frameHeadLen) fun w => { s with encoder := w } else none
  | .tryReserve size =>
    if s.isOpen then andThen (s.encoder.tryReserve size) fun (_, w) => { s with encoder := w } else none
  | .getChunkLease =>
    if s.isOpen then andThen s.encoder.getChunkLease fun
      | (.ok lease, w) => { s with encoder := w, leases := lease :: s.leases }
      | (.error _, w) => { s with encoder := w }
    else none
  | .dropEncoder => if s.isOpen then some { s with encoder := closeEncoder s.encoder, isOpen := false } else none
  | .dropLease k =>
    match s.leases[k]? with
    | some l => some { s with
        encoder := { s.encoder with encodeBuffer := s.encoder.encodeBuffer.dropLocks l.locks }
        leases := s.leases.eraseIdx k }
    | none => none
  | .cloneRef k =>
    match s.leases[k]? with
    | some l => some { s with
        encoder := { s.encoder with encodeBuffer := s.encoder.encodeBuffer.cloneLocks l.locks }
        leases := l :: s.leases }
    | none => none

/-- The offsets are in order, and what may still be written, in the active
chunk or in one the pool hands out, is apart from every lease. -/
structure Isolated (s : Encoding) : Prop where
  offsets : s.encoder.encodeBuffer.readOffset ≤ s.encoder.encodeBuffer.writeOffset
  bound : s.encoder.encodeBuffer.writeOffset ≤ s.encoder.encodeBuffer.buffer.len
  active : ∀ l ∈ s.encoder.live s.leases, ∀ sl ∈ l.slices, sl.chunk = s.encoder.encodeBuffer.buffer.chunk →
    sl.off + sl.len ≤ s.encoder.encodeBuffer.writeOffset
  pool : ∀ b, s.encoder.encodeBuffer.bufferPool.getBuffer.1 = some b → ∀ l ∈ s.encoder.live s.leases,
    ∀ sl ∈ l.slices, sl.chunk ≠ b.chunk

/-- A padding in this step does not fail. -/
def PadFits (s : Encoding) (a : Action) : Prop := a = .pad → ¬ s.encoder.padFails frameHeadLen

instance (w : BufferEncoder) (cnt : Nat) : Decidable (w.padFails cnt) := inferInstanceAs (Decidable (_ ∧ _ ∧ _))

instance (s : Encoding) (a : Action) : Decidable (s.PadFits a) := inferInstanceAs (Decidable (_ → _))

end Encoding

/-! ## Locks that come and go -/

/-- A change of reference counts after which the locks are `locks'`. -/
structure Recounts (f : BufferChunk → BufferChunk) (locks locks' : List ChunkId) : Prop where
  chunk : ∀ b, (f b).chunk = b.chunk
  len : ∀ b, (f b).len = b.len
  locked : ∀ b, (f b).locked = b.locked
  subset : ∀ c ∈ locks', c ∈ locks
  counted : ∀ b, b.refCount = 1 + locks.count b.chunk → (f b).refCount = 1 + locks'.count b.chunk

theorem recounts_dropLock (c : ChunkId) (locks : List ChunkId) : Recounts (.dropLock c) (c :: locks) locks := by
  refine ⟨fun b => ?_, fun b => ?_, fun b => ?_, fun x hx => List.mem_cons_of_mem _ hx, fun b hb => ?_⟩
  · unfold BufferChunk.dropLock; split <;> rfl
  · unfold BufferChunk.dropLock; split <;> rfl
  · unfold BufferChunk.dropLock; split <;> rfl
  · unfold BufferChunk.dropLock
    by_cases hc : b.chunk = c
    · rw [hc, List.count_cons_self] at hb
      rw [if_pos ⟨hc, by omega⟩, hc]
      show b.refCount - 1 = _
      omega
    · rw [List.count_cons_of_ne (Ne.symm hc)] at hb
      rw [if_neg (fun h => hc h.1)]
      exact hb

theorem recounts_cloneLock {c : ChunkId} {locks : List ChunkId} (hm : c ∈ locks) :
    Recounts (.cloneLock c) locks (c :: locks) := by
  refine ⟨fun b => ?_, fun b => ?_, fun b => ?_, fun x hx => ?_, fun b hb => ?_⟩
  · unfold BufferChunk.cloneLock; split <;> rfl
  · unfold BufferChunk.cloneLock; split <;> rfl
  · unfold BufferChunk.cloneLock; split <;> rfl
  · rcases List.mem_cons.mp hx with rfl | hx
    · exact hm
    · exact hx
  · unfold BufferChunk.cloneLock
    by_cases hc : b.chunk = c
    · rw [if_pos hc, hc, List.count_cons_self]
      rw [hc] at hb
      show b.refCount + 1 = _
      omega
    · rw [if_neg hc, List.count_cons_of_ne (Ne.symm hc)]
      exact hb

theorem Ledger.recount {chunks : List BufferChunk} {next len : Nat} {locks locks' : List ChunkId}
    {f : BufferChunk → BufferChunk} (h : Ledger chunks next len locks) (hf : Recounts f locks locks') :
    Ledger (chunks.map f) next len locks' where
  nodup := by
    rw [List.map_map, show BufferChunk.chunk ∘ f = BufferChunk.chunk from funext hf.chunk]
    exact h.nodup
  fresh b hb := by
    obtain ⟨b₀, hb₀, rfl⟩ := List.mem_map.mp hb
    rw [hf.chunk]
    exact h.fresh b₀ hb₀
  old c hc := h.old c (hf.subset c hc)
  counted b hb := by
    obtain ⟨b₀, hb₀, rfl⟩ := List.mem_map.mp hb
    rw [hf.chunk]
    exact hf.counted b₀ (h.counted b₀ hb₀)
  size b hb := by
    obtain ⟨b₀, hb₀, rfl⟩ := List.mem_map.mp hb
    rw [hf.len]
    exact h.size b₀ hb₀

namespace EncodeBuffer

variable {e e' : EncodeBuffer} {leases leases' : List ChunkLease}

/-- The same buffer up to its reference counts, with the locks `locks'`. -/
structure Recounted (e : EncodeBuffer) (locks' : List ChunkId) (e' : EncodeBuffer) : Prop where
  chunk : e'.buffer.chunk = e.buffer.chunk
  len : e'.buffer.len = e.buffer.len
  locked : e'.buffer.locked = e.buffer.locked
  sound : e'.bufferPool.Sound [e'.buffer] locks'
  writeOffset : e'.writeOffset = e.writeOffset
  readOffset : e'.readOffset = e.readOffset
  chunkSize : e'.bufferPool.chunkSize = e.bufferPool.chunkSize

theorem recounted_mapChunks {f : BufferChunk → BufferChunk} {locks locks' : List ChunkId}
    (h : e.bufferPool.Sound [e.buffer] locks) (hf : Recounts f locks locks') :
    e.Recounted locks' (e.mapChunks f) where
  chunk := hf.chunk e.buffer
  len := hf.len e.buffer
  locked := hf.locked e.buffer
  sound := by
    refine ⟨?_, fun b hb hu hm => ?_⟩
    · have hl := h.ledger.recount hf
      rwa [List.map_append] at hl
    · obtain ⟨b₀, hb₀, rfl⟩ := List.mem_map.mp hb
      rw [hf.locked] at hu
      rw [hf.chunk] at hm
      exact h.idle b₀ hb₀ hu (hf.subset _ hm)
  writeOffset := rfl
  readOffset := rfl
  chunkSize := rfl

theorem Recounted.trans {e'' : EncodeBuffer} {locks locks' : List ChunkId} (h : e.Recounted locks e')
    (h' : e'.Recounted locks' e'') : e.Recounted locks' e'' where
  chunk := h'.chunk.trans h.chunk
  len := h'.len.trans h.len
  locked := h'.locked.trans h.locked
  sound := h'.sound
  writeOffset := h'.writeOffset.trans h.writeOffset
  readOffset := h'.readOffset.trans h.readOffset
  chunkSize := h'.chunkSize.trans h.chunkSize

theorem recounted_dropLocks {ds locks : List ChunkId} (h : e.bufferPool.Sound [e.buffer] (ds ++ locks)) :
    e.Recounted locks (e.dropLocks ds) := by
  induction ds generalizing e with
  | nil => exact ⟨rfl, rfl, rfl, h, rfl, rfl, rfl⟩
  | cons c ds ih =>
    have h₁ := recounted_mapChunks h (recounts_dropLock c (ds ++ locks))
    exact h₁.trans (ih h₁.sound)

theorem recounted_cloneLocks {cs locks : List ChunkId} (h : e.bufferPool.Sound [e.buffer] locks)
    (hm : ∀ c ∈ cs, c ∈ locks) : e.Recounted (cs.reverse ++ locks) (e.cloneLocks cs) := by
  induction cs generalizing e locks with
  | nil => exact ⟨rfl, rfl, rfl, h, rfl, rfl, rfl⟩
  | cons c cs ih =>
    have h₁ := recounted_mapChunks h (recounts_cloneLock (hm c (List.mem_cons_self ..)))
    have h₂ := ih h₁.sound (fun x hx => List.mem_cons_of_mem _ (hm x (List.mem_cons_of_mem _ hx)))
    rw [List.reverse_cons, List.append_assoc]
    exact h₁.trans h₂

/-- The invariant, for leases with these locks that are below the read offset. -/
theorem Inv.recounted (h : e.Inv leases) (hr : e.Recounted (locksOf leases') e')
    (hl : ∀ l ∈ leases', l ∈ leases) : e'.Inv leases' where
  offsets := by rw [hr.readOffset, hr.writeOffset]; exact h.offsets
  bound := by rw [hr.writeOffset, hr.len]; exact h.bound
  active := by rw [hr.locked]; exact h.active
  sound := hr.sound
  held l hm := by
    have hh := h.held l (hl l hm)
    exact ⟨hh.locked, by rw [hr.chunk, hr.readOffset]; exact hh.below⟩

/-- A lease is dropped. -/
theorem Inv.dropLocks {l : ChunkLease} (h : e.Inv (l :: leases)) :
    (e.dropLocks l.locks).Inv leases ∧ e.Recounted (locksOf leases) (e.dropLocks l.locks) := by
  have hr : e.Recounted (locksOf leases) (e.dropLocks l.locks) := recounted_dropLocks h.sound
  exact ⟨h.recounted hr (fun x hx => List.mem_cons_of_mem _ hx), hr⟩

/-- A lease is cloned. -/
theorem Inv.cloneLocks {l : ChunkLease} (h : e.Inv leases) (hl : l ∈ leases) :
    (e.cloneLocks l.locks).Inv (l :: leases) ∧ e.Recounted (locksOf (l :: leases)) (e.cloneLocks l.locks) := by
  have hc := recounted_cloneLocks h.sound (fun c hc => List.mem_flatMap.mpr ⟨l, hl, hc⟩)
  have hp : (l.locks.reverse ++ locksOf leases).Perm (locksOf (l :: leases)) :=
    (List.reverse_perm l.locks).append_right _
  have hs : (e.cloneLocks l.locks).bufferPool.Sound [(e.cloneLocks l.locks).buffer] (locksOf (l :: leases)) :=
    ⟨hc.sound.ledger.permLocks hp, fun b hb hu hm => hc.sound.idle b hb hu (hp.mem_iff.mpr hm)⟩
  have hr : e.Recounted (locksOf (l :: leases)) (e.cloneLocks l.locks) :=
    ⟨hc.chunk, hc.len, hc.locked, hs, hc.writeOffset, hc.readOffset, hc.chunkSize⟩
  refine ⟨h.recounted hr fun x hx => ?_, hr⟩
  rcases List.mem_cons.mp hx with rfl | hx
  · exact hl
  · exact hx

end EncodeBuffer

namespace Encoding

variable {s s' : Encoding} {a : Action}

/-- The invariant of an encode buffer in use. -/
structure Inv (s : Encoding) : Prop where
  encoder : s.encoder.Inv s.leases
  roomy : 128 ≤ s.encoder.encodeBuffer.bufferPool.chunkSize
  closed : s.isOpen = false → s.encoder.chainHead = none ∧ s.encoder.serError = none ∧
    s.encoder.encodeBuffer.readOffset = s.encoder.encodeBuffer.writeOffset

theorem Inv.isolated (h : s.Inv) : s.Isolated where
  offsets := h.encoder.buffer.offsets
  bound := h.encoder.buffer.bound
  active l hl sl hsl hc := ((h.encoder.buffer.held l hl).below sl hsl hc).trans h.encoder.buffer.offsets
  pool b hb l hl sl hsl hc := by
    have hnot := (h.encoder.buffer.sound.tryReclaim hb).2.2.1
    exact hnot (hc ▸ h.encoder.buffer.mem_locksOf hl hsl)

/-- The leases that live on have the same bytes. -/
def Keeps (s s' : Encoding) : Prop := ∀ l ∈ s.leases, l.bytes s'.encoder.mem = l.bytes s.encoder.mem

/-- A step that writes, or reserves. -/
theorem Inv.wrote {w : BufferEncoder} {bs : List UInt8} (h : s.Inv) (hw : s.encoder.Wrote s.leases w bs)
    (ho : s.isOpen = true) : Inv { s with encoder := w } ∧ s.Keeps { s with encoder := w } := by
  refine ⟨⟨hw.inv, ?_, fun hc => ?_⟩, hw.kept⟩
  · show 128 ≤ w.encodeBuffer.bufferPool.chunkSize
    rw [hw.size]
    exact h.roomy
  · rw [show s.isOpen = false from hc] at ho
    cases ho

/-- A new encoder finds the buffer aligned. -/
theorem Inv.getBufferEncoder (h : s.Inv) (hc : s.isOpen = false)
    (hs : s.step .getBufferEncoder = some s') : s'.Inv ∧ s.Keeps s' := by
  obtain ⟨hch, her, hal⟩ := h.closed hc
  have hlive : s.encoder.live s.leases = s.leases := by rw [BufferEncoder.live, hch]; rfl
  have hinv : s.encoder.encodeBuffer.Inv s.leases := hlive ▸ h.encoder.buffer
  simp only [step, hc, Bool.false_eq_true, if_false] at hs
  rcases BufferEncoder.getBufferEncoder_spec hinv hal s.encoder.mem with ⟨e, hget, hi, -, hsize⟩ | ⟨err, hget⟩
  · rw [hget] at hs
    obtain rfl := Option.some.inj hs
    exact ⟨⟨⟨hi, (fun l hl => by cases hl)⟩, hsize ▸ h.roomy, (fun hf => by cases hf)⟩, fun _ _ => rfl⟩
  · rw [hget] at hs
    obtain rfl := Option.some.inj hs
    exact ⟨⟨h.encoder, h.roomy, fun _ => ⟨hch, her, hal⟩⟩, fun _ _ => rfl⟩

theorem Inv.getChunkLease (h : s.Inv) (ho : s.isOpen = true) (hs : s.step .getChunkLease = some s') :
    s'.Inv ∧ s.Keeps s' := by
  simp only [step, if_pos ho] at hs
  have hopen : ∀ {P : Prop}, s.isOpen = false → P := fun hc => by rw [hc] at ho; cases ho
  rcases BufferEncoder.getChunkLease_spec h.encoder with
    ⟨err, w, hget, hinv, hmem, -, hsize⟩ | ⟨l, w, hget, -, hinv, hmem, -, -, -, -, -, hsize⟩
  · rw [hget] at hs
    obtain rfl := Option.some.inj hs
    exact ⟨⟨hinv, hsize ▸ h.roomy, hopen⟩, fun l _ => congrArg l.bytes hmem⟩
  · rw [hget] at hs
    obtain rfl := Option.some.inj hs
    exact ⟨⟨hinv, hsize ▸ h.roomy, hopen⟩, fun l _ => congrArg l.bytes hmem⟩

/-- The encoder is dropped, with the chain it has. -/
theorem Inv.closeEncoder (h : s.Inv) :
    Inv { s with encoder := closeEncoder s.encoder, isOpen := false } := by
  have hb := h.encoder.buffer
  -- the buffer is aligned first
  have hal : EncodeBuffer.Inv { s.encoder.encodeBuffer with readOffset := s.encoder.encodeBuffer.writeOffset }
      (s.encoder.live s.leases) := by
    refine ⟨Nat.le_refl _, hb.bound, hb.active, hb.sound, fun l hl => ?_⟩
    exact ⟨(hb.held l hl).locked, (hb.held l hl).below.mono hb.offsets⟩
  unfold Encoding.closeEncoder
  cases hc : s.encoder.chainHead with
  | none =>
    rw [BufferEncoder.live, hc] at hal
    exact ⟨⟨hal, (fun l hl => by cases hl)⟩, h.roomy, fun _ => ⟨rfl, rfl, rfl⟩⟩
  | some c =>
    rw [BufferEncoder.live, hc] at hal
    obtain ⟨hi, hr⟩ := (show EncodeBuffer.Inv _ (c :: s.leases) from hal).dropLocks
    refine ⟨⟨hi, (fun l hl => by cases hl)⟩, ?_, fun _ => ⟨rfl, rfl, ?_⟩⟩
    · show 128 ≤ (EncodeBuffer.dropLocks _ c.locks).bufferPool.chunkSize
      rw [hr.chunkSize]
      exact h.roomy
    · exact hr.readOffset.trans hr.writeOffset.symm

/-- A change of the locks, for some of the leases. -/
theorem Inv.recounted {e : EncodeBuffer} {leases : List ChunkLease} {locks : List ChunkId} (h : s.Inv)
    (hi : e.Inv (s.encoder.live leases)) (hr : s.encoder.encodeBuffer.Recounted locks e)
    (hsub : ∀ l ∈ leases, l ∈ s.leases) : Inv { s with encoder := { s.encoder with encodeBuffer := e }, leases } := by
  refine ⟨⟨hi, fun c hc => ?_⟩, ?_, fun hc => ?_⟩
  · have ho := h.encoder.chain_own c hc
    exact ⟨ho.wf, ho.unread, ho.scattered, fun l hl => ho.apart l (hsub l hl)⟩
  · show 128 ≤ e.bufferPool.chunkSize
    rw [hr.chunkSize]
    exact h.roomy
  · obtain ⟨hch, her, hal⟩ := h.closed hc
    exact ⟨hch, her, by show e.readOffset = e.writeOffset; rw [hr.readOffset, hr.writeOffset]; exact hal⟩

theorem Inv.dropLease {k : Nat} (h : s.Inv) (hs : s.step (.dropLease k) = some s') : s'.Inv ∧ s.Keeps s' := by
  simp only [step] at hs
  cases hl : s.leases[k]? with
  | none => rw [hl] at hs; cases hs
  | some l =>
    rw [hl] at hs
    obtain rfl := Option.some.inj hs
    obtain ⟨hk, rfl⟩ := List.getElem?_eq_some_iff.mp hl
    have hp : (s.encoder.live s.leases).Perm (s.leases[k] :: s.encoder.live (s.leases.eraseIdx k)) :=
      ((List.getElem_cons_eraseIdx_perm hk).symm.append_left _).trans List.perm_middle
    obtain ⟨hi, hr⟩ := (h.encoder.buffer.perm hp).dropLocks
    exact ⟨h.recounted hi hr fun l hl => List.mem_of_mem_eraseIdx hl, fun _ _ => rfl⟩

theorem Inv.cloneRef {k : Nat} (h : s.Inv) (hs : s.step (.cloneRef k) = some s') : s'.Inv ∧ s.Keeps s' := by
  simp only [step] at hs
  cases hl : s.leases[k]? with
  | none => rw [hl] at hs; cases hs
  | some l =>
    rw [hl] at hs
    obtain rfl := Option.some.inj hs
    have hm : l ∈ s.encoder.live s.leases := List.mem_append_right _ (List.mem_of_getElem? hl)
    obtain ⟨hi, hr⟩ := h.encoder.buffer.cloneLocks hm
    have hp : (l :: s.encoder.live s.leases).Perm (s.encoder.live (l :: s.leases)) := List.perm_middle.symm
    refine ⟨h.recounted (hi.perm hp) hr fun x hx => ?_, fun _ _ => rfl⟩
    rcases List.mem_cons.mp hx with rfl | hx
    · exact List.mem_of_getElem? hl
    · exact hx

/-- A step keeps the invariant unless a padding fails, and always the bytes of
the leases. -/
theorem Inv.step (h : s.Inv) (hs : s.step a = some s') : (s.PadFits a → s'.Inv) ∧ s.Keeps s' := by
  have hpos : 0 < s.encoder.encodeBuffer.bufferPool.chunkSize := Nat.lt_of_lt_of_le (by decide) h.roomy
  cases ho : s.isOpen with
  | false =>
    have hno : ¬ s.isOpen = true := by rw [ho]; decide
    cases a with
    | getBufferEncoder =>
      obtain ⟨hi, hk⟩ := h.getBufferEncoder ho hs
      exact ⟨fun _ => hi, hk⟩
    | dropLease k =>
      obtain ⟨hi, hk⟩ := h.dropLease hs
      exact ⟨fun _ => hi, hk⟩
    | cloneRef k =>
      obtain ⟨hi, hk⟩ := h.cloneRef hs
      exact ⟨fun _ => hi, hk⟩
    | put | putSlice | pad | tryReserve | getChunkLease | dropEncoder =>
      simp only [Encoding.step, if_neg hno] at hs
      cases hs
  | true =>
    cases a with
    | getBufferEncoder =>
      simp only [Encoding.step, if_pos ho] at hs
      cases hs
    | put chunks =>
      obtain ⟨w, hput, hw⟩ := BufferEncoder.put_spec h.encoder hpos chunks
      simp only [Encoding.step, if_pos ho, hput] at hs
      obtain rfl := Option.some.inj hs
      exact ⟨fun _ => (h.wrote hw ho).1, hw.kept⟩
    | putSlice src =>
      obtain ⟨w, hput, hw⟩ := BufferEncoder.putSlice_spec h.encoder hpos src
      simp only [Encoding.step, if_pos ho, hput] at hs
      obtain rfl := Option.some.inj hs
      exact ⟨fun _ => (h.wrote hw ho).1, hw.kept⟩
    | pad =>
      by_cases hf : s.encoder.padFails frameHeadLen
      · obtain ⟨w, hpad, -, hmem⟩ := BufferEncoder.pad_fails h.encoder hf
        simp only [Encoding.step, if_pos ho, hpad] at hs
        obtain rfl := Option.some.inj hs
        exact ⟨fun hok => absurd hf (hok rfl), fun l _ => congrArg l.bytes hmem⟩
      · have hroom : frameHeadLen ≤ s.encoder.encodeBuffer.bufferPool.chunkSize :=
          Nat.le_trans (by decide) h.roomy
        obtain ⟨w, junk, hpad, -, hw⟩ := BufferEncoder.pad_spec h.encoder hroom hf
        simp only [Encoding.step, if_pos ho, hpad] at hs
        obtain rfl := Option.some.inj hs
        exact ⟨fun _ => (h.wrote hw ho).1, hw.kept⟩
    | tryReserve size =>
      obtain ⟨r, w, hres, hw, -⟩ := BufferEncoder.tryReserve_spec h.encoder size
      simp only [Encoding.step, if_pos ho, hres] at hs
      obtain rfl := Option.some.inj hs
      exact ⟨fun _ => (h.wrote hw ho).1, hw.kept⟩
    | getChunkLease =>
      obtain ⟨hi, hk⟩ := h.getChunkLease ho hs
      exact ⟨fun _ => hi, hk⟩
    | dropEncoder =>
      simp only [Encoding.step, if_pos ho] at hs
      obtain rfl := Option.some.inj hs
      exact ⟨fun _ => h.closeEncoder, fun _ _ => rfl⟩
    | dropLease k =>
      obtain ⟨hi, hk⟩ := h.dropLease hs
      exact ⟨fun _ => hi, hk⟩
    | cloneRef k =>
      obtain ⟨hi, hk⟩ := h.cloneRef hs
      exact ⟨fun _ => hi, hk⟩

end Encoding

theorem ledger_firstChunks (len n : Nat) : Ledger (BufferPool.firstChunks len n) (n + 1) len [] := by
  induction n with
  | zero => exact ⟨List.nodup_nil, (fun b hb => by cases hb), (fun c hc => by cases hc), (fun b hb => by cases hb),
      (fun b hb => by cases hb)⟩
  | succ n ih => exact ih.allocate

theorem BufferPool.sound_withConfig {cfg : PoolConfig} {p : BufferPool} (h : withConfig cfg = .ok p) :
    p.Sound [] [] ∧ p.chunkSize = cfg.chunkSize ∧ 128 ≤ cfg.chunkSize := by
  obtain ⟨hv, rfl⟩ := withConfig_ok h
  exact ⟨⟨ledger_firstChunks .., (fun b _ _ hm => by cases hm)⟩, rfl, (PoolConfig.of_validate hv).2⟩

theorem Encoding.inv_withConfig {cfg : PoolConfig} {m : Mem} {s : Encoding} (h : withConfig cfg m = .ok s) :
    s.Inv := by
  unfold withConfig EncodeBuffer.withConfig at h
  cases hp : BufferPool.withConfig cfg with
  | error err => rw [hp] at h; cases h
  | ok p =>
    obtain ⟨hsound, hsize, hmin⟩ := BufferPool.sound_withConfig hp
    simp only [hp, bind, Except.bind, BufferPool.getBuffer] at h
    have hget := fun b hb => hsound.tryReclaim (b := b) hb
    generalize p.tryReclaim = t at *
    obtain ⟨o, p'⟩ := t
    cases o with
    | none => cases h
    | some b =>
      obtain ⟨hs, hun, -, hsize'⟩ := hget b rfl
      obtain rfl := Except.ok.inj h
      refine ⟨⟨⟨Nat.le_refl _, Nat.zero_le _, hun, hs, (fun l hl => by cases hl)⟩, (fun l hl => by cases hl)⟩, ?_,
        fun _ => ⟨rfl, rfl, rfl⟩⟩
      show 128 ≤ p'.chunkSize
      rw [hsize', hsize]
      exact hmin

/-- In every run in which no padding fails what may be written is apart from
all leases, and no step changes the bytes of a lease. -/
theorem leases_isolated {cfg : PoolConfig} {m : Mem} {s₀ s : Encoding} (h₀ : Encoding.withConfig cfg m = .ok s₀)
    (h : Reach Encoding.step Encoding.PadFits s₀ s) :
    s.Isolated ∧ ∀ a s', s.step a = some s' → ∀ l ∈ s.leases, l.bytes s'.encoder.mem = l.bytes s.encoder.mem := by
  have hinv : s.Inv := h.invariant Encoding.Inv (Encoding.inv_withConfig h₀) fun hi hok hs => (hi.step hs).1 hok
  exact ⟨hinv.isolated, fun a s' hs => (hinv.step hs).2⟩

/-- A buffer over two chunks of 128 bytes. -/
def Encoding.small : Encoding where
  encoder := ⟨fun _ _ => 0, ⟨⟨1, 128, 1, false⟩, ⟨[], 1, 128, 2, 2⟩, 0, 0, 0⟩, none, none⟩
  isOpen := false
  leases := []

/-- A message of `n` bytes, and the head of the next one. -/
def Encoding.messageAndHead (n : Nat) : List Encoding.Action :=
  [.getBufferEncoder, .putSlice (List.replicate n 1), .getChunkLease, .dropEncoder, .getBufferEncoder, .pad]

/-- The head goes over two chunks, with a lease on the first one. -/
theorem leases_isolated_straddling :
    ∃ s, runActions Encoding.step .small (Encoding.messageAndHead 125) = some s ∧ s.leases.length = 1 ∧ s.Isolated := by
  have hrun : (runActions Encoding.step .small (Encoding.messageAndHead 125)).map (·.leases.length) = some 1 := by
    decide +kernel
  have hm : runMeets Encoding.step Encoding.PadFits .small (Encoding.messageAndHead 125) := by decide +kernel
  obtain ⟨s, hs, hlen⟩ := Option.map_eq_some_iff.mp hrun
  have h₀ : Encoding.withConfig ⟨⟨0⟩, 128, 1, 2⟩ (fun _ _ => 0) = .ok .small := rfl
  exact ⟨s, hs, hlen, (leases_isolated h₀ (Reach.run .init hs hm)).1⟩

/-- The lease of a message of 253 bytes, over both chunks. -/
def wholeLease : ChunkLease := (ChunkLease.new ⟨1, 0, 128⟩ 1).appendToChain (.new ⟨2, 0, 125⟩ 2)

/-- The pool has no chunk for the rest of the head: the write offset goes back
into the bytes that are leased, and the next encoding writes over them. -/
theorem not_isolated_pad :
    ∃ s s', Encoding.withConfig ⟨⟨0⟩, 128, 1, 2⟩ (fun _ _ => 0) = .ok .small ∧
      Reach Encoding.step (fun _ _ => True) .small s ∧ ¬ s.Isolated ∧
      Reach Encoding.step (fun _ _ => True) s s' ∧ wholeLease ∈ s.leases ∧ wholeLease ∈ s'.leases ∧
      wholeLease.bytes s.encoder.mem = List.replicate 253 1 ∧
      wholeLease.bytes s'.encoder.mem ≠ List.replicate 253 1 := by
  have h₁ : (runActions Encoding.step .small (Encoding.messageAndHead 253)).map (fun s =>
      (s.encoder.encodeBuffer.readOffset, s.encoder.encodeBuffer.writeOffset, s.leases,
        wholeLease.bytes s.encoder.mem)) = some (128, 6, [wholeLease], List.replicate 253 1) := by
    decide +kernel
  obtain ⟨s, hs, he⟩ := Option.map_eq_some_iff.mp h₁
  have h₂ : ((runActions Encoding.step .small (Encoding.messageAndHead 253)).bind fun s =>
      runActions Encoding.step s [.dropEncoder, .getBufferEncoder, .putSlice [2]]).map (fun s' =>
        (s'.leases, (wholeLease.bytes s'.encoder.mem)[134]?)) = some ([wholeLease], some 2) := by
    decide +kernel
  rw [hs] at h₂
  obtain ⟨s', hs', he'⟩ := Option.map_eq_some_iff.mp h₂
  simp only [Prod.mk.injEq] at he he'
  refine ⟨s, s', rfl, Reach.run .init hs (runMeets_true ..), fun h => ?_, Reach.run .init hs' (runMeets_true ..),
    by rw [he.2.2.1]; exact List.mem_singleton_self _, by rw [he'.1]; exact List.mem_singleton_self _, he.2.2.2,
    fun h => ?_⟩
  · have := h.offsets
    rw [he.1, he.2.1] at this
    exact absurd this (by decide)
  · have hb := he'.2
    rw [h] at hb
    exact absurd hb (by decide)

end Kompact
