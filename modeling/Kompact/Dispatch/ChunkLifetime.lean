import Kompact.Buffers.EncodeIsolation
import Kompact.Dispatch.Service
import Kompact.Framework.ListSum

/-!
# The lifetime of chunks

A chunk is freed when its `BufferChunk` is dropped, whether or not there are
leases on it. An encode buffer drops those that a failed reservation took out of
its pool, and at its end those without a lock; the others go to the dispatcher,
which drops them one by one as their locks are gone.

A step of the encoder loses no chunk, and chains only leases of the active one
(`Grows`); what a failed reservation loses has no lock (`tryReserve_owned`). So
the chunks of all leases are owned in every run (`leases_owned`): none is freed
while there is a lease on it, none is freed twice, and once the buffer and the
leases are gone the next collection frees all of them.
-/

namespace Kompact

namespace EncodeBuffer

/-- The chunks that the buffer owns. -/
def chunks (e : EncodeBuffer) : List BufferChunk := e.buffer :: e.bufferPool.pool

/-- `Drop for EncodeBuffer`: the chunks that are sent to the dispatcher. -/
def drop (e : EncodeBuffer) : List BufferChunk :=
  e.bufferPool.pool.filter (!·.free.1) ++ if e.buffer.lock.free.1 then [] else [e.buffer.lock]

end EncodeBuffer

namespace ChunkLifetime

/-- An encode buffer, or the leases that it leaves behind. -/
inductive Source where
  | inUse (encoding : Encoding)
  | dropped (leases : List ChunkLease)

/-- An encode buffer and the dispatcher that its chunks are sent to. -/
structure World where
  source : Source
  /-- The messages to the dispatcher. -/
  lockedChunks : List BufferChunk
  garbageBuffers : List BufferChunk

inductive Action where
  | encode (a : Encoding.Action)
  | dropBuffer
  /-- The `k`-th lease is dropped, after the buffer. -/
  | dropLease (k : Nat)
  /-- The `k`-th lease, as a reference, is cloned, after the buffer was dropped. -/
  | cloneRef (k : Nat)
  /-- The dispatcher receives a chunk. -/
  | lockedChunk
  /-- The dispatcher collects. -/
  | reap

namespace World

def withConfig (cfg : PoolConfig) (m : Mem) : Panics World := do
  return { source := .inUse (← Encoding.withConfig cfg m), lockedChunks := [], garbageBuffers := [] }

def mapChunks (f : BufferChunk → BufferChunk) (w : World) : World :=
  { w with lockedChunks := w.lockedChunks.map f, garbageBuffers := w.garbageBuffers.map f }

/-- One step. An encoder borrows its buffer, so the buffer is not dropped before it. -/
def step (w : World) : Action → Option World
  | .encode a =>
    match w.source with
    | .inUse s => (s.step a).map fun s => { w with source := .inUse s }
    | .dropped _ => none
  | .dropBuffer =>
    match w.source with
    | .inUse s =>
      if s.isOpen then none
      else some { w with
        source := .dropped s.leases
        lockedChunks := w.lockedChunks ++ s.encoder.encodeBuffer.drop }
    | .dropped _ => none
  | .dropLease k =>
    match w.source with
    | .inUse _ => none
    | .dropped leases =>
      leases[k]?.map fun l =>
        l.locks.foldl (fun w c => w.mapChunks (.dropLock c)) { w with source := .dropped (leases.eraseIdx k) }
  | .cloneRef k =>
    match w.source with
    | .inUse _ => none
    | .dropped leases =>
      leases[k]?.map fun l =>
        l.locks.foldl (fun w c => w.mapChunks (.cloneLock c)) { w with source := .dropped (l :: leases) }
  | .lockedChunk =>
    match w.lockedChunks with
    | chunk :: rest => some { w with lockedChunks := rest, garbageBuffers := w.garbageBuffers ++ [chunk] }
    | [] => none
  | .reap => some { w with garbageBuffers := LookupService.retryQueue w.garbageBuffers }

/-- All chunks that were not freed. -/
def owned (w : World) : List BufferChunk :=
  (match w.source with
    | .inUse s => s.encoder.encodeBuffer.chunks
    | .dropped _ => []) ++ (w.lockedChunks ++ w.garbageBuffers)

/-- All leases, with the chain of the encoder. -/
def leases (w : World) : List ChunkLease :=
  match w.source with
  | .inUse s => s.encoder.live s.leases
  | .dropped leases => leases

/-- The padding of a head does not fail. -/
def PadFits (w : World) (a : Action) : Prop :=
  match w.source, a with
  | .inUse s, .encode a => s.PadFits a
  | _, _ => True

end World

end ChunkLifetime

/-! ## What the encoder keeps -/

namespace BufferEncoder

/-- What the encoder owns was its own before, or was allocated since. -/
structure Fresh (w w' : BufferEncoder) : Prop where
  chunks : ∀ b' ∈ w'.encodeBuffer.chunks, (∃ b ∈ w.encodeBuffer.chunks, b.chunk = b'.chunk) ∨
    w.encodeBuffer.bufferPool.nextChunk ≤ b'.chunk
  next : w.encodeBuffer.bufferPool.nextChunk ≤ w'.encodeBuffer.bufferPool.nextChunk

/-- The encoder loses no chunk, and what it chains is in chunks it owns. -/
structure Grows (w w' : BufferEncoder) : Prop where
  kept : ∀ b ∈ w.encodeBuffer.chunks, ∃ b' ∈ w'.encodeBuffer.chunks, b'.chunk = b.chunk
  fresh : w.Fresh w'
  chain : ∀ c ∈ w'.chainHead.elim [] ChunkLease.locks, c ∈ w.chainHead.elim [] ChunkLease.locks ∨
    ∃ b' ∈ w'.encodeBuffer.chunks, b'.chunk = c

variable {w w' w'' : BufferEncoder}

theorem Grows.refl (w : BufferEncoder) : w.Grows w where
  kept b hb := ⟨b, hb, rfl⟩
  fresh := ⟨fun b hb => .inl ⟨b, hb, rfl⟩, Nat.le_refl _⟩
  chain _ hc := .inl hc

theorem Fresh.trans (h : w.Fresh w') (h' : w'.Fresh w'') : w.Fresh w'' where
  chunks b'' hb'' := by
    rcases h'.chunks b'' hb'' with ⟨b', hb', hc'⟩ | hnew
    · rcases h.chunks b' hb' with ⟨b, hb, hc⟩ | hnew
      · exact .inl ⟨b, hb, hc.trans hc'⟩
      · exact .inr (hc' ▸ hnew)
    · exact .inr (Nat.le_trans h.next hnew)
  next := Nat.le_trans h.next h'.next

theorem Grows.trans (h : w.Grows w') (h' : w'.Grows w'') : w.Grows w'' where
  kept b hb := by
    obtain ⟨b', hb', hc'⟩ := h.kept b hb
    obtain ⟨b'', hb'', hc''⟩ := h'.kept b' hb'
    exact ⟨b'', hb'', hc''.trans hc'⟩
  fresh := h.fresh.trans h'.fresh
  chain c hc := by
    rcases h'.chain c hc with hc' | hown
    · rcases h.chain c hc' with hc | ⟨b', hb', rfl⟩
      · exact .inl hc
      · exact .inr (h'.kept b' hb')
    · exact .inr hown

/-- Where the chunks and the chain are the same. -/
theorem Grows.of_eq (hp : w'.encodeBuffer.bufferPool = w.encodeBuffer.bufferPool)
    (hb : w'.encodeBuffer.buffer.chunk = w.encodeBuffer.buffer.chunk) (hc : w'.chainHead = w.chainHead) :
    w.Grows w' := by
  have hsame : ∀ {c}, (∃ b ∈ w.encodeBuffer.chunks, b.chunk = c) ↔ ∃ b ∈ w'.encodeBuffer.chunks, b.chunk = c := by
    intro c
    simp [EncodeBuffer.chunks, hp, hb]
  refine ⟨fun b hm => hsame.mp ⟨b, hm, rfl⟩, ⟨fun b hm => .inl (hsame.mpr ⟨b, hm, rfl⟩), ?_⟩, fun c hm => .inl ?_⟩
  · rw [hp]
  · rwa [hc] at hm

theorem grows_swapBuffer (w : BufferEncoder) : w.Grows { w with encodeBuffer := w.encodeBuffer.swapBuffer.2 } := by
  have hreclaims := BufferPool.reclaims w.encodeBuffer.bufferPool
  unfold EncodeBuffer.swapBuffer
  rw [BufferPool.getBuffer]
  generalize w.encodeBuffer.bufferPool.tryReclaim = t at *
  obtain ⟨o, p'⟩ := t
  cases hreclaims with
  | @idle pre post b hp hpre hb =>
    -- the chunk and the active one change places
    have hfree : b.free.2.chunk = b.chunk := (BufferPool.free_spec b).1
    refine ⟨fun x hx => ?_, ⟨fun x hx => .inl ?_, Nat.le_refl _⟩, fun c hc => .inl hc⟩
    · rcases List.mem_cons.mp hx with rfl | hx
      · exact ⟨w.encodeBuffer.buffer.lock.lock, by simp [EncodeBuffer.chunks, BufferPool.returnBuffer], rfl⟩
      · rw [hp, List.mem_append, List.mem_cons] at hx
        rcases hx with hx | rfl | hx
        · exact ⟨x, by simp [EncodeBuffer.chunks, BufferPool.returnBuffer, hx], rfl⟩
        · exact ⟨x.free.2, List.mem_cons_self .., hfree⟩
        · exact ⟨x, by simp [EncodeBuffer.chunks, BufferPool.returnBuffer, hx], rfl⟩
    · simp only [EncodeBuffer.chunks, BufferPool.returnBuffer, List.mem_cons, List.mem_append, List.mem_nil_iff,
        or_false] at hx
      rcases hx with rfl | (hx | hx) | rfl
      · exact ⟨b, by simp [EncodeBuffer.chunks, hp], hfree.symm⟩
      · exact ⟨x, by simp [EncodeBuffer.chunks, hp, hx], rfl⟩
      · exact ⟨x, by simp [EncodeBuffer.chunks, hp, hx], rfl⟩
      · exact ⟨w.encodeBuffer.buffer, by simp [EncodeBuffer.chunks], rfl⟩
  | allocated hnone hlt =>
    refine ⟨fun x hx => ?_, ⟨fun x hx => ?_, Nat.le_succ _⟩, fun c hc => .inl hc⟩
    · rcases List.mem_cons.mp hx with rfl | hx
      · exact ⟨w.encodeBuffer.buffer.lock.lock, by simp [EncodeBuffer.chunks, BufferPool.returnBuffer], rfl⟩
      · exact ⟨x, by simp [EncodeBuffer.chunks, BufferPool.returnBuffer, hx], rfl⟩
    · simp only [EncodeBuffer.chunks, BufferPool.returnBuffer, List.mem_cons, List.mem_append, List.mem_nil_iff,
        or_false] at hx
      rcases hx with rfl | hx | rfl
      · exact .inr (Nat.le_refl _)
      · exact .inl ⟨x, by simp [EncodeBuffer.chunks, hx], rfl⟩
      · exact .inl ⟨w.encodeBuffer.buffer, by simp [EncodeBuffer.chunks], rfl⟩
  | exhausted hnone hge => exact .refl w

/-- A lease of the active chunk has its lock. -/
theorem getChunkLease_lock {e e' : EncodeBuffer} {lease : Option ChunkLease}
    (h : e.getChunkLease = .ok (lease, e')) :
    e'.bufferPool = e.bufferPool ∧ e'.buffer.chunk = e.buffer.chunk ∧ ∀ l ∈ lease, l.locks = [e.buffer.chunk] := by
  unfold EncodeBuffer.getChunkLease at h
  split at h
  · cases h
  simp only at h
  split at h
  · obtain ⟨⟨l, buffer⟩, hl, h⟩ := Panics.bind_eq_ok.mp h
    cases h
    unfold BufferChunk.getLease at hl
    obtain ⟨slice, hslice, hl⟩ := Panics.bind_eq_ok.mp hl
    cases hl
    exact ⟨rfl, rfl, fun l hl => by cases hl; rfl⟩
  · cases h
    exact ⟨rfl, rfl, fun l hl => by cases hl⟩

theorem grows_chain {e : EncodeBuffer} {lease : Option ChunkLease}
    (h : w.encodeBuffer.getChunkLease = .ok (lease, e)) :
    w.Grows ({ w with encodeBuffer := e }.chain lease) := by
  obtain ⟨hp, hb, hl⟩ := getChunkLease_lock h
  have hown : ∀ l ∈ lease, ∀ c ∈ l.locks, ∃ b' ∈ e.chunks, b'.chunk = c := by
    intro l hmem c hc
    rw [hl l hmem, List.mem_singleton] at hc
    exact ⟨e.buffer, List.mem_cons_self .., hb.trans hc.symm⟩
  have hsame : w.Grows { w with encodeBuffer := e } := .of_eq hp hb rfl
  unfold BufferEncoder.chain
  cases lease with
  | none => exact hsame
  | some l =>
    cases hc : w.chainHead with
    | none => exact ⟨hsame.kept, ⟨hsame.fresh.chunks, hsame.fresh.next⟩, fun c hc' => .inr (hown l rfl c hc')⟩
    | some chainHead =>
      refine ⟨hsame.kept, ⟨hsame.fresh.chunks, hsame.fresh.next⟩, fun c hc' => ?_⟩
      have hc' : c ∈ (chainHead.appendToChain l).locks := hc'
      rw [ChunkLease.locks_appendToChain, List.mem_append] at hc'
      rw [hc]
      exact hc'.imp_right (hown l rfl c)

theorem grows_chainAndSwap {r : Except SerError Unit} (h : w.chainAndSwap = .ok (r, w')) : w.Grows w' := by
  obtain ⟨⟨lease, e⟩, hlease, h⟩ := Panics.bind_eq_ok.mp h
  cases h
  exact (grows_chain hlease).trans (grows_swapBuffer _)

theorem grows_chainAndSwapLater (h : w.chainAndSwapLater = .ok w') : w.Grows w' := by
  obtain ⟨⟨r, w₁⟩, hswap, h⟩ := Panics.bind_eq_ok.mp h
  have hgrows := grows_chainAndSwap hswap
  cases r with
  | ok u => cases h; exact hgrows
  | error err => cases h; exact hgrows.trans (.of_eq rfl rfl rfl)

theorem grows_advanceMut {cnt : Nat} (h : w.advanceMut cnt = .ok w') : w.Grows w' := by
  unfold advanceMut at h
  split at h
  · cases h; exact .refl _
  simp only at h
  split at h
  · obtain ⟨w₁, hswap, h⟩ := Panics.bind_eq_ok.mp h
    cases h
    have hset : w.Grows (w.setWriteOffset (w.encodeBuffer.writeOffset + w.encodeBuffer.writeableLen)) :=
      .of_eq rfl rfl rfl
    exact hset.trans ((grows_chainAndSwapLater hswap).trans (.of_eq rfl rfl rfl))
  · cases h; exact .of_eq rfl rfl rfl

theorem grows_putLoop {fuel : Nat} {src : List UInt8} (h : putLoop fuel w src = .ok w') : w.Grows w' := by
  induction fuel generalizing w src with
  | zero =>
    cases src with
    | nil => cases h; exact .refl _
    | cons b src => cases h
  | succ fuel ih =>
    cases src with
    | nil => cases h; exact .refl _
    | cons b src =>
      unfold putLoop at h
      split at h
      · cases h; exact .refl _
      obtain ⟨w₁, hadv, h⟩ := Panics.bind_eq_ok.mp h
      have hcopy : ∀ bs, w.Grows (w.copyIn bs) := fun bs => .of_eq rfl rfl rfl
      have hround : w.Grows w₁ := (hcopy _).trans (grows_advanceMut hadv)
      simp only at h
      split at h
      · obtain ⟨w₂, hswap, h⟩ := Panics.bind_eq_ok.mp h
        exact hround.trans ((grows_chainAndSwapLater hswap).trans (ih h))
      · exact hround.trans (ih h)

theorem grows_put {chunks : List (List UInt8)} (h : w.put chunks = .ok w') : w.Grows w' := by
  induction chunks generalizing w with
  | nil => cases h; exact .refl _
  | cons chunk chunks ih =>
    unfold put at h
    split at h
    · cases h; exact .refl _
    · obtain ⟨w₁, hput, h⟩ := Panics.bind_eq_ok.mp h
      exact (grows_putLoop hput).trans (ih h)

/-- The chunks of all locks are there. -/
def Owned (w : BufferEncoder) (leases : List ChunkLease) : Prop :=
  ∀ c ∈ locksOf (w.live leases), ∃ b ∈ w.encodeBuffer.chunks, b.chunk = c

theorem mem_locksOf_live {leases : List ChunkLease} {c : ChunkId} :
    c ∈ locksOf (w.live leases) ↔ c ∈ w.chainHead.elim [] ChunkLease.locks ∨ c ∈ locksOf leases := by
  unfold live locksOf
  cases w.chainHead <;> simp

theorem Grows.owned {leases : List ChunkLease} (h : w.Grows w') (ho : w.Owned leases) : w'.Owned leases := by
  have hkept : ∀ {c}, c ∈ locksOf (w.live leases) → ∃ b' ∈ w'.encodeBuffer.chunks, b'.chunk = c := by
    intro c hc
    obtain ⟨b, hb, rfl⟩ := ho c hc
    exact h.kept b hb
  intro c hc
  rcases mem_locksOf_live.mp hc with hc | hc
  · rcases h.chain c hc with hc | hown
    · exact hkept (mem_locksOf_live.mpr (.inl hc))
    · exact hown
  · exact hkept (mem_locksOf_live.mpr (.inr hc))

end BufferEncoder

namespace BufferPool

variable {p : BufferPool} {out : List BufferChunk} {locks : List ChunkId}

/-- The loop of a reservation takes no locked chunk out of the pool. -/
theorem Sound.reserveLoop_kept {n : Nat} {reserved : List BufferChunk} (h : p.Sound (reserved ++ out) locks)
    {b : BufferChunk} (hb : b ∈ p.pool) (hl : b.chunk ∈ locks) :
    b ∈ (BufferPool.reserveLoop n p reserved).2.pool := by
  induction n generalizing p reserved with
  | zero => exact hb
  | succ n ih =>
    rw [BufferPool.reserveLoop]
    have hreclaims := reclaims p
    have hsound := fun x hx => Sound.tryReclaim (b := x) h hx
    generalize p.tryReclaim = t at *
    obtain ⟨o, p'⟩ := t
    have hnext : ∀ {x : BufferChunk}, o = some x → p'.Sound (reserved ++ [x] ++ out) locks := by
      rintro x rfl
      refine ⟨(hsound x rfl).1.ledger.perm ?_, (hsound x rfl).1.idle⟩
      simp only [List.append_assoc, List.cons_append]
      exact List.perm_middle.symm
    cases hreclaims with
    | @idle pre post x hp hpre hx =>
      refine ih (hnext rfl) ?_
      have hnot : x.chunk ∉ locks := (free_spec x).1 ▸ (hsound _ rfl).2.2.1
      rw [hp, List.mem_append, List.mem_cons] at hb
      rcases hb with hb | rfl | hb
      · exact List.mem_append_right _ hb
      · exact absurd hl hnot
      · exact List.mem_append_left _ hb
    | allocated hnone hlt => exact ih (hnext rfl) hb
    | exhausted hnone hge => exact hb

/-- It makes no chunk appear that was there before and is not any more. -/
theorem reserveLoop_fresh (n : Nat) (p : BufferPool) (reserved : List BufferChunk) :
    p.nextChunk ≤ (BufferPool.reserveLoop n p reserved).2.nextChunk ∧
      ∀ b' ∈ (BufferPool.reserveLoop n p reserved).1.getD [] ++ (BufferPool.reserveLoop n p reserved).2.pool,
        (∃ b ∈ reserved ++ p.pool, b.chunk = b'.chunk) ∨ p.nextChunk ≤ b'.chunk := by
  induction n generalizing p reserved with
  | zero => exact ⟨Nat.le_refl _, fun b hb => .inl ⟨b, hb, rfl⟩⟩
  | succ n ih =>
    rw [BufferPool.reserveLoop]
    have hreclaims := reclaims p
    generalize p.tryReclaim = t at *
    obtain ⟨o, p'⟩ := t
    cases hreclaims with
    | @idle pre post x hp hpre hx =>
      obtain ⟨hle, hfresh⟩ := ih { p with pool := post ++ pre } (reserved ++ [x.free.2])
      refine ⟨hle, fun b' hb' => (hfresh b' hb').imp_left ?_⟩
      rintro ⟨b, hb, hc⟩
      simp only [List.mem_append, List.mem_singleton] at hb
      rcases hb with (hb | rfl) | hb | hb
      · exact ⟨b, by simp [hb], hc⟩
      · exact ⟨x, by simp [hp], (free_spec x).1 ▸ hc⟩
      · exact ⟨b, by simp [hp, hb], hc⟩
      · exact ⟨b, by simp [hp, hb], hc⟩
    | allocated hnone hlt =>
      obtain ⟨hle, hfresh⟩ := ih { p with poolSize := p.poolSize + 1, nextChunk := p.nextChunk + 1 }
        (reserved ++ [fromChunk p.nextChunk p.chunkSize])
      refine ⟨Nat.le_of_succ_le hle, fun b' hb' => ?_⟩
      rcases hfresh b' hb' with ⟨b, hb, hc⟩ | hnew
      · simp only [List.mem_append, List.mem_singleton] at hb
        rcases hb with (hb | rfl) | hb
        · exact .inl ⟨b, by simp [hb], hc⟩
        · exact .inr (Nat.le_of_eq hc)
        · exact .inl ⟨b, by simp [hb], hc⟩
      · exact .inr (Nat.le_of_succ_le hnew)
    | exhausted hnone hge => exact ⟨Nat.le_refl _, fun b hb => .inl ⟨b, List.mem_append_right _ hb, rfl⟩⟩

end BufferPool

namespace BufferEncoder

variable {w w' : BufferEncoder} {leases : List ChunkLease}

/-- What a reservation loses has no lock. -/
theorem tryReserve_owned {size : Nat} {r : Except SerError Unit} (h : w.Inv leases) (ho : w.Owned leases)
    (hs : w.tryReserve size = .ok (r, w')) : w'.Owned leases ∧ w.Fresh w' := by
  have hgrown : ∀ {v}, w.Grows v → v.Owned leases ∧ w.Fresh v := fun hg => ⟨hg.owned ho, hg.fresh⟩
  unfold BufferEncoder.tryReserve at hs
  simp only at hs
  split at hs
  · cases hs
    exact hgrown (.refl _)
  split at hs
  · exact hgrown (grows_chainAndSwap hs)
  cases hs
  generalize size - _ = n
  have hsound : w.encodeBuffer.bufferPool.Sound ([] ++ [w.encodeBuffer.buffer]) _ := h.buffer.sound
  have hkept := fun b hb hl =>
    hsound.reserveLoop_kept (n := w.encodeBuffer.bufferPool.requiredBuffers n) (b := b) hb hl
  obtain ⟨hnext, hfresh⟩ :=
    BufferPool.reserveLoop_fresh (w.encodeBuffer.bufferPool.requiredBuffers n) w.encodeBuffer.bufferPool []
  unfold BufferPool.tryReserve
  simp only
  split
  · exact hgrown (.of_eq rfl rfl rfl)
  split
  · exact hgrown (.of_eq rfl rfl rfl)
  generalize BufferPool.reserveLoop _ _ [] = loop at *
  obtain ⟨o, p'⟩ := loop
  -- the locked chunks are in the pool still, whether or not the others are
  have hall : ∀ pool, (∀ b ∈ p'.pool, b ∈ pool) → (∀ b ∈ pool, b ∈ o.getD [] ++ p'.pool) →
      BufferEncoder.Owned { w with encodeBuffer := { w.encodeBuffer with bufferPool := { p' with pool } } } leases ∧
        w.Fresh { w with encodeBuffer := { w.encodeBuffer with bufferPool := { p' with pool } } } := by
    intro pool hsub hsup
    refine ⟨fun c hc => ?_, ⟨fun b' hb' => ?_, hnext⟩⟩
    · obtain ⟨b, hb, rfl⟩ := ho c hc
      rcases List.mem_cons.mp hb with rfl | hb
      · exact ⟨_, List.mem_cons_self .., rfl⟩
      · exact ⟨b, List.mem_cons_of_mem _ (hsub b (hkept b hb hc)), rfl⟩
    · rcases List.mem_cons.mp hb' with rfl | hb'
      · exact .inl ⟨_, List.mem_cons_self .., rfl⟩
      · refine (hfresh b' (hsup b' hb')).imp_left ?_
        rintro ⟨b, hb, hc⟩
        exact ⟨b, List.mem_cons_of_mem _ hb, hc⟩
  cases o with
  | none => exact hall p'.pool (fun b hb => hb) fun b hb => hb
  | some reserved => exact hall _ (fun b hb => List.mem_append_right _ hb) fun b hb => by simpa using hb

theorem grows_getBufferEncoder {m : Mem} (hc : w.chainHead = none)
    (h : w.encodeBuffer.getBufferEncoder m = .ok (.ok w')) : w.Grows w' := by
  have hnew : ∀ {e : EncodeBuffer},
      (BufferEncoder.new m e).map (Except.ok (ε := SerError × EncodeBuffer)) = .ok (.ok w') →
      w'.encodeBuffer = e ∧ w'.chainHead = none := by
    intro e he
    unfold BufferEncoder.new at he
    split at he <;> cases he
    exact ⟨rfl, rfl⟩
  unfold EncodeBuffer.getBufferEncoder at h
  split at h
  · have hswap := grows_swapBuffer w
    generalize w.encodeBuffer.swapBuffer = r at *
    obtain ⟨r, e⟩ := r
    cases r with
    | error err => cases h
    | ok u =>
      obtain ⟨he, hc'⟩ := hnew h
      exact hswap.trans (.of_eq (by rw [he]) (by rw [he]) (hc'.trans hc.symm))
  · obtain ⟨he, hc'⟩ := hnew h
    exact .of_eq (by rw [he]) (by rw [he]) (hc'.trans hc.symm)

/-- The lease that is taken is made of the chain and of one of the active chunk. -/
theorem getChunkLease_owned {r : Except SerError ChunkLease} (ho : w.Owned leases)
    (h : w.getChunkLease = .ok (r, w')) : w'.Owned (r.toOption.toList ++ leases) ∧ w.Fresh w' := by
  obtain ⟨m, e, chainHead, serError⟩ := w
  cases serError with
  | some error =>
    cases h
    exact ⟨ho, ⟨fun b hb => .inl ⟨b, hb, rfl⟩, Nat.le_refl _⟩⟩
  | none =>
    obtain ⟨⟨lease, e'⟩, hlease, h⟩ := Panics.bind_eq_ok.mp h
    have hgrows := grows_chain (w := ⟨m, e, chainHead, none⟩) hlease
    have hown := hgrows.owned ho
    have hfresh := hgrows.fresh
    -- the chain and the last lease, moved to the leases
    cases chainHead with
    | none =>
      cases lease <;> cases h <;>
        exact ⟨fun c hc => hown c (by simpa [BufferEncoder.chain, live, locksOf, Except.toOption] using hc),
          ⟨hfresh.chunks, hfresh.next⟩⟩
    | some chainHead =>
      cases lease <;> cases h <;>
        exact ⟨fun c hc => hown c (by simpa [BufferEncoder.chain, live, locksOf, Except.toOption] using hc),
          ⟨hfresh.chunks, hfresh.next⟩⟩

end BufferEncoder

/-! ## An encode buffer in use -/

namespace EncodeBuffer

/-- Changes of the locks: the chunks are the same. -/
theorem foldl_mapChunks {f : ChunkId → BufferChunk → BufferChunk} (hf : ∀ c b, (f c b).chunk = b.chunk)
    (e : EncodeBuffer) (locks : List ChunkId) :
    (locks.foldl (fun e c => e.mapChunks (f c)) e).chunks.map BufferChunk.chunk = e.chunks.map BufferChunk.chunk ∧
      (locks.foldl (fun e c => e.mapChunks (f c)) e).bufferPool.nextChunk = e.bufferPool.nextChunk := by
  induction locks generalizing e with
  | nil => exact ⟨rfl, rfl⟩
  | cons c locks ih =>
    obtain ⟨hmap, hnext⟩ := ih (e.mapChunks (f c))
    refine ⟨hmap.trans ?_, hnext⟩
    show (e.chunks.map (f c)).map BufferChunk.chunk = _
    rw [List.map_map]
    exact List.map_congr_left fun b _ => hf c b

end EncodeBuffer

theorem chunk_dropLock (c : ChunkId) (b : BufferChunk) : (b.dropLock c).chunk = b.chunk :=
  congrArg Prod.fst (b.key_dropLock c)

theorem chunk_cloneLock (c : ChunkId) (b : BufferChunk) : (b.cloneLock c).chunk = b.chunk :=
  congrArg Prod.fst (b.key_cloneLock c)

namespace BufferEncoder

variable {w w' : BufferEncoder} {leases leases' : List ChunkLease}

theorem owned_iff :
    w.Owned leases ↔ ∀ c ∈ locksOf (w.live leases), c ∈ w.encodeBuffer.chunks.map BufferChunk.chunk := by
  simp [Owned]

/-- With the same chunks, and no other locks. -/
theorem Owned.of_map (ho : w.Owned leases)
    (hc : w'.encodeBuffer.chunks.map BufferChunk.chunk = w.encodeBuffer.chunks.map BufferChunk.chunk)
    (hn : w'.encodeBuffer.bufferPool.nextChunk = w.encodeBuffer.bufferPool.nextChunk)
    (hl : ∀ c ∈ locksOf (w'.live leases'), c ∈ locksOf (w.live leases)) : w'.Owned leases' ∧ w.Fresh w' := by
  refine ⟨owned_iff.mpr fun c hm => hc ▸ owned_iff.mp ho c (hl c hm), ⟨fun b hb => .inl ?_, Nat.le_of_eq hn.symm⟩⟩
  have hm : b.chunk ∈ w.encodeBuffer.chunks.map BufferChunk.chunk := hc ▸ List.mem_map_of_mem hb
  exact List.mem_map.mp hm

end BufferEncoder

namespace Encoding

variable {s s' : Encoding} {a : Action}

theorem step_owned (h : s.Inv) (ho : s.encoder.Owned s.leases) (hs : s.step a = some s') :
    s'.encoder.Owned s'.leases ∧ s.encoder.Fresh s'.encoder := by
  have hgrown : ∀ {w}, s.encoder.Grows w → w.Owned s.leases ∧ s.encoder.Fresh w := fun hg => ⟨hg.owned ho, hg.fresh⟩
  have hthen : ∀ {α : Type} {r : Panics α} {f : α → Encoding}, andThen r f = some s' →
      ∃ x, r = .ok x ∧ f x = s' := by
    intro α r f hr
    cases r with
    | error e => cases hr
    | ok x => exact ⟨x, rfl, Option.some.inj hr⟩
  cases a with
  | getBufferEncoder =>
    simp only [step] at hs
    split at hs
    · cases hs
    rename_i hclosed
    obtain ⟨r, hr, hs⟩ := hthen hs
    obtain ⟨hhead, -, haligned⟩ := h.closed (by simpa using hclosed)
    cases r with
    | ok w =>
      obtain rfl := hs
      exact hgrown (BufferEncoder.grows_getBufferEncoder hhead hr)
    | error err =>
      obtain ⟨err, e⟩ := err
      obtain rfl := hs
      have hinv : s.encoder.encodeBuffer.Inv s.leases := by
        have hb := h.encoder.buffer
        rwa [BufferEncoder.live, hhead] at hb
      rcases BufferEncoder.getBufferEncoder_spec hinv haligned s.encoder.mem with ⟨e', hget, -⟩ | ⟨err', hget⟩
      · rw [hget] at hr
        cases hr
      · rw [hget] at hr
        cases hr
        exact hgrown (.refl _)
  | put chunks =>
    simp only [step] at hs
    split at hs
    · obtain ⟨w, hw, rfl⟩ := hthen hs
      exact hgrown (BufferEncoder.grows_put hw)
    · cases hs
  | putSlice src =>
    simp only [step] at hs
    split at hs
    · obtain ⟨w, hw, rfl⟩ := hthen hs
      exact hgrown (BufferEncoder.grows_putLoop hw)
    · cases hs
  | pad =>
    simp only [step] at hs
    split at hs
    · obtain ⟨w, hw, rfl⟩ := hthen hs
      exact hgrown (BufferEncoder.grows_advanceMut hw)
    · cases hs
  | tryReserve size =>
    simp only [step] at hs
    split at hs
    · obtain ⟨⟨r, w⟩, hw, rfl⟩ := hthen hs
      exact BufferEncoder.tryReserve_owned h.encoder ho hw
    · cases hs
  | getChunkLease =>
    simp only [step] at hs
    split at hs
    · obtain ⟨⟨r, w⟩, hw, hs⟩ := hthen hs
      have hown := BufferEncoder.getChunkLease_owned ho hw
      cases r with
      | ok lease => obtain rfl := hs; exact hown
      | error err => obtain rfl := hs; exact hown
    · cases hs
  | dropEncoder =>
    simp only [step] at hs
    split at hs
    · obtain rfl := Option.some.inj hs
      obtain ⟨hmap, hnext⟩ := EncodeBuffer.foldl_mapChunks chunk_dropLock
        { s.encoder.encodeBuffer with readOffset := s.encoder.encodeBuffer.writeOffset }
        (s.encoder.chainHead.elim [] ChunkLease.locks)
      refine ho.of_map hmap hnext fun c hc => BufferEncoder.mem_locksOf_live.mpr (.inr ?_)
      exact (BufferEncoder.mem_locksOf_live.mp hc).resolve_left (by simp [closeEncoder])
    · cases hs
  | dropLease k =>
    simp only [step] at hs
    split at hs
    · rename_i l hk
      obtain rfl := Option.some.inj hs
      obtain ⟨hmap, hnext⟩ := EncodeBuffer.foldl_mapChunks chunk_dropLock s.encoder.encodeBuffer l.locks
      refine ho.of_map hmap hnext fun c hc => ?_
      rcases BufferEncoder.mem_locksOf_live.mp hc with hc | hc
      · exact BufferEncoder.mem_locksOf_live.mpr (.inl hc)
      · obtain ⟨l', hl', hlock⟩ := List.mem_flatMap.mp hc
        have hmem : l' ∈ s.leases := List.mem_of_mem_eraseIdx hl'
        exact BufferEncoder.mem_locksOf_live.mpr (.inr (List.mem_flatMap.mpr ⟨l', hmem, hlock⟩))
    · cases hs
  | cloneRef k =>
    simp only [step] at hs
    split at hs
    · rename_i l hk
      obtain rfl := Option.some.inj hs
      obtain ⟨hmap, hnext⟩ := EncodeBuffer.foldl_mapChunks chunk_cloneLock s.encoder.encodeBuffer l.locks
      refine ho.of_map hmap hnext fun c hc => ?_
      rcases BufferEncoder.mem_locksOf_live.mp hc with hc | hc
      · exact BufferEncoder.mem_locksOf_live.mpr (.inl hc)
      · obtain ⟨l', hl', hlock⟩ := List.mem_flatMap.mp hc
        have hmem : l' ∈ s.leases := (List.mem_cons.mp hl').elim (fun he => he ▸ List.mem_of_getElem? hk) id
        exact BufferEncoder.mem_locksOf_live.mpr (.inr (List.mem_flatMap.mpr ⟨l', hmem, hlock⟩))
    · cases hs

end Encoding

/-! ## Runs -/

theorem BufferChunk.free_eq_false {b : BufferChunk} (hl : b.locked = true) (hr : 2 ≤ b.refCount) :
    b.free.1 = false := by
  unfold free
  rw [if_pos hl, if_neg (by omega)]

theorem BufferChunk.locked_of_free {b : BufferChunk} (h : b.free.1 = false) : b.locked = true ∧ 2 ≤ b.refCount := by
  unfold free at h
  split at h
  · rename_i hl
    split at h
    · cases h
    · exact ⟨hl, by omega⟩
  · cases h

/-- Chunks without a buffer: they are locked, and the locks are those of the leases. -/
structure Leftover (chunks : List BufferChunk) (leases : List ChunkLease) : Prop where
  ledger : ∃ next len, Ledger chunks next len (locksOf leases)
  locked : ∀ b ∈ chunks, b.locked = true
  owned : ∀ c ∈ locksOf leases, c ∈ chunks.map BufferChunk.chunk
  slices : ∀ l ∈ leases, ∀ sl ∈ l.slices, sl.chunk ∈ l.locks

namespace Leftover

variable {chunks chunks' : List BufferChunk} {leases leases' : List ChunkLease}

theorem count (h : Leftover chunks leases) {b : BufferChunk} (hb : b ∈ chunks) :
    b.refCount = 1 + (locksOf leases).count b.chunk := by
  obtain ⟨next, len, hledger⟩ := h.ledger
  exact hledger.counted b hb

/-- A chunk with a lock is not free. -/
theorem free_iff (h : Leftover chunks leases) {b : BufferChunk} (hb : b ∈ chunks) :
    b.free.1 = false ↔ b.chunk ∈ locksOf leases := by
  rw [← List.one_le_count_iff]
  have hcount := h.count hb
  constructor
  · intro hf
    have := (BufferChunk.locked_of_free hf).2
    omega
  · exact fun hl => BufferChunk.free_eq_false (h.locked b hb) (by omega)

theorem perm (h : Leftover chunks leases) (hp : chunks.Perm chunks') : Leftover chunks' leases where
  ledger := by
    obtain ⟨next, len, hledger⟩ := h.ledger
    exact ⟨next, len, hledger.perm hp⟩
  locked b hb := h.locked b (hp.mem_iff.mpr hb)
  owned c hc := ((hp.map _).mem_iff).mp (h.owned c hc)
  slices := h.slices

/-- The free chunks are dropped. -/
theorem sublist (h : Leftover chunks leases) (hs : chunks'.Sublist chunks)
    (hkeep : ∀ b ∈ chunks, b.free.1 = false → b ∈ chunks') : Leftover chunks' leases where
  ledger := by
    obtain ⟨next, len, hledger⟩ := h.ledger
    exact ⟨next, len, hledger.sublist hs⟩
  locked b hb := h.locked b (hs.subset hb)
  owned c hc := by
    obtain ⟨b, hb, rfl⟩ := List.mem_map.mp (h.owned c hc)
    exact List.mem_map_of_mem (hkeep b hb ((h.free_iff hb).mpr hc))
  slices := h.slices

/-- The locks are recounted, for other leases. -/
theorem recount {f : BufferChunk → BufferChunk} {locks : List ChunkId} (h : Leftover chunks leases)
    (hp : (locksOf leases).Perm locks) (hf : Recounts f locks (locksOf leases'))
    (hs : ∀ l ∈ leases', l ∈ leases) : Leftover (chunks.map f) leases' where
  ledger := by
    obtain ⟨next, len, hledger⟩ := h.ledger
    exact ⟨next, len, (hledger.permLocks hp).recount hf⟩
  locked b hb := by
    obtain ⟨b₀, hb₀, rfl⟩ := List.mem_map.mp hb
    rw [hf.locked]
    exact h.locked b₀ hb₀
  owned c hc := by
    have hmap : (chunks.map f).map BufferChunk.chunk = chunks.map BufferChunk.chunk := by
      rw [List.map_map]
      exact List.map_congr_left fun b _ => hf.chunk b
    rw [hmap]
    exact h.owned c (hp.mem_iff.mpr (hf.subset c hc))
  slices l hl := h.slices l (hs l hl)

end Leftover

theorem Recounts.trans {f g : BufferChunk → BufferChunk} {locks locks' locks'' : List ChunkId}
    (hf : Recounts f locks locks') (hg : Recounts g locks' locks'') : Recounts (g ∘ f) locks locks'' where
  chunk b := (hg.chunk (f b)).trans (hf.chunk b)
  len b := (hg.len (f b)).trans (hf.len b)
  locked b := (hg.locked (f b)).trans (hf.locked b)
  subset c hc := hf.subset c (hg.subset c hc)
  counted b hb := by
    have hmid := hf.counted b hb
    rw [← hf.chunk b] at hmid ⊢
    exact hg.counted (f b) hmid

theorem recounts_dropLocks (ds locks : List ChunkId) :
    Recounts (fun b => ds.foldl (fun b c => b.dropLock c) b) (ds ++ locks) locks := by
  induction ds with
  | nil => exact ⟨fun _ => rfl, fun _ => rfl, fun _ => rfl, fun _ hc => hc, fun _ hb => hb⟩
  | cons c ds ih => exact (recounts_dropLock c (ds ++ locks)).trans ih

theorem Recounts.perm {f : BufferChunk → BufferChunk} {locks locks' locks'' : List ChunkId}
    (h : Recounts f locks locks') (hp : locks'.Perm locks'') : Recounts f locks locks'' :=
  ⟨h.chunk, h.len, h.locked, fun c hc => h.subset c (hp.mem_iff.mpr hc),
    fun b hb => hp.count_eq b.chunk ▸ h.counted b hb⟩

theorem recounts_cloneLocks {cs locks : List ChunkId} (h : ∀ c ∈ cs, c ∈ locks) :
    Recounts (fun b => cs.foldl (fun b c => b.cloneLock c) b) locks (cs ++ locks) := by
  induction cs generalizing locks with
  | nil => exact ⟨fun _ => rfl, fun _ => rfl, fun _ => rfl, fun _ hc => hc, fun _ hb => hb⟩
  | cons c cs ih =>
    have htail : ∀ x ∈ cs, x ∈ c :: locks := fun x hx => List.mem_cons_of_mem _ (h x (List.mem_cons_of_mem _ hx))
    have hrest := ih htail
    exact ((recounts_cloneLock (h c (List.mem_cons_self ..))).trans hrest).perm List.perm_middle

namespace ChunkLifetime.World

variable {w w' : World} {a : Action}

theorem foldl_mapChunks (f : ChunkId → BufferChunk → BufferChunk) (w : World) (locks : List ChunkId) :
    locks.foldl (fun w c => w.mapChunks (f c)) w = w.mapChunks fun b => locks.foldl (fun b c => f c b) b := by
  induction locks generalizing w with
  | nil => simp [mapChunks]
  | cons c locks ih =>
    rw [List.foldl_cons, ih]
    simp [mapChunks, Function.comp_def]

/-- The chunks that the dispatcher was sent. -/
def sent (w : World) : List BufferChunk := w.lockedChunks ++ w.garbageBuffers

/-- The buffer owns the chunks of all leases, and then the dispatcher does. -/
def Inv (w : World) : Prop :=
  match w.source with
  | .inUse s => s.Inv ∧ s.encoder.Owned s.leases ∧ w.sent = []
  | .dropped leases => Leftover w.sent leases

/-- The buffer sends the chunks with a lock. -/
theorem leftover_drop {s : Encoding} (h : s.Inv) (ho : s.encoder.Owned s.leases) (hc : s.isOpen = false) :
    Leftover s.encoder.encodeBuffer.drop s.leases := by
  have hlive : s.encoder.live s.leases = s.leases := by rw [BufferEncoder.live, (h.closed hc).1]; rfl
  have hb : s.encoder.encodeBuffer.Inv s.leases := hlive ▸ h.encoder.buffer
  unfold BufferEncoder.Owned at ho
  rw [hlive] at ho
  generalize s.encoder.encodeBuffer = e at hb ho
  have hlocked : Ledger (e.buffer.lock :: e.bufferPool.pool) e.bufferPool.nextChunk e.bufferPool.chunkSize
      (locksOf s.leases) := hb.sound.ledger.setLocked rfl rfl rfl
  have hledger := hlocked.perm (List.perm_append_singleton e.buffer.lock e.bufferPool.pool).symm
  have hsub : e.drop.Sublist (e.bufferPool.pool ++ [e.buffer.lock]) := by
    refine List.filter_sublist.append ?_
    split
    · exact List.nil_sublist _
    · exact List.Sublist.refl _
  refine ⟨⟨_, _, hledger.sublist hsub⟩, fun b hm => ?_, fun c hm => ?_, fun l hl => (hb.held l hl).locked⟩
  · rcases List.mem_append.mp hm with hm | hm
    · exact (BufferChunk.locked_of_free (by simpa using (List.mem_filter.mp hm).2)).1
    · split at hm
      · cases hm
      · obtain rfl := List.mem_singleton.mp hm
        rfl
  · obtain ⟨b, hm', rfl⟩ := ho c hm
    have hcount : 2 ≤ b.refCount := by
      have hcounted := hb.sound.ledger.counted b hm'
      have hlock := List.one_le_count_iff.mpr hm
      omega
    rcases List.mem_cons.mp hm' with rfl | hpool
    · have hfree : e.buffer.lock.free.1 = false := BufferChunk.free_eq_false rfl hcount
      refine List.mem_map.mpr ⟨e.buffer.lock, List.mem_append_right _ ?_, rfl⟩
      rw [hfree]
      exact List.mem_singleton_self _
    · have hlocked : b.locked = true := by
        by_contra hun
        exact hb.sound.idle b hpool (by simpa using hun) hm
      refine List.mem_map_of_mem (List.mem_append_left _ (List.mem_filter.mpr ⟨hpool, ?_⟩))
      rw [BufferChunk.free_eq_false hlocked hcount]
      rfl

theorem step_inv (h : w.Inv) (hok : w.PadFits a) (hs : w.step a = some w') : w'.Inv := by
  obtain ⟨source, lockedChunks, garbageBuffers⟩ := w
  cases source with
  | inUse s =>
    obtain ⟨hi, ho, hsent⟩ := h
    obtain ⟨hlocked, hgarbage⟩ := List.append_eq_nil_iff.mp hsent
    simp only at hlocked hgarbage
    subst hlocked hgarbage
    cases a with
    | encode a =>
      obtain ⟨s', hs', rfl⟩ := Option.map_eq_some_iff.mp hs
      exact ⟨(hi.step hs').1 hok, (Encoding.step_owned hi ho hs').1, rfl⟩
    | dropBuffer =>
      simp only [step] at hs
      split at hs
      · cases hs
      · rename_i hclosed
        obtain rfl := Option.some.inj hs
        have hleft := leftover_drop hi ho (by simpa using hclosed)
        show Leftover (([] ++ s.encoder.encodeBuffer.drop) ++ []) s.leases
        rwa [List.nil_append, List.append_nil]
    | dropLease k => cases hs
    | cloneRef k => cases hs
    | lockedChunk => cases hs
    | reap =>
      obtain rfl := Option.some.inj hs
      exact ⟨hi, ho, rfl⟩
  | dropped leases =>
    have hl : Leftover (lockedChunks ++ garbageBuffers) leases := h
    cases a with
    | encode a => cases hs
    | dropBuffer => cases hs
    | dropLease k =>
      obtain ⟨l, hk, rfl⟩ := Option.map_eq_some_iff.mp hs
      rw [foldl_mapChunks]
      show Leftover (lockedChunks.map _ ++ garbageBuffers.map _) (leases.eraseIdx k)
      rw [← List.map_append]
      exact hl.recount (flatMap_perm_eraseIdx ChunkLease.locks hk) (recounts_dropLocks ..)
        fun l hl => List.mem_of_mem_eraseIdx hl
    | cloneRef k =>
      obtain ⟨l, hk, rfl⟩ := Option.map_eq_some_iff.mp hs
      have hmem := List.mem_of_getElem? hk
      rw [foldl_mapChunks]
      show Leftover (lockedChunks.map _ ++ garbageBuffers.map _) (l :: leases)
      rw [← List.map_append]
      have hlocks : ∀ c ∈ l.locks, c ∈ locksOf leases := fun c hc => List.mem_flatMap.mpr ⟨l, hmem, hc⟩
      refine hl.recount (.refl _) (recounts_cloneLocks hlocks) fun l' hl' => ?_
      exact (List.mem_cons.mp hl').elim (fun he => he ▸ hmem) id
    | lockedChunk =>
      cases lockedChunks with
      | nil => cases hs
      | cons chunk rest =>
        obtain rfl := Option.some.inj hs
        refine hl.perm ?_
        show (chunk :: (rest ++ garbageBuffers)).Perm (rest ++ (garbageBuffers ++ [chunk]))
        rw [← List.append_assoc]
        exact (List.perm_append_singleton ..).symm
    | reap =>
      obtain rfl := Option.some.inj hs
      refine hl.sublist (List.Sublist.append (.refl _) List.filter_sublist) fun b hb hfree => ?_
      rcases List.mem_append.mp hb with hb | hb
      · exact List.mem_append_left _ hb
      · exact List.mem_append_right _ (List.mem_filter.mpr ⟨hb, by simp [hfree]⟩)

/-- A chunk that was allocated and is not owned any more. -/
def Freed (w : World) (c : ChunkId) : Prop :=
  (∀ s, w.source = .inUse s → c < s.encoder.encodeBuffer.bufferPool.nextChunk) ∧
    c ∉ w.owned.map BufferChunk.chunk

theorem map_chunk_foldl {f : ChunkId → BufferChunk → BufferChunk} (hf : ∀ c b, (f c b).chunk = b.chunk)
    (locks : List ChunkId) (chunks : List BufferChunk) :
    (chunks.map fun b => locks.foldl (fun b c => f c b) b).map BufferChunk.chunk = chunks.map BufferChunk.chunk := by
  have hfold : ∀ b, (locks.foldl (fun b c => f c b) b).chunk = b.chunk := by
    induction locks with
    | nil => exact fun b => rfl
    | cons c locks ih => exact fun b => (ih (f c b)).trans (hf c b)
  rw [List.map_map]
  exact List.map_congr_left fun b _ => hfold b

/-- A chunk that was freed does not come back. -/
theorem step_freed {c : ChunkId} (h : w.Inv) (hs : w.step a = some w') (hf : w.Freed c) : w'.Freed c := by
  obtain ⟨source, lockedChunks, garbageBuffers⟩ := w
  obtain ⟨hlt, hnot⟩ := hf
  cases source with
  | inUse s =>
    obtain ⟨hi, ho, hsent⟩ := h
    obtain ⟨hlocked, hgarbage⟩ := List.append_eq_nil_iff.mp hsent
    simp only at hlocked hgarbage
    subst hlocked hgarbage
    have hnot : ∀ b ∈ s.encoder.encodeBuffer.chunks, b.chunk ≠ c := fun b hb hc =>
      hnot (List.mem_map.mpr ⟨b, List.mem_append_left _ hb, hc⟩)
    cases a with
    | encode a =>
      obtain ⟨s', hs', rfl⟩ := Option.map_eq_some_iff.mp hs
      have hfresh := (Encoding.step_owned hi ho hs').2
      refine ⟨fun s₁ hs₁ => ?_, fun hm => ?_⟩
      · cases hs₁
        exact Nat.lt_of_lt_of_le (hlt s rfl) hfresh.next
      · obtain ⟨b', hb', hc⟩ := List.mem_map.mp hm
        have hb' : b' ∈ s'.encoder.encodeBuffer.chunks := by simpa [owned] using hb'
        rcases hfresh.chunks b' hb' with ⟨b, hb, hbc⟩ | hnew
        · exact hnot b hb (hbc.trans hc)
        · exact absurd (hlt s rfl) (Nat.not_lt.mpr (hc ▸ hnew))
    | dropBuffer =>
      simp only [step] at hs
      split at hs
      · cases hs
      · obtain rfl := Option.some.inj hs
        refine ⟨nofun, fun hm => ?_⟩
        obtain ⟨b, hb, hc⟩ := List.mem_map.mp hm
        have hb : b ∈ s.encoder.encodeBuffer.drop := by simpa [owned] using hb
        rcases List.mem_append.mp hb with hb | hb
        · exact hnot b (List.mem_cons_of_mem _ (List.mem_of_mem_filter hb)) hc
        · split at hb
          · cases hb
          · obtain rfl := List.mem_singleton.mp hb
            exact hnot _ (List.mem_cons_self ..) hc
    | dropLease k => cases hs
    | cloneRef k => cases hs
    | lockedChunk => cases hs
    | reap =>
      obtain rfl := Option.some.inj hs
      exact ⟨hlt, fun hm => by
        obtain ⟨b, hb, hc⟩ := List.mem_map.mp hm
        exact hnot b (by simpa [owned, LookupService.retryQueue] using hb) hc⟩
  | dropped leases =>
    have hnot : c ∉ (lockedChunks ++ garbageBuffers).map BufferChunk.chunk := hnot
    cases a with
    | encode a => cases hs
    | dropBuffer => cases hs
    | dropLease k =>
      obtain ⟨l, hk, rfl⟩ := Option.map_eq_some_iff.mp hs
      rw [foldl_mapChunks]
      refine ⟨nofun, fun hm => hnot ?_⟩
      have hm : c ∈ (lockedChunks.map _ ++ garbageBuffers.map _).map BufferChunk.chunk := hm
      rwa [← List.map_append, map_chunk_foldl chunk_dropLock] at hm
    | cloneRef k =>
      obtain ⟨l, hk, rfl⟩ := Option.map_eq_some_iff.mp hs
      rw [foldl_mapChunks]
      refine ⟨nofun, fun hm => hnot ?_⟩
      have hm : c ∈ (lockedChunks.map _ ++ garbageBuffers.map _).map BufferChunk.chunk := hm
      rwa [← List.map_append, map_chunk_foldl chunk_cloneLock] at hm
    | lockedChunk =>
      cases lockedChunks with
      | nil => cases hs
      | cons chunk rest =>
        obtain rfl := Option.some.inj hs
        refine ⟨nofun, fun hm => hnot ?_⟩
        have hm : c ∈ (rest ++ (garbageBuffers ++ [chunk])).map BufferChunk.chunk := hm
        simp only [List.map_append, List.map_cons, List.map_nil, List.mem_append, List.mem_cons] at hm ⊢
        tauto
    | reap =>
      obtain rfl := Option.some.inj hs
      refine ⟨nofun, fun hm => hnot ?_⟩
      obtain ⟨b, hb, hc⟩ := List.mem_map.mp hm
      refine List.mem_map.mpr ⟨b, ?_, hc⟩
      have hb : b ∈ lockedChunks ++ LookupService.retryQueue garbageBuffers := hb
      exact (List.Sublist.append (.refl _) List.filter_sublist).subset hb

/-- The chunks are different, and those of the leases are owned. -/
theorem Inv.owned (h : w.Inv) : (w.owned.map BufferChunk.chunk).Nodup ∧
    ∀ l ∈ w.leases, ∀ sl ∈ l.slices, sl.chunk ∈ w.owned.map BufferChunk.chunk := by
  obtain ⟨source, lockedChunks, garbageBuffers⟩ := w
  cases source with
  | inUse s =>
    obtain ⟨hi, ho, hsent⟩ := h
    have howned : (World.mk (.inUse s) lockedChunks garbageBuffers).owned = s.encoder.encodeBuffer.chunks :=
      (congrArg (s.encoder.encodeBuffer.chunks ++ ·) hsent).trans (List.append_nil _)
    rw [howned]
    have hb := hi.encoder.buffer
    exact ⟨hb.sound.ledger.nodup, fun l hl sl hsl => BufferEncoder.owned_iff.mp ho _ (hb.mem_locksOf hl hsl)⟩
  | dropped leases =>
    have hl : Leftover (lockedChunks ++ garbageBuffers) leases := h
    obtain ⟨next, len, hledger⟩ := hl.ledger
    exact ⟨hledger.nodup, fun l hm sl hsl => hl.owned _ (List.mem_flatMap.mpr ⟨l, hm, hl.slices l hm sl hsl⟩)⟩

theorem withConfig_inv {cfg : PoolConfig} {m : Mem} (h : withConfig cfg m = .ok w) : w.Inv := by
  obtain ⟨s, hs, h⟩ := Panics.bind_eq_ok.mp h
  obtain rfl := Except.ok.inj h
  refine ⟨Encoding.inv_withConfig hs, ?_, rfl⟩
  obtain ⟨e, he, hs⟩ := Panics.bind_eq_ok.mp hs
  obtain rfl := Except.ok.inj hs
  exact fun c hc => by cases hc

/-- In every run in which no padding fails the chunks of all leases are owned, by the buffer or
after its end by the dispatcher, and every chunk once. A chunk that was freed does not come back.
Once the buffer and all leases are dropped and its messages are received, the next collection
frees every chunk. -/
theorem chunks_freed {cfg : PoolConfig} {m : Mem} {w₀ w : World} (h₀ : withConfig cfg m = .ok w₀)
    (h : Reach step PadFits w₀ w) :
    (w.owned.map BufferChunk.chunk).Nodup ∧
      (∀ l ∈ w.leases, ∀ sl ∈ l.slices, sl.chunk ∈ w.owned.map BufferChunk.chunk) ∧
      (∀ c w', w.Freed c → Reach step PadFits w w' → w'.Freed c) ∧
      (w.source = .dropped [] → w.lockedChunks = [] → ∀ w', w.step .reap = some w' → w'.owned = []) := by
  have hinv : w.Inv := h.invariant Inv (withConfig_inv h₀) step_inv
  refine ⟨hinv.owned.1, hinv.owned.2, fun c w' hf hrun => ?_, fun hsource hsent w' hs => ?_⟩
  · exact (hrun.invariant (fun w => w.Inv ∧ w.Freed c) ⟨hinv, hf⟩ fun hi hok hs =>
      ⟨step_inv hi.1 hok hs, step_freed hi.1 hs hi.2⟩).2
  · obtain ⟨source, lockedChunks, garbageBuffers⟩ := w
    simp only at hsource hsent
    subst hsource hsent
    obtain rfl := Option.some.inj hs
    have hl : Leftover garbageBuffers [] := hinv
    show [] ++ ([] ++ LookupService.retryQueue garbageBuffers) = []
    rw [List.nil_append, List.nil_append, LookupService.retryQueue, List.filter_eq_nil_iff]
    intro b hb hfree
    exact List.not_mem_nil ((hl.free_iff hb).mp (by simpa using hfree))

theorem padFits_of_ne (h : a ≠ .encode .pad) : w.PadFits a := by
  unfold PadFits
  split
  · exact fun ha => absurd (congrArg _ ha) h
  · trivial

/-- A message over two chunks, one of which is leased when the buffer is dropped, and is collected
after the lease. -/
def leasedAtEnd : List Action :=
  [.encode .getBufferEncoder, .encode (.putSlice (List.replicate 130 1)), .encode .getChunkLease,
    .encode .dropEncoder, .dropBuffer, .lockedChunk, .lockedChunk, .reap, .dropLease 0]

def small : World := ⟨.inUse .small, [], []⟩

/-- The leases left, after the buffer was dropped. -/
def leasesLeft (w : World) : Option Nat :=
  match w.source with
  | .inUse _ => none
  | .dropped leases => some leases.length

theorem chunks_freed_leased :
    ∃ w w', runActions step small leasedAtEnd = some w ∧ w.garbageBuffers.length = 2 ∧ w.step .reap = some w' ∧
      w'.owned = [] := by
  have hrun : (runActions step small leasedAtEnd).map
      (fun w => (w.leasesLeft, w.garbageBuffers.length, w.lockedChunks)) = some (some 0, 2, []) := by decide +kernel
  have hfits : runMeets step PadFits small leasedAtEnd :=
    runMeets_of_forall (fun a ha w => padFits_of_ne (by rintro rfl; simp [leasedAtEnd] at ha)) _
  obtain ⟨w, hw, he⟩ := Option.map_eq_some_iff.mp hrun
  simp only [Prod.mk.injEq] at he
  obtain ⟨hleft, hlen, hlocked⟩ := he
  have hsource : w.source = .dropped [] := by
    unfold leasesLeft at hleft
    split at hleft
    · cases hleft
    · rename_i leases hs
      rw [hs, List.length_eq_zero_iff.mp (Option.some.inj hleft)]
  have h₀ : withConfig ⟨⟨0⟩, 128, 1, 2⟩ (fun _ _ => 0) = .ok small := rfl
  exact ⟨w, _, hw, hlen, rfl, (chunks_freed h₀ (.run .init hw hfits)).2.2.2 hsource hlocked _ rfl⟩

end ChunkLifetime.World

end Kompact
