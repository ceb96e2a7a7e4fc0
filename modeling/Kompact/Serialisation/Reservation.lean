import Kompact.Serialisation.EncoderWrites

/-!
# Reservations

A reservation that succeeds leaves an encoder with enough room for what was
reserved. `room` counts it: what is left of the active chunk, and a whole chunk
for each one the pool can hand out.

* `room_tryReserve`: each of the three ways to reserve leaves that much room;
* `takes_step`: a call uses up no more room than the bytes it writes, and does
  not fail while there is enough of it;
* `room_dropLocks`: leases that are released only make more room.

`reservation_honoured` puts them together for a whole sequence of calls. It
needs nothing but that all chunks have the size of the pool's and the offsets
are inside the active one (`Regular`), which holds in every run, also after a
padding that has failed (`regular_reach`).
-/

namespace Kompact

/-! ## The pool -/

namespace BufferPool

variable {p p' : BufferPool} {b : BufferChunk} {n size : Nat}

/-- Every chunk has the size that the pool asks its allocator for. -/
def Uniform (p : BufferPool) : Prop := ∀ b ∈ p.pool, b.len = p.chunkSize

/-- A chunk that is handed out has this size and is not locked. -/
theorem Uniform.tryReclaim (h : p.Uniform) :
    p.tryReclaim.2.Uniform ∧ p.tryReclaim.2.chunkSize = p.chunkSize ∧
      ∀ b, p.tryReclaim.1 = some b → b.len = p.chunkSize ∧ b.locked = false := by
  have hr := reclaims p
  generalize p.tryReclaim.1 = o at *
  generalize p.tryReclaim.2 = p' at *
  cases hr with
  | @idle pre post b hp hpre hb =>
    obtain ⟨-, hlen, -, hun⟩ := free_spec b
    refine ⟨fun x hx => h x ?_, rfl, fun b' hb' => ?_⟩
    · rw [hp]
      rcases List.mem_append.mp hx with hx | hx
      · exact List.mem_append_right _ (List.mem_cons_of_mem _ hx)
      · exact List.mem_append_left _ hx
    · obtain rfl := Option.some.inj hb'
      refine ⟨hlen.trans (h b ?_), (hun hb).1⟩
      rw [hp]
      exact List.mem_append_right _ (List.mem_cons_self ..)
  | allocated hnone hlt =>
    refine ⟨h, rfl, fun b' hb' => ?_⟩
    obtain rfl := Option.some.inj hb'
    exact ⟨rfl, rfl⟩
  | exhausted hnone hge => exact ⟨h, rfl, fun b' hb' => by cases hb'⟩

/-- The loop of a reservation keeps the size, and takes out what is not locked. -/
theorem Uniform.reserveLoop {reserved : List BufferChunk} (h : p.Uniform)
    (hr : ∀ b ∈ reserved, b.len = p.chunkSize ∧ b.locked = false) :
    (reserveLoop n p reserved).2.Uniform ∧ (BufferPool.reserveLoop n p reserved).2.chunkSize = p.chunkSize ∧
      ∀ rs, (BufferPool.reserveLoop n p reserved).1 = some rs → ∀ b ∈ rs, b.len = p.chunkSize ∧ b.locked = false := by
  induction n generalizing p reserved with
  | zero =>
    refine ⟨h, rfl, fun rs hrs => ?_⟩
    obtain rfl := Option.some.inj hrs
    exact hr
  | succ n ih =>
    obtain ⟨hu, hsize, hb⟩ := h.tryReclaim
    rw [BufferPool.reserveLoop]
    generalize p.tryReclaim = t at *
    obtain ⟨o, p'⟩ := t
    simp only at *
    cases o with
    | none => exact ⟨hu, hsize, fun rs hrs => by cases hrs⟩
    | some b =>
      rw [← hsize]
      refine ih hu fun x hx => ?_
      rw [hsize]
      rcases List.mem_append.mp hx with hx | hx
      · exact hr x hx
      · rw [List.mem_singleton.mp hx]
        exact hb b rfl

theorem free_of_unlocked (h : b.locked = false) : b.free.1 = true := by
  unfold BufferChunk.free
  rw [h]
  rfl

/-- The chunks that are taken out go back to where they are handed out from. -/
theorem Uniform.tryReserve (h : p.Uniform) (size : Nat) :
    (p.tryReserve size).2.Uniform ∧ (p.tryReserve size).2.chunkSize = p.chunkSize ∧
      ((p.tryReserve size).1 = .ok () → p.requiredBuffers size ≤ (p.tryReserve size).2.available) := by
  unfold BufferPool.tryReserve
  simp only
  by_cases hbig : p.maxPoolSize < p.requiredBuffers size
  · rw [if_pos hbig]
    exact ⟨h, rfl, fun hr => by cases hr⟩
  rw [if_neg hbig]
  by_cases hfits : p.requiredBuffers size ≤ p.maxPoolSize - p.poolSize
  · rw [if_pos hfits]
    exact ⟨h, rfl, fun _ => Nat.le_trans hfits (Nat.le_add_left ..)⟩
  rw [if_neg hfits]
  have hfound := reserveLoop_found (p.requiredBuffers size) p []
  obtain ⟨hu, hsize, hrs⟩ := @Uniform.reserveLoop p (p.requiredBuffers size) [] h (fun b hb => by cases hb)
  generalize BufferPool.reserveLoop (p.requiredBuffers size) p [] = t at *
  obtain ⟨o, p'⟩ := t
  simp only at *
  cases o with
  | none => exact ⟨hu, hsize, fun hr => by cases hr⟩
  | some rs =>
    refine ⟨fun b hb => ?_, hsize, fun _ => ?_⟩
    · show b.len = p'.chunkSize
      rcases List.mem_append.mp hb with hb | hb
      · rw [hsize]
        exact (hrs rs rfl b (List.mem_reverse.mp hb)).1
      · exact hu b hb
    · have hlen : rs.length = p.requiredBuffers size := by
        split at hfound
        · simpa using hfound
        · cases hfound
      have hall : rs.reverse.countP (·.free.1) = rs.length := by
        rw [List.countP_reverse, List.countP_eq_length]
        exact fun b hb => free_of_unlocked (hrs rs rfl b hb).2
      show _ ≤ (rs.reverse ++ p'.pool).countP (·.free.1) + _
      rw [List.countP_append, hall, hlen, Nat.add_assoc]
      exact Nat.le_add_right ..

/-- The chunks that are required have room for all the bytes. -/
theorem le_requiredBuffers (hc : 0 < p.chunkSize) (size : Nat) : size ≤ p.requiredBuffers size * p.chunkSize := by
  have hdiv := Nat.div_add_mod (size + p.chunkSize - 1) p.chunkSize
  have hmod := Nat.mod_lt (size + p.chunkSize - 1) hc
  unfold requiredBuffers
  rw [Nat.mul_comm]
  omega

theorem Uniform.returnBuffer (h : p.Uniform) (hb : b.len = p.chunkSize) : (p.returnBuffer b).Uniform := by
  intro x hx
  rcases List.mem_append.mp hx with hx | hx
  · exact h x hx
  · rw [List.mem_singleton.mp hx]
    exact hb

/-- Nothing that is available is lost when a chunk is returned. -/
theorem available_returnBuffer (p : BufferPool) (b : BufferChunk) : p.available ≤ (p.returnBuffer b).available := by
  show _ ≤ (p.pool ++ [b.lock]).countP (·.free.1) + (p.maxPoolSize - p.poolSize)
  rw [List.countP_append]
  unfold available freeable
  omega

/-- A lock less, and a chunk is available if it was. -/
theorem free_dropLock (c : ChunkId) (h : b.free.1 = true) : (b.dropLock c).free.1 = true := by
  unfold BufferChunk.dropLock
  by_cases hc : b.chunk = c ∧ 1 < b.refCount
  · rw [if_pos hc]
    unfold BufferChunk.free at *
    by_cases hl : b.locked = true
    · rw [if_pos hl] at h ⊢
      by_cases hr : b.refCount < 2
      · exact absurd hc.2 (by omega)
      · rw [if_neg hr] at h
        cases h
    · rw [if_neg hl]
  · rw [if_neg hc]
    exact h

end BufferPool

/-! ## The encode buffer -/

namespace EncodeBuffer

variable {e e' : EncodeBuffer}

/-- The offsets are inside the active chunk, which is not locked, and all chunks have the same
accepted size. -/
structure Regular (e : EncodeBuffer) : Prop where
  read : e.readOffset ≤ e.buffer.len
  write : e.writeOffset ≤ e.buffer.len
  active : e.buffer.locked = false
  size : e.buffer.len = e.bufferPool.chunkSize
  uniform : e.bufferPool.Uniform
  roomy : 128 ≤ e.bufferPool.chunkSize

/-- The bytes that can be written without a chunk being returned. -/
def room (e : EncodeBuffer) : Nat := e.writeableLen + e.bufferPool.available * e.bufferPool.chunkSize

theorem Regular.swapBuffer (h : e.Regular) : e.swapBuffer.2.Regular := by
  obtain ⟨hu, hsize, hb⟩ := h.uniform.tryReclaim
  unfold EncodeBuffer.swapBuffer BufferPool.getBuffer
  generalize e.bufferPool.tryReclaim = t at *
  obtain ⟨o, p⟩ := t
  simp only at *
  cases o with
  | none => exact ⟨h.read, h.write, h.active, h.size.trans hsize.symm, hu, hsize ▸ h.roomy⟩
  | some b =>
    obtain ⟨hlen, hun⟩ := hb b rfl
    refine ⟨Nat.zero_le _, Nat.zero_le _, hun, hlen.trans hsize.symm, hu.returnBuffer ?_, ?_⟩
    · exact h.size.trans hsize.symm
    · show 128 ≤ p.chunkSize
      rw [hsize]
      exact h.roomy

theorem Regular.chunkSize_swapBuffer (h : e.Regular) :
    e.swapBuffer.2.bufferPool.chunkSize = e.bufferPool.chunkSize := by
  obtain ⟨-, hsize, -⟩ := h.uniform.tryReclaim
  unfold EncodeBuffer.swapBuffer BufferPool.getBuffer
  generalize e.bufferPool.tryReclaim = t at *
  obtain ⟨o, p⟩ := t
  cases o with
  | none => exact hsize
  | some b => exact hsize

/-- A swap takes one of the chunks that are available. -/
theorem Regular.room_swapBuffer (h : e.Regular) (ha : 0 < e.bufferPool.available) :
    e.bufferPool.getBuffer.1.isSome = true ∧ e.swapBuffer.2.writeOffset = 0 ∧
      e.bufferPool.available * e.bufferPool.chunkSize ≤ e.swapBuffer.2.room := by
  obtain ⟨hsome, hav, -⟩ := e.bufferPool.tryReclaim_spec
  obtain ⟨-, hsize, hb⟩ := h.uniform.tryReclaim
  unfold EncodeBuffer.swapBuffer BufferPool.getBuffer
  generalize e.bufferPool.tryReclaim = t at *
  obtain ⟨o, p⟩ := t
  simp only at *
  cases o with
  | none => simp [ha] at hsome
  | some b =>
    refine ⟨rfl, rfl, ?_⟩
    show _ ≤ (b.len - 0) + (p.returnBuffer e.buffer.lock).available * p.chunkSize
    rw [(hb b rfl).1, hsize]
    have hle := p.available_returnBuffer e.buffer.lock
    rw [hav] at hle
    calc e.bufferPool.available * e.bufferPool.chunkSize
        = e.bufferPool.chunkSize + (e.bufferPool.available - 1) * e.bufferPool.chunkSize := by
          rw [Nat.sub_mul, Nat.one_mul, Nat.add_sub_cancel']
          exact Nat.le_mul_of_pos_left _ ha
      _ ≤ e.bufferPool.chunkSize - 0 + (p.returnBuffer e.buffer.lock).available * e.bufferPool.chunkSize :=
          Nat.add_le_add_left (Nat.mul_le_mul_right _ hle) _

theorem Regular.getChunkLease {lease : Option ChunkLease} (h : e.Regular)
    (hg : e.getChunkLease = .ok (lease, e')) : e'.Regular := by
  obtain ⟨-, hwo, hro, hlen, hpool⟩ := BufferEncoder.getChunkLease_keeps hg
  have hun : e'.buffer.locked = e.buffer.locked := by
    unfold EncodeBuffer.getChunkLease at hg
    split at hg
    · cases hg
    simp only at hg
    split at hg
    · obtain ⟨⟨l, b⟩, hl, hg⟩ := Panics.bind_eq_ok.mp hg
      obtain ⟨-, rfl⟩ := Prod.mk.inj (Except.ok.inj hg)
      obtain ⟨s, -, hs⟩ := Panics.bind_eq_ok.mp hl
      rw [← (Prod.mk.inj (Except.ok.inj hs)).2]
    · obtain ⟨-, rfl⟩ := Prod.mk.inj (Except.ok.inj hg)
      rfl
  refine ⟨?_, ?_, hun.trans h.active, ?_, hpool ▸ h.uniform, hpool ▸ h.roomy⟩
  · rw [hro, hlen]
    exact h.write
  · rw [hwo, hlen]
    exact h.write
  · rw [hlen, hpool]
    exact h.size

/-- A lease is taken where the offsets are in order. -/
theorem Regular.getChunkLease_ok (h : e.Regular) (ho : e.readOffset ≤ e.writeOffset) :
    ∃ lease e', e.getChunkLease = .ok (lease, e') := by
  unfold EncodeBuffer.getChunkLease
  rw [if_neg (Nat.not_lt.mpr ho)]
  by_cases hpos : 0 < e.writeOffset - e.readOffset
  · simp only [if_pos hpos]
    have hlo : e.writeOffset - (e.writeOffset - e.readOffset) < e.writeOffset := by omega
    rw [DecodeBuffer.getLease_spec hlo h.write h.active]
    exact ⟨_, _, rfl⟩
  · simp only [if_neg hpos]
    exact ⟨none, e, rfl⟩

/-- A change of the reference counts, for every chunk. -/
theorem Regular.mapChunks {f : BufferChunk → BufferChunk} (h : e.Regular) (hlen : ∀ b, (f b).len = b.len)
    (hlock : ∀ b, (f b).locked = b.locked) : (e.mapChunks f).Regular where
  read := by
    show e.readOffset ≤ (f e.buffer).len
    rw [hlen]
    exact h.read
  write := by
    show e.writeOffset ≤ (f e.buffer).len
    rw [hlen]
    exact h.write
  active := (hlock _).trans h.active
  size := (hlen _).trans h.size
  uniform b hb := by
    obtain ⟨b₀, hb₀, rfl⟩ := List.mem_map.mp hb
    exact (hlen b₀).trans (h.uniform b₀ hb₀)
  roomy := h.roomy

theorem Regular.dropLocks (h : e.Regular) (locks : List ChunkId) : (e.dropLocks locks).Regular := by
  induction locks generalizing e with
  | nil => exact h
  | cons c locks ih =>
    refine ih (h.mapChunks (fun b => ?_) fun b => ?_)
    · exact (recounts_dropLock c []).len b
    · exact (recounts_dropLock c []).locked b

theorem Regular.cloneLocks (h : e.Regular) (locks : List ChunkId) : (e.cloneLocks locks).Regular := by
  induction locks generalizing e with
  | nil => exact h
  | cons c locks ih =>
    refine ih (h.mapChunks (fun b => ?_) fun b => ?_)
    · exact (recounts_cloneLock (List.mem_singleton_self c)).len b
    · exact (recounts_cloneLock (List.mem_singleton_self c)).locked b

/-- Releasing leases makes more room, if anything. -/
theorem room_dropLocks (e : EncodeBuffer) (locks : List ChunkId) : e.room ≤ (e.dropLocks locks).room := by
  induction locks generalizing e with
  | nil => exact Nat.le_refl _
  | cons c locks ih =>
    refine Nat.le_trans ?_ (ih (e.mapChunks (.dropLock c)))
    have hfree : e.bufferPool.freeable ≤ (e.bufferPool.pool.map (BufferChunk.dropLock c)).countP (·.free.1) := by
      rw [List.countP_map]
      exact List.countP_mono_left fun b _ hb => BufferPool.free_dropLock c hb
    have hlen : (e.buffer.dropLock c).len = e.buffer.len := (recounts_dropLock c []).len e.buffer
    show e.buffer.len - e.writeOffset + (e.bufferPool.freeable + (e.bufferPool.maxPoolSize - e.bufferPool.poolSize)) *
        e.bufferPool.chunkSize ≤ (e.buffer.dropLock c).len - e.writeOffset +
        ((e.bufferPool.pool.map (BufferChunk.dropLock c)).countP (·.free.1) +
          (e.bufferPool.maxPoolSize - e.bufferPool.poolSize)) * e.bufferPool.chunkSize
    rw [hlen]
    exact Nat.add_le_add_left (Nat.mul_le_mul_right _ (Nat.add_le_add_right hfree _)) _

end EncodeBuffer

/-! ## The encoder -/

namespace BufferEncoder

open EncodeBuffer (Regular)

variable {w w' : BufferEncoder}

theorem regular_chainAndSwap {r : Except SerError Unit} (h : w.encodeBuffer.Regular)
    (hs : w.chainAndSwap = .ok (r, w')) :
    w'.encodeBuffer.Regular := by
  obtain ⟨lease, e, hget, -, he, -⟩ := chainAndSwap_inv hs
  rw [he]
  exact (h.getChunkLease hget).swapBuffer

theorem regular_chainAndSwapLater (h : w.encodeBuffer.Regular) (hs : w.chainAndSwapLater = .ok w') :
    w'.encodeBuffer.Regular := by
  obtain ⟨⟨r, w₁⟩, hswap, hs⟩ := Panics.bind_eq_ok.mp hs
  have hr := regular_chainAndSwap h hswap
  cases r with
  | ok u =>
    obtain rfl := Except.ok.inj hs
    exact hr
  | error err =>
    obtain rfl := Except.ok.inj hs
    exact hr

theorem regular_setWriteOffset {n : Nat} (h : w.encodeBuffer.Regular) (hn : n ≤ w.encodeBuffer.buffer.len) :
    (w.setWriteOffset n).encodeBuffer.Regular :=
  ⟨h.read, hn, h.active, h.size, h.uniform, h.roomy⟩

/-- Also where a padding fails the offset is inside the chunk. -/
theorem regular_advanceMut {cnt : Nat} (h : w.encodeBuffer.Regular)
    (hc : cnt ≤ w.encodeBuffer.writeableLen ∨ cnt ≤ 128) (hs : w.advanceMut cnt = .ok w') :
    w'.encodeBuffer.Regular := by
  unfold advanceMut at hs
  split at hs
  · obtain rfl := Except.ok.inj hs
    exact h
  simp only at hs
  have hw := h.write
  have hlen : w.encodeBuffer.writeableLen = w.encodeBuffer.buffer.len - w.encodeBuffer.writeOffset := rfl
  split at hs
  · obtain ⟨w₁, hswap, hs⟩ := Panics.bind_eq_ok.mp hs
    obtain rfl := Except.ok.inj hs
    have h₁ := regular_chainAndSwapLater (regular_setWriteOffset h (by omega)) hswap
    refine regular_setWriteOffset h₁ ?_
    have := h₁.size
    have := h₁.roomy
    omega
  · obtain rfl := Except.ok.inj hs
    exact regular_setWriteOffset h (by omega)

theorem regular_putLoop {fuel : Nat} {src : List UInt8} (h : w.encodeBuffer.Regular)
    (hs : putLoop fuel w src = .ok w') : w'.encodeBuffer.Regular := by
  induction fuel generalizing w src with
  | zero =>
    cases src with
    | nil =>
      obtain rfl := Except.ok.inj hs
      exact h
    | cons b src => cases hs
  | succ fuel ih =>
    by_cases he : w.serError.isSome = true
    · rw [(putLoop_of_error fuel src he).1] at hs
      obtain rfl := Except.ok.inj hs
      exact h
    by_cases hne : src = []
    · subst hne
      obtain rfl := Except.ok.inj hs
      exact h
    rw [putLoop_succ (by simpa using he) hne] at hs
    obtain ⟨w₁, hadv, hs⟩ := Panics.bind_eq_ok.mp hs
    have h₁ : w₁.encodeBuffer.Regular :=
      regular_advanceMut (w := w.copyIn _) h (.inl (Nat.min_le_left ..)) hadv
    simp only at hs
    split at hs
    · obtain ⟨w₂, hswap, hs⟩ := Panics.bind_eq_ok.mp hs
      exact ih (regular_chainAndSwapLater h₁ hswap) hs
    · exact ih h₁ hs

theorem regular_put {chunks : List (List UInt8)} (h : w.encodeBuffer.Regular) (hs : w.put chunks = .ok w') :
    w'.encodeBuffer.Regular := by
  induction chunks generalizing w with
  | nil =>
    obtain rfl := Except.ok.inj hs
    exact h
  | cons chunk chunks ih =>
    rw [put] at hs
    split at hs
    · obtain rfl := Except.ok.inj hs
      exact h
    · obtain ⟨w₁, hput, hs⟩ := Panics.bind_eq_ok.mp hs
      exact ih (regular_putLoop h hput) hs

theorem regular_tryReserve {size : Nat} {r : Except SerError Unit} (h : w.encodeBuffer.Regular)
    (hs : w.tryReserve size = .ok (r, w')) : w'.encodeBuffer.Regular := by
  unfold tryReserve at hs
  simp only at hs
  split at hs
  · obtain ⟨-, rfl⟩ := Prod.mk.inj (Except.ok.inj hs)
    exact h
  split at hs
  · exact regular_chainAndSwap h hs
  · obtain ⟨-, rfl⟩ := Prod.mk.inj (Except.ok.inj hs)
    obtain ⟨hu, hsize, -⟩ := h.uniform.tryReserve
      (size - (w.encodeBuffer.buffer.len - w.encodeBuffer.writeOffset))
    exact ⟨h.read, h.write, h.active, h.size.trans hsize.symm, hu, hsize ▸ h.roomy⟩

theorem regular_getChunkLease {r : Except SerError ChunkLease} (h : w.encodeBuffer.Regular)
    (hs : w.getChunkLease = .ok (r, w')) : w'.encodeBuffer.Regular := by
  unfold getChunkLease at hs
  split at hs
  · obtain ⟨-, rfl⟩ := Prod.mk.inj (Except.ok.inj hs)
    exact h
  obtain ⟨⟨lease, e⟩, hget, hs⟩ := Panics.bind_eq_ok.mp hs
  have he := h.getChunkLease hget
  simp only at hs
  split at hs
  all_goals
    obtain ⟨-, rfl⟩ := Prod.mk.inj (Except.ok.inj hs)
    exact he

theorem regular_getBufferEncoder {m : Mem} {e : EncodeBuffer} (h : e.Regular) :
    (∀ w, e.getBufferEncoder m = .ok (.ok w) → w.encodeBuffer.Regular) ∧
      ∀ err e', e.getBufferEncoder m = .ok (.error (err, e')) → e'.Regular := by
  have hsw := h.swapBuffer
  have hnew : ∀ {e : EncodeBuffer} {x : Except (SerError × EncodeBuffer) BufferEncoder}, e.Regular →
      (BufferEncoder.new m e).map .ok = .ok x → ∃ w, x = .ok w ∧ w.encodeBuffer.Regular := by
    intro e x he hx
    unfold BufferEncoder.new at hx
    split at hx
    · exact ⟨_, (Except.ok.inj hx).symm, he⟩
    · cases hx
  have hall : ∀ x, e.getBufferEncoder m = .ok x → (∃ w, x = .ok w ∧ w.encodeBuffer.Regular) ∨
      ∃ err e', x = .error (err, e') ∧ e'.Regular := by
    intro x hx
    unfold EncodeBuffer.getBufferEncoder at hx
    split at hx
    · generalize e.swapBuffer = t at *
      obtain ⟨r, e'⟩ := t
      cases r with
      | ok u => exact .inl (hnew hsw hx)
      | error err => exact .inr ⟨err, e', (Except.ok.inj hx).symm, hsw⟩
    · exact .inl (hnew h hx)
  constructor
  · intro w hw
    rcases hall _ hw with ⟨w', hx, hr⟩ | ⟨err, e', hx, -⟩
    · rw [Except.ok.inj hx]
      exact hr
    · cases hx
  · intro err e' he
    rcases hall _ he with ⟨w', hx, -⟩ | ⟨err', e'', hx, hr⟩
    · cases hx
    · rw [(Prod.mk.inj (Except.error.inj hx)).2]
      exact hr

end BufferEncoder

namespace Encoding

variable {s s' : Encoding} {a : Action}

/-- The rest of a step that has not panicked. -/
theorem andThen_eq_some {α : Type} {r : Panics α} {f : α → Encoding} (h : andThen r f = some s') :
    ∃ x, r = .ok x ∧ s' = f x := by
  cases r with
  | error err => cases h
  | ok x => exact ⟨x, rfl, (Option.some.inj h).symm⟩

/-- Every step keeps the shape of the buffer. -/
theorem regular_step (h : s.encoder.encodeBuffer.Regular) (hs : s.step a = some s') :
    s'.encoder.encodeBuffer.Regular := by
  cases a with
  | getBufferEncoder =>
    rw [step] at hs
    split at hs
    · cases hs
    obtain ⟨x, hx, rfl⟩ := andThen_eq_some hs
    cases x with
    | ok w => exact (BufferEncoder.regular_getBufferEncoder h).1 w hx
    | error err => exact (BufferEncoder.regular_getBufferEncoder h).2 err.1 err.2 hx
  | put chunks =>
    rw [step] at hs
    split at hs
    · obtain ⟨w, hw, rfl⟩ := andThen_eq_some hs
      exact BufferEncoder.regular_put h hw
    · cases hs
  | putSlice src =>
    rw [step] at hs
    split at hs
    · obtain ⟨w, hw, rfl⟩ := andThen_eq_some hs
      exact BufferEncoder.regular_putLoop h hw
    · cases hs
  | pad =>
    rw [step] at hs
    split at hs
    · obtain ⟨w, hw, rfl⟩ := andThen_eq_some hs
      exact BufferEncoder.regular_advanceMut h (.inr (by decide)) hw
    · cases hs
  | tryReserve size =>
    rw [step] at hs
    split at hs
    · obtain ⟨⟨r, w⟩, hw, rfl⟩ := andThen_eq_some hs
      exact BufferEncoder.regular_tryReserve h hw
    · cases hs
  | getChunkLease =>
    rw [step] at hs
    split at hs
    · obtain ⟨⟨r, w⟩, hw, rfl⟩ := andThen_eq_some hs
      have hr := BufferEncoder.regular_getChunkLease h hw
      cases r with
      | ok l => exact hr
      | error err => exact hr
    · cases hs
  | dropEncoder =>
    rw [step] at hs
    split at hs
    · obtain rfl := Option.some.inj hs
      have haligned : EncodeBuffer.Regular
          { s.encoder.encodeBuffer with readOffset := s.encoder.encodeBuffer.writeOffset } :=
        ⟨h.write, h.write, h.active, h.size, h.uniform, h.roomy⟩
      exact haligned.dropLocks _
    · cases hs
  | dropLease k =>
    rw [step] at hs
    split at hs
    · obtain rfl := Option.some.inj hs
      exact h.dropLocks _
    · cases hs
  | cloneRef k =>
    rw [step] at hs
    split at hs
    · obtain rfl := Option.some.inj hs
      exact h.cloneLocks _
    · cases hs

/-- In every run of an encode buffer, also one in which a padding fails. -/
theorem regular_reach {cfg : PoolConfig} {m : Mem} {s₀ : Encoding} (h₀ : withConfig cfg m = .ok s₀)
    (h : Reach step (fun _ _ => True) s₀ s) : s.encoder.encodeBuffer.Regular := by
  refine h.invariant (fun s => s.encoder.encodeBuffer.Regular) ?_ fun hr _ hs => regular_step hr hs
  have hi := inv_withConfig h₀
  have hb := hi.encoder.buffer
  refine ⟨hb.offsets.trans hb.bound, hb.bound, hb.active, hb.size, fun b hmem => ?_, hi.roomy⟩
  exact hb.sound.ledger.size b (List.mem_append_right _ hmem)

end Encoding

/-! ## Room -/

namespace BufferEncoder

variable {w w' : BufferEncoder} {n : Nat}

def room (w : BufferEncoder) : Nat := w.encodeBuffer.room

/-- `n` bytes were written, without an error. -/
structure Takes (w : BufferEncoder) (n : Nat) (w' : BufferEncoder) : Prop where
  regular : w'.encodeBuffer.Regular
  error : w'.serError = none
  room : w.room ≤ w'.room + n

theorem Takes.trans {w'' : BufferEncoder} {k : Nat} (h : w.Takes n w') (h' : w'.Takes k w'') : w.Takes (n + k) w'' :=
  ⟨h'.regular, h'.error, by have := h.room; have := h'.room; omega⟩

/-- What is written into the active chunk. -/
theorem takes_setWriteOffset (h : w.encodeBuffer.Regular) (he : w.serError = none) (hn : n ≤ w.remainingMut) :
    w.Takes n (w.setWriteOffset (w.encodeBuffer.writeOffset + n)) := by
  have hw := h.write
  have hrem : w.remainingMut = w.encodeBuffer.buffer.len - w.encodeBuffer.writeOffset := rfl
  refine ⟨regular_setWriteOffset h (by omega), he, ?_⟩
  show w.encodeBuffer.buffer.len - w.encodeBuffer.writeOffset + _ ≤
    w.encodeBuffer.buffer.len - (w.encodeBuffer.writeOffset + n) + _ + n
  simp only [setWriteOffset]
  omega

/-- A swap of a chunk that is full, while the pool has another one. -/
theorem takes_chainAndSwapLater (h : w.encodeBuffer.Regular) (he : w.serError = none) (hfull : w.remainingMut = 0)
    (hroom : 0 < w.room) :
    ∃ w', w.chainAndSwapLater = .ok w' ∧ w.Takes 0 w' ∧ w'.encodeBuffer.writeOffset = 0 := by
  have hrem : w.encodeBuffer.buffer.len - w.encodeBuffer.writeOffset = 0 := hfull
  have hread := h.read
  obtain ⟨lease, e, hget⟩ := h.getChunkLease_ok (by omega)
  have hpool := (getChunkLease_keeps hget).2.2.2.2
  have hroom' : w.room = w.encodeBuffer.bufferPool.available * w.encodeBuffer.bufferPool.chunkSize := by
    show w.encodeBuffer.buffer.len - w.encodeBuffer.writeOffset + _ = _
    rw [hrem, Nat.zero_add]
  have hav : 0 < e.bufferPool.available := by
    rw [hpool]
    exact Nat.pos_of_ne_zero fun h0 => by rw [hroom', h0] at hroom; omega
  obtain ⟨hsome, hzero, hle⟩ := (h.getChunkLease hget).room_swapBuffer hav
  obtain ⟨r, w', hswap⟩ : ∃ r w', w.chainAndSwap = .ok (r, w') := by
    unfold chainAndSwap
    rw [hget]
    exact ⟨_, _, rfl⟩
  obtain ⟨lease', e', hget', hr, hbuf, herr⟩ := chainAndSwap_inv hswap
  rw [hget] at hget'
  obtain ⟨-, rfl⟩ := Prod.mk.inj (Except.ok.inj hget')
  have hlater : w.chainAndSwapLater = .ok w' := by
    unfold chainAndSwapLater
    rw [hswap, hr, (swapBuffer_ok_iff e).mpr hsome]
    rfl
  refine ⟨w', hlater, ⟨regular_chainAndSwapLater h hlater, herr.trans he, ?_⟩, by rw [hbuf]; exact hzero⟩
  rw [Nat.add_zero, hroom', BufferEncoder.room, hbuf, ← hpool]
  exact hle

/-- The loop writes all it is given while there is room for it. -/
theorem takes_putLoop {fuel : Nat} {src : List UInt8} (h : w.encodeBuffer.Regular) (he : w.serError = none)
    (hroom : src.length ≤ w.room) (hf : src ≠ [] → src.length + (if w.remainingMut = 0 then 1 else 0) ≤ fuel) :
    ∃ w', putLoop fuel w src = .ok w' ∧ w.Takes src.length w' := by
  refine putLoop_rule (P := fun v rest => ∃ n, n + rest.length = src.length ∧ w.Takes n v)
    ?_ ?_ ?_ ?_ ⟨0, Nat.zero_add _, h, he, Nat.le_refl _⟩ hf
  · rintro v ⟨n, hn, hv⟩
    rwa [← hn]
  · rintro v rest ⟨n, hn, hv⟩ herr
    rw [hv.error] at herr
    cases herr
  · rintro v rest cnt ⟨n, hn, hv⟩ he hcnt hle
    have hcopied := takes_setWriteOffset (w := v.copyIn (rest.take cnt)) hv.regular he hcnt
    have htakes : v.Takes cnt ((v.copyIn (rest.take cnt)).setWriteOffset (v.encodeBuffer.writeOffset + cnt)) :=
      ⟨hcopied.regular, hcopied.error, hcopied.room⟩
    exact ⟨n + cnt, by rw [List.length_drop]; omega, hv.trans htakes⟩
  · -- the pool has another chunk
    rintro v rest ⟨n, hn, hv⟩ he hfull hne
    have hpos : 0 < rest.length := List.length_pos_iff.mpr hne
    have hroom' := hv.room
    obtain ⟨v', hswap, htakes, hzero⟩ := takes_chainAndSwapLater hv.regular he hfull (by omega)
    refine ⟨v', hswap, ⟨n, hn, hv.trans htakes⟩, fun _ => ?_⟩
    show 0 < v'.encodeBuffer.buffer.len - v'.encodeBuffer.writeOffset
    rw [hzero, htakes.regular.size]
    have := htakes.regular.roomy
    omega

theorem takes_putSlice {src : List UInt8} (h : w.encodeBuffer.Regular) (he : w.serError = none)
    (hroom : src.length ≤ w.room) : ∃ w', w.putSlice src = .ok w' ∧ w.Takes src.length w' := by
  refine takes_putLoop h he hroom fun _ => ?_
  split <;> omega

theorem takes_put {chunks : List (List UInt8)} (h : w.encodeBuffer.Regular) (he : w.serError = none)
    (hroom : chunks.flatten.length ≤ w.room) : ∃ w', w.put chunks = .ok w' ∧ w.Takes chunks.flatten.length w' := by
  induction chunks generalizing w with
  | nil => exact ⟨w, rfl, h, he, Nat.le_refl _⟩
  | cons chunk chunks ih =>
    rw [List.flatten_cons, List.length_append] at hroom ⊢
    have hfits : chunk.length ≤ w.room := by omega
    obtain ⟨w₁, hput, h₁⟩ := takes_putSlice h he hfits
    have hroom₁ := h₁.room
    obtain ⟨w₂, hrest, h₂⟩ := ih h₁.regular h₁.error (by omega)
    refine ⟨w₂, ?_, h₁.trans h₂⟩
    rw [put, if_neg (by rw [he]; decide), hput]
    exact hrest

/-- Padding that goes on in a second chunk. -/
theorem takes_pad {cnt : Nat} (h : w.encodeBuffer.Regular) (he : w.serError = none) (hc : cnt ≤ 128)
    (hroom : cnt ≤ w.room) : ∃ w', w.pad cnt = .ok w' ∧ w.Takes cnt w' := by
  have hne : ¬ w.serError.isSome = true := by rw [he]; decide
  by_cases hlt : w.remainingMut < cnt
  · have hfill := takes_setWriteOffset h he (Nat.le_refl w.remainingMut)
    have hfull : (w.setWriteOffset (w.encodeBuffer.writeOffset + w.remainingMut)).remainingMut = 0 := by
      show w.encodeBuffer.buffer.len -
        (w.encodeBuffer.writeOffset + (w.encodeBuffer.buffer.len - w.encodeBuffer.writeOffset)) = 0
      omega
    have hroom₁ := hfill.room
    obtain ⟨w₁, hswap, h₁, hzero⟩ := takes_chainAndSwapLater hfill.regular hfill.error hfull (by omega)
    have hsize : cnt - w.remainingMut ≤ w₁.remainingMut := by
      show _ ≤ w₁.encodeBuffer.buffer.len - w₁.encodeBuffer.writeOffset
      rw [hzero, h₁.regular.size]
      have := h₁.regular.roomy
      omega
    have h₂ := takes_setWriteOffset h₁.regular h₁.error hsize
    rw [hzero, Nat.zero_add] at h₂
    refine ⟨w₁.setWriteOffset (cnt - w.remainingMut), ?_, ?_⟩
    · rw [pad, advanceMut, if_neg hne]
      have hlt' : w.encodeBuffer.writeableLen < cnt := hlt
      simp only [if_pos hlt']
      rw [show w.encodeBuffer.writeableLen = w.remainingMut from rfl, hswap]
      rfl
    · have hall := (hfill.trans h₁).trans h₂
      rwa [show w.remainingMut + 0 + (cnt - w.remainingMut) = cnt by omega] at hall
  · refine ⟨w.setWriteOffset (w.encodeBuffer.writeOffset + cnt), ?_, takes_setWriteOffset h he (by omega)⟩
    rw [pad, advanceMut, if_neg hne]
    exact if_neg hlt

/-- A reservation that succeeds leaves room for what was reserved. -/
theorem room_tryReserve (h : w.encodeBuffer.Regular) (hs : w.tryReserve n = .ok (.ok (), w')) : n ≤ w'.room := by
  have hwrite := h.write
  unfold tryReserve at hs
  simp only at hs
  split at hs
  · -- it fits into the active chunk
    obtain ⟨-, rfl⟩ := Prod.mk.inj (Except.ok.inj hs)
    show n ≤ w.encodeBuffer.buffer.len - w.encodeBuffer.writeOffset + _
    omega
  rename_i hfit
  split at hs
  · -- it fits into an empty one
    obtain ⟨lease, e, hget, hr, hbuf, -⟩ := chainAndSwap_inv hs
    have hsome := (swapBuffer_ok_iff e).mp hr.symm
    have hzero : w'.encodeBuffer.writeOffset = 0 := by
      rw [hbuf]
      unfold EncodeBuffer.swapBuffer
      generalize e.bufferPool.getBuffer = t at *
      obtain ⟨o, p⟩ := t
      cases o with
      | none => cases hsome
      | some b => rfl
    have hlen : w'.encodeBuffer.buffer.len = w.encodeBuffer.buffer.len := by
      have h' := regular_chainAndSwap h hs
      rw [h'.size, h.size, hbuf]
      obtain ⟨-, -, -, -, hpool⟩ := getChunkLease_keeps hget
      rw [← hpool]
      exact (h.getChunkLease hget).chunkSize_swapBuffer
    show n ≤ w'.encodeBuffer.buffer.len - w'.encodeBuffer.writeOffset + _
    omega
  · -- it takes the rest of the active chunk, and more of them
    obtain ⟨hr, rfl⟩ := Prod.mk.inj (Except.ok.inj hs)
    generalize hrest : n - (w.encodeBuffer.buffer.len - w.encodeBuffer.writeOffset) = rest at *
    obtain ⟨-, hsize, hav⟩ := h.uniform.tryReserve rest
    have hok : (w.encodeBuffer.bufferPool.tryReserve rest).1 = .ok () := by
      cases hx : (w.encodeBuffer.bufferPool.tryReserve rest).1 with
      | ok u => rfl
      | error err =>
        rw [hx] at hr
        cases hr
    have hc : 0 < w.encodeBuffer.bufferPool.chunkSize := by have := h.roomy; omega
    have hreq := BufferPool.le_requiredBuffers hc rest
    have hmul := Nat.mul_le_mul_right w.encodeBuffer.bufferPool.chunkSize (hav hok)
    show n ≤ w.encodeBuffer.buffer.len - w.encodeBuffer.writeOffset +
      (w.encodeBuffer.bufferPool.tryReserve rest).2.available * (w.encodeBuffer.bufferPool.tryReserve rest).2.chunkSize
    rw [hsize]
    omega

end BufferEncoder

/-! ## What comes after a reservation -/

namespace BufferEncoder

variable {w w' : BufferEncoder} {n : Nat}

/-- What happens to an encoder: a call, or the release of a lease that somebody else has. -/
inductive Event where
  | call (op : Write)
  | release (lease : ChunkLease)
  deriving DecidableEq, Repr

namespace Event

def step (w : BufferEncoder) : Event → Panics BufferEncoder
  | call op => op.step w
  | release lease => .ok { w with encodeBuffer := w.encodeBuffer.dropLocks lease.locks }

/-- The bytes it writes. -/
def size : Event → Nat
  | call op => op.size
  | release _ => 0

def swaps (w : BufferEncoder) : Event → List BufferEncoder
  | call op => op.swaps w
  | release _ => []

end Event

def runEvents (w : BufferEncoder) : List Event → Panics BufferEncoder
  | [] => .ok w
  | ev :: evs => do runEvents (← ev.step w) evs

/-- The encoders where a chunk is swapped. -/
def eventSwaps (w : BufferEncoder) : List Event → List BufferEncoder
  | [] => []
  | ev :: evs => ev.swaps w ++
    match ev.step w with
    | .error _ => []
    | .ok w => eventSwaps w evs

/-- An encoder with an error does nothing in a call. -/
theorem Write.step_of_error {op : Write} (he : w.serError.isSome = true) (hop : ∀ size, op ≠ .tryReserve size) :
    op.step w = .ok w := by
  cases op with
  | put chunks =>
    cases chunks with
    | nil => rfl
    | cons chunk chunks => exact if_pos he
  | putSlice src => exact (putLoop_of_error _ src he).1
  | pad => exact if_pos he
  | tryReserve size => exact absurd rfl (hop size)

/-- A call for whose bytes there is room. -/
theorem takes_step {op : Write} (h : w.encodeBuffer.Regular) (he : w.serError = none)
    (hop : ∀ size, op ≠ .tryReserve size) (hroom : op.size ≤ w.room) :
    ∃ w', op.step w = .ok w' ∧ w.Takes op.size w' := by
  cases op with
  | put chunks => exact takes_put h he hroom
  | putSlice src => exact takes_putSlice h he hroom
  | pad => exact takes_pad h he (by decide) hroom
  | tryReserve size => exact absurd rfl (hop size)

/-- An event that is no reservation makes no error, and uses no more room than the bytes it
writes. -/
theorem Event.step_spec {ev : Event} (h : w.encodeBuffer.Regular) (hev : ∀ size, ev ≠ .call (.tryReserve size))
    (hroom : w.serError = none → ev.size ≤ w.room) :
    ∃ w', ev.step w = .ok w' ∧ w'.encodeBuffer.Regular ∧ w'.serError = w.serError ∧
      (w.serError = none → w.room ≤ w'.room + ev.size) ∧ ∀ s ∈ ev.swaps w, s.Found := by
  cases ev with
  | release lease =>
    exact ⟨_, rfl, h.dropLocks _, rfl, fun _ => w.encodeBuffer.room_dropLocks _, fun s hs => by cases hs⟩
  | call op =>
    have hop : ∀ size, op ≠ .tryReserve size := fun size hsize => hev size (by rw [hsize])
    cases he : w.serError with
    | none =>
      obtain ⟨w', hstep, ht⟩ := takes_step h he hop (hroom he)
      exact ⟨w', hstep, ht.regular, ht.error, fun _ => ht.room, ((op.serError_step hstep).mp ht.error).2⟩
    | some err =>
      have he' : w.serError.isSome = true := by rw [he]; rfl
      have hstep := Write.step_of_error he' hop
      refine ⟨w, hstep, h, he, (fun hn => by cases hn), fun s hs => ?_⟩
      -- there is no swap either
      have hnil : op.swaps w = [] := by
        cases op with
        | put chunks =>
          cases chunks with
          | nil => rfl
          | cons chunk chunks => exact if_pos he'
        | putSlice src => exact (putLoop_of_error _ src he').2
        | pad => exact if_pos he'
        | tryReserve size => rfl
      rw [Event.swaps, hnil] at hs
      cases hs

/-- As long as there is room for all of them no event fails. By induction on the events. -/
theorem runEvents_spec {evs : List Event} (h : w.encodeBuffer.Regular)
    (hevs : ∀ size, .call (.tryReserve size) ∉ evs)
    (hroom : w.serError = none → (evs.map Event.size).sum ≤ w.room) :
    ∃ w', w.runEvents evs = .ok w' ∧ w'.serError = w.serError ∧ ∀ s ∈ w.eventSwaps evs, s.Found := by
  induction evs generalizing w with
  | nil => exact ⟨w, rfl, rfl, fun s hs => by cases hs⟩
  | cons ev evs ih =>
    rw [List.map_cons, List.sum_cons] at hroom
    obtain ⟨w₁, hstep, hreg, herr, hless, hfound⟩ := ev.step_spec h
      (fun size he => hevs size (he ▸ List.mem_cons_self ..)) fun hn => by have := hroom hn; omega
    obtain ⟨w', hrun, herr', hfound'⟩ := ih hreg (fun size hm => hevs size (List.mem_cons_of_mem _ hm)) fun hn => by
      have := hroom (herr ▸ hn)
      have := hless (herr ▸ hn)
      omega
    refine ⟨w', ?_, herr'.trans herr, ?_⟩
    · rw [runEvents, hstep]
      exact hrun
    · rw [eventSwaps, hstep]
      exact List.forall_mem_append.mpr ⟨hfound, hfound'⟩

end BufferEncoder

open BufferEncoder in
/-- In every run of an encode buffer: after a reservation of `n` bytes that has succeeded, calls
that write no more than that return, find a chunk for every swap and leave no error, while
leases are released in between. -/
theorem reservation_honoured {cfg : PoolConfig} {m : Mem} {s₀ s : Encoding} (h₀ : Encoding.withConfig cfg m = .ok s₀)
    (h : Reach Encoding.step (fun _ _ => True) s₀ s) {n : Nat} {w : BufferEncoder}
    (hres : s.encoder.tryReserve n = .ok (.ok (), w)) (evs : List Event)
    (hevs : ∀ size, .call (.tryReserve size) ∉ evs) (hn : (evs.map Event.size).sum ≤ n) :
    ∃ w', w.runEvents evs = .ok w' ∧ w'.serError = s.encoder.serError ∧ ∀ x ∈ w.eventSwaps evs, x.Found := by
  have hreg := Encoding.regular_reach h₀ h
  have hroom := room_tryReserve hreg hres
  obtain ⟨w', hrun, herr, hfound⟩ := runEvents_spec (regular_tryReserve hreg hres) hevs fun _ => hn.trans hroom
  exact ⟨w', hrun, herr.trans (serError_tryReserve hres), hfound⟩

open BufferEncoder in
/-- The head is padded over two chunks, the second one is filled, and a lease on the first one is
released in between. -/
theorem reservation_honoured_straddling :
    ∃ s w w', runActions Encoding.step .small [.getBufferEncoder, .putSlice (List.replicate 120 1), .getChunkLease] =
        some s ∧ s.encoder.tryReserve 130 = .ok (.ok (), w) ∧
      w.runEvents [.call .pad, .release (.new ⟨1, 0, 120⟩ 1), .call (.put [[1, 2], [3]]),
        .call (.putSlice (List.replicate 118 7))] = .ok w' ∧ w'.serError = none := by
  have hrun : (runActions Encoding.step .small [.getBufferEncoder, .putSlice (List.replicate 120 1),
      .getChunkLease]).map (fun s => (s.encoder.serError.isNone,
        (s.encoder.tryReserve 130).toOption.map (·.1.toOption))) = some (true, some (some ())) := by
    decide +kernel
  obtain ⟨s, hs, he⟩ := Option.map_eq_some_iff.mp hrun
  obtain ⟨hnone, hres⟩ := Prod.mk.inj he
  obtain ⟨w, hw⟩ : ∃ w, s.encoder.tryReserve 130 = .ok (.ok (), w) := by
    cases ht : s.encoder.tryReserve 130 with
    | error err =>
      rw [ht] at hres
      cases hres
    | ok x =>
      obtain ⟨r, w⟩ := x
      rw [ht] at hres
      cases r with
      | ok u => exact ⟨w, rfl⟩
      | error err => cases hres
  have h₀ : Encoding.withConfig ⟨⟨0⟩, 128, 1, 2⟩ (fun _ _ => 0) = .ok .small := rfl
  obtain ⟨w', hrun', herr, -⟩ := reservation_honoured h₀ (Reach.run .init hs (runMeets_true ..)) hw
    [.call .pad, .release (.new ⟨1, 0, 120⟩ 1), .call (.put [[1, 2], [3]]), .call (.putSlice (List.replicate 118 7))]
    (fun size hm => by simp at hm) (by decide +kernel)
  exact ⟨s, w, w', hs, hw, hrun', herr.trans (Option.isNone_iff_eq_none.mp hnone)⟩

end Kompact
