import Kompact.Serialisation.SerHelpers

/-!
# What an encoder is given, and what it returns

Sequences of the calls that write to an encoder, and the lease that is taken at
the end. The calls put their bytes one behind the other, over as many chunks as
it takes (`step_cases`), until a swap finds no chunk; then they do nothing any
more, and the error is returned in place of the lease (`serError_iff`).

There is one exception. Padding that needs a second chunk and finds none moves
the write offset back before the read offset, and a reservation that swaps the
chunk then panics. `encodes_iff` says that nothing else can go wrong.
-/

namespace Kompact

namespace BufferEncoder

/-- A call that writes to an encoder, or makes room for that. -/
inductive Write where
  /-- `put` of a buffer that is read in these chunks. -/
  | put (chunks : List (List UInt8))
  | putSlice (src : List UInt8)
  /-- Padding for a frame head. -/
  | pad
  | tryReserve (size : Nat)
  deriving DecidableEq, Repr

namespace Write

/-- One call. The result of a reservation is not used any further. -/
def step (w : BufferEncoder) : Write → Panics BufferEncoder
  | put chunks => w.put chunks
  | putSlice src => w.putSlice src
  | pad => w.pad frameHeadLen
  | tryReserve size => do
    let (_, w) ← w.tryReserve size
    return w

/-- The bytes a call writes; those of a padding are arbitrary. -/
def Writes : Write → List UInt8 → Prop
  | put chunks, bs => bs = chunks.flatten
  | putSlice src, bs => bs = src
  | pad, bs => bs.length = frameHeadLen
  | tryReserve _, bs => bs = []

/-- How many bytes that are. -/
def size : Write → Nat
  | put chunks => chunks.flatten.length
  | putSlice src => src.length
  | pad => frameHeadLen
  | tryReserve _ => 0

end Write

/-- A sequence of calls. -/
def runWrites (w : BufferEncoder) : List Write → Panics BufferEncoder
  | [] => .ok w
  | op :: ops => do runWrites (← op.step w) ops

/-- The bytes are those that the calls write, in order. -/
def Spells : List Write → List UInt8 → Prop
  | [], bs => bs = []
  | op :: ops, bs => ∃ x rest, bs = x ++ rest ∧ op.Writes x ∧ Spells ops rest

/-! ## Swaps -/

/-- The encoder where `advance_mut` swaps the chunk, if it does. -/
def advanceSwaps (w : BufferEncoder) (cnt : Nat) : List BufferEncoder :=
  if w.serError.isSome then []
  else if w.encodeBuffer.writeableLen < cnt then
    [w.setWriteOffset (w.encodeBuffer.writeOffset + w.encodeBuffer.writeableLen)]
  else []

/-- The encoders where the loop of `put_slice` swaps the chunk. -/
def putLoopSwaps : Nat → BufferEncoder → List UInt8 → List BufferEncoder
  | _, _, [] => []
  | 0, _, _ :: _ => []
  | fuel + 1, w, src =>
    if w.serError.isSome then []
    else
      let cnt := min w.remainingMut src.length
      advanceSwaps (w.copyIn (src.take cnt)) cnt ++
        match (w.copyIn (src.take cnt)).advanceMut cnt with
        | .error _ => []
        | .ok w =>
          let rest := src.drop cnt
          if w.remainingMut < rest.length then
            w :: match w.chainAndSwapLater with
              | .error _ => []
              | .ok w => putLoopSwaps fuel w rest
          else putLoopSwaps fuel w rest

def putSliceSwaps (w : BufferEncoder) (src : List UInt8) : List BufferEncoder := putLoopSwaps (src.length + 1) w src

def putSwaps (w : BufferEncoder) : List (List UInt8) → List BufferEncoder
  | [] => []
  | chunk :: chunks =>
    if w.serError.isSome then []
    else putSliceSwaps w chunk ++
      match w.putSlice chunk with
      | .error _ => []
      | .ok w => putSwaps w chunks

/-- The encoders where a call that writes swaps the chunk. -/
def Write.swaps (w : BufferEncoder) : Write → List BufferEncoder
  | put chunks => w.putSwaps chunks
  | putSlice src => w.putSliceSwaps src
  | pad => w.advanceSwaps frameHeadLen
  | tryReserve _ => []

def swaps (w : BufferEncoder) : List Write → List BufferEncoder
  | [] => []
  | op :: ops => op.swaps w ++
    match op.step w with
    | .error _ => []
    | .ok w => swaps w ops

/-- The pool has a chunk for a swap. -/
def Found (w : BufferEncoder) : Prop := w.encodeBuffer.bufferPool.getBuffer.1.isSome = true

instance (w : BufferEncoder) : Decidable w.Found := inferInstanceAs (Decidable (_ = _))

/-- A lease is taken where the offsets are in order, and the read offset catches up. -/
theorem getChunkLease_keeps {e e' : EncodeBuffer} {lease : Option ChunkLease}
    (h : e.getChunkLease = .ok (lease, e')) :
    e.readOffset ≤ e.writeOffset ∧ e'.writeOffset = e.writeOffset ∧ e'.readOffset = e.writeOffset ∧
      e'.buffer.len = e.buffer.len ∧ e'.bufferPool = e.bufferPool := by
  unfold EncodeBuffer.getChunkLease at h
  by_cases hlt : e.writeOffset < e.readOffset
  · rw [if_pos hlt] at h
    cases h
  rw [if_neg hlt] at h
  have hle : e.readOffset ≤ e.writeOffset := Nat.not_lt.mp hlt
  by_cases hpos : 0 < e.writeOffset - e.readOffset
  · simp only [if_pos hpos] at h
    obtain ⟨⟨l, b⟩, hl, h⟩ := Panics.bind_eq_ok.mp h
    obtain ⟨-, rfl⟩ := Prod.mk.inj (Except.ok.inj h)
    refine ⟨hle, rfl, Nat.add_sub_cancel' hle, ?_, rfl⟩
    obtain ⟨s, -, hs⟩ := Panics.bind_eq_ok.mp hl
    rw [← (Prod.mk.inj (Except.ok.inj hs)).2]
  · simp only [if_neg hpos] at h
    obtain ⟨-, rfl⟩ := Prod.mk.inj (Except.ok.inj h)
    exact ⟨hle, rfl, by omega, rfl, rfl⟩

/-- The two halves of a swap. -/
theorem chainAndSwap_inv {w w' : BufferEncoder} {r : Except SerError Unit} (h : w.chainAndSwap = .ok (r, w')) :
    ∃ lease e, w.encodeBuffer.getChunkLease = .ok (lease, e) ∧ r = e.swapBuffer.1 ∧
      w'.encodeBuffer = e.swapBuffer.2 ∧ w'.serError = w.serError := by
  obtain ⟨⟨lease, e⟩, hget, h⟩ := Panics.bind_eq_ok.mp h
  obtain ⟨hr, hw⟩ := Prod.mk.inj (Except.ok.inj h)
  have hchain : (BufferEncoder.chain { w with encodeBuffer := e } lease).encodeBuffer = e ∧
      (BufferEncoder.chain { w with encodeBuffer := e } lease).serError = w.serError := by
    unfold BufferEncoder.chain
    cases lease with
    | none => exact ⟨rfl, rfl⟩
    | some l =>
      cases w.chainHead with
      | none => exact ⟨rfl, rfl⟩
      | some c => exact ⟨rfl, rfl⟩
  rw [hchain.1] at hr hw
  rw [← hw]
  exact ⟨lease, e, hget, hr.symm, rfl, hchain.2⟩

theorem swapBuffer_ok_iff (e : EncodeBuffer) : e.swapBuffer.1 = .ok () ↔ e.bufferPool.getBuffer.1.isSome = true := by
  unfold EncodeBuffer.swapBuffer
  generalize e.bufferPool.getBuffer = r
  obtain ⟨o, p⟩ := r
  cases o with
  | none => exact iff_of_false (fun h => by cases h) (fun h => by cases h)
  | some b => exact iff_of_true rfl rfl

/-- An encoder keeps an error if and only if it had one or finds no chunk. -/
theorem serError_chainAndSwapLater {w w' : BufferEncoder} (h : w.chainAndSwapLater = .ok w') :
    w'.serError = none ↔ w.serError = none ∧ w.Found := by
  obtain ⟨⟨r, w₁⟩, hswap, h⟩ := Panics.bind_eq_ok.mp h
  obtain ⟨lease, e, hget, hr, -, herr⟩ := chainAndSwap_inv hswap
  have hpool := (getChunkLease_keeps hget).2.2.2.2
  have hfound : r = .ok () ↔ w.Found := by
    rw [hr, swapBuffer_ok_iff, hpool]
    rfl
  cases r with
  | ok u =>
    obtain rfl := Except.ok.inj h
    rw [herr]
    exact ⟨fun hn => ⟨hn, hfound.mp rfl⟩, fun hn => hn.1⟩
  | error err =>
    obtain rfl := Except.ok.inj h
    refine iff_of_false (fun hn => by cases hn) fun hn => ?_
    cases hfound.mpr hn.2

theorem serError_advanceMut {w w' : BufferEncoder} {cnt : Nat} (h : w.advanceMut cnt = .ok w') :
    w'.serError = none ↔ w.serError = none ∧ ∀ s ∈ w.advanceSwaps cnt, s.Found := by
  unfold advanceMut at h
  unfold advanceSwaps
  by_cases he : w.serError.isSome = true
  · rw [if_pos he] at h
    obtain rfl := Except.ok.inj h
    simp [he]
  rw [if_neg he] at h
  have he' : w.serError = none := by simpa using he
  by_cases hlt : w.encodeBuffer.writeableLen < cnt
  · simp only [if_pos hlt] at h
    obtain ⟨w₁, hswap, h⟩ := Panics.bind_eq_ok.mp h
    obtain rfl := Except.ok.inj h
    rw [if_neg he, if_pos hlt, List.forall_mem_singleton]
    have hiff := serError_chainAndSwapLater hswap
    exact hiff
  · simp only [if_neg hlt] at h
    obtain rfl := Except.ok.inj h
    simp [he', hlt, setWriteOffset]

/-- A round of the loop, with its swaps. -/
theorem putLoopSwaps_succ {fuel : Nat} {w : BufferEncoder} {src : List UInt8} (he : w.serError = none)
    (hne : src ≠ []) :
    putLoopSwaps (fuel + 1) w src =
      advanceSwaps (w.copyIn (src.take (min w.remainingMut src.length))) (min w.remainingMut src.length) ++
        match (w.copyIn (src.take (min w.remainingMut src.length))).advanceMut (min w.remainingMut src.length) with
        | .error _ => []
        | .ok w₁ =>
          if w₁.remainingMut < (src.drop (min w.remainingMut src.length)).length then
            w₁ :: match w₁.chainAndSwapLater with
              | .error _ => []
              | .ok w₂ => putLoopSwaps fuel w₂ (src.drop (min w.remainingMut src.length))
          else putLoopSwaps fuel w₁ (src.drop (min w.remainingMut src.length)) := by
  obtain ⟨b, tail, rfl⟩ := List.exists_cons_of_ne_nil hne
  exact if_neg (show ¬ w.serError.isSome = true by rw [he]; decide)

/-- With an error the loop does nothing. -/
theorem putLoop_of_error (fuel : Nat) {w : BufferEncoder} (src : List UInt8) (he : w.serError.isSome = true) :
    putLoop (fuel + 1) w src = .ok w ∧ putLoopSwaps (fuel + 1) w src = [] := by
  cases src with
  | nil => exact ⟨rfl, rfl⟩
  | cons b src => exact ⟨if_pos he, if_pos he⟩

theorem serError_putLoop {fuel : Nat} {w w' : BufferEncoder} {src : List UInt8} (h : putLoop fuel w src = .ok w') :
    w'.serError = none ↔ w.serError = none ∧ ∀ s ∈ putLoopSwaps fuel w src, s.Found := by
  induction fuel generalizing w src with
  | zero =>
    cases src with
    | nil =>
      obtain rfl := Except.ok.inj h
      simp [putLoopSwaps]
    | cons b src => cases h
  | succ fuel ih =>
    by_cases he : w.serError.isSome = true
    · obtain ⟨hrun, hnone⟩ := putLoop_of_error fuel src he
      rw [hrun] at h
      obtain rfl := Except.ok.inj h
      rw [hnone]
      simp
    have he' : w.serError = none := by simpa using he
    by_cases hne : src = []
    · subst hne
      obtain rfl := Except.ok.inj h
      simp [putLoopSwaps]
    rw [putLoop_succ he' hne] at h
    rw [putLoopSwaps_succ he' hne]
    generalize min w.remainingMut src.length = cnt at h ⊢
    obtain ⟨w₁, hadv, h⟩ := Panics.bind_eq_ok.mp h
    have hfirst := serError_advanceMut hadv
    rw [show (w.copyIn (src.take cnt)).serError = w.serError from rfl] at hfirst
    simp only [hadv, List.forall_mem_append]
    rw [← and_assoc, ← hfirst]
    by_cases hfull : w₁.remainingMut < (src.drop cnt).length
    · simp only [if_pos hfull] at h ⊢
      obtain ⟨w₂, hswap, h⟩ := Panics.bind_eq_ok.mp h
      simp only [hswap, List.forall_mem_cons]
      rw [ih h, serError_chainAndSwapLater hswap, and_assoc]
    · simp only [if_neg hfull] at h ⊢
      exact ih h

theorem serError_put {w w' : BufferEncoder} {chunks : List (List UInt8)} (h : w.put chunks = .ok w') :
    w'.serError = none ↔ w.serError = none ∧ ∀ s ∈ w.putSwaps chunks, s.Found := by
  induction chunks generalizing w with
  | nil =>
    obtain rfl := Except.ok.inj h
    simp [putSwaps]
  | cons chunk chunks ih =>
    by_cases he : w.serError.isSome = true
    · rw [put, if_pos he] at h
      obtain rfl := Except.ok.inj h
      simp [putSwaps, he]
    rw [put, if_neg he] at h
    rw [putSwaps, if_neg he]
    obtain ⟨w₁, hput, h⟩ := Panics.bind_eq_ok.mp h
    simp only [hput, List.forall_mem_append]
    rw [ih h, serError_putLoop hput, and_assoc]
    rfl

/-- A reservation leaves the error alone. -/
theorem serError_tryReserve {w w' : BufferEncoder} {size : Nat} {r : Except SerError Unit}
    (h : w.tryReserve size = .ok (r, w')) : w'.serError = w.serError := by
  unfold tryReserve at h
  simp only at h
  split at h
  · obtain ⟨-, rfl⟩ := Prod.mk.inj (Except.ok.inj h)
    rfl
  split at h
  · obtain ⟨lease, e, -, -, -, herr⟩ := chainAndSwap_inv h
    exact herr
  · obtain ⟨-, rfl⟩ := Prod.mk.inj (Except.ok.inj h)
    rfl

theorem Write.serError_step {w w' : BufferEncoder} {op : Write} (h : op.step w = .ok w') :
    w'.serError = none ↔ w.serError = none ∧ ∀ s ∈ op.swaps w, s.Found := by
  cases op with
  | put chunks => exact serError_put h
  | putSlice src => exact serError_putLoop h
  | pad => exact serError_advanceMut h
  | tryReserve size =>
    obtain ⟨⟨r, w₁⟩, hres, h⟩ := Panics.bind_eq_ok.mp h
    obtain rfl := Except.ok.inj h
    rw [serError_tryReserve hres]
    simp [Write.swaps]

/-- After some calls there is an error if and only if there was one or a swap has found no
chunk. -/
theorem serError_iff {w w' : BufferEncoder} {ops : List Write} (h : w.runWrites ops = .ok w') :
    w'.serError = none ↔ w.serError = none ∧ ∀ s ∈ w.swaps ops, s.Found := by
  induction ops generalizing w with
  | nil =>
    obtain rfl := Except.ok.inj h
    simp [BufferEncoder.swaps]
  | cons op ops ih =>
    obtain ⟨w₁, hstep, h⟩ := Panics.bind_eq_ok.mp h
    rw [ih h, op.serError_step hstep, BufferEncoder.swaps, hstep]
    simp only [List.forall_mem_append]
    rw [and_assoc]

/-! ## Calls -/

/-- The write offset is before the read offset, which only an encoder with an error is. -/
structure Broken (w : BufferEncoder) : Prop where
  error : w.serError.isSome = true
  offsets : w.encodeBuffer.writeOffset < w.encodeBuffer.readOffset

/-- A reservation that swaps the chunk finds the offsets in order. -/
def Write.Sound (w : BufferEncoder) : Write → Prop
  | tryReserve size => w.encodeBuffer.writeableLen ≤ size → size < w.encodeBuffer.buffer.len →
      w.encodeBuffer.readOffset ≤ w.encodeBuffer.writeOffset
  | _ => True

instance (w : BufferEncoder) (op : Write) : Decidable (op.Sound w) := by
  cases op <;> unfold Write.Sound <;> infer_instance

/-- Every call of the sequence is sound where it is made. -/
def SoundRun (w : BufferEncoder) : List Write → Prop
  | [] => True
  | op :: ops => op.Sound w ∧ ∀ w', op.step w = .ok w' → SoundRun w' ops

variable {w w' : BufferEncoder} {leases : List ChunkLease}

/-- Where padding finds no second chunk the encoder is broken. -/
theorem pad_breaks {cnt : Nat} (h : w.Inv leases) (hc : cnt < w.encodeBuffer.bufferPool.chunkSize)
    (hf : w.padFails cnt) :
    ∃ w', w.pad cnt = .ok w' ∧ w'.Broken := by
  obtain ⟨he, hrem, hnone⟩ := hf
  obtain ⟨hi, -⟩ := h.setWriteOffset (n := w.encodeBuffer.writeableLen) (Nat.le_refl _)
  obtain ⟨r, w₁, hstep, -, -, -, -, -, -, hcase⟩ := hi.chainAndSwap
  obtain ⟨lease, e, hget, -, hbuf, -⟩ := chainAndSwap_inv hstep
  obtain ⟨-, -, hread, -, hpool⟩ := getChunkLease_keeps hget
  have hne : ¬ w.serError.isSome = true := by rw [he]; decide
  have hnone' : e.bufferPool.getBuffer.1 = none := by rw [hpool]; exact hnone
  have hoff : w₁.encodeBuffer.readOffset = e.readOffset := by
    rw [hbuf]
    unfold EncodeBuffer.swapBuffer
    generalize e.bufferPool.getBuffer = x at hnone'
    obtain ⟨o, p⟩ := x
    obtain rfl : o = none := hnone'
    rfl
  rcases hcase with ⟨hsome, -, -⟩ | ⟨-, err, rfl⟩
  · have hsome : w.encodeBuffer.bufferPool.getBuffer.1.isSome = true := hsome
    rw [hnone] at hsome
    cases hsome
  refine ⟨setWriteOffset { w₁ with serError := some err } (cnt - w.encodeBuffer.writeableLen), ?_, rfl, ?_⟩
  · rw [pad, advanceMut, if_neg hne]
    simp only [if_pos hrem, chainAndSwapLater, hstep]
    rfl
  · show cnt - w.encodeBuffer.writeableLen < w₁.encodeBuffer.readOffset
    rw [hoff, hread]
    show cnt - w.encodeBuffer.writeableLen <
      w.encodeBuffer.writeOffset + (w.encodeBuffer.buffer.len - w.encodeBuffer.writeOffset)
    have hb := h.buffer.bound
    have hl := h.buffer.size
    omega

/-- The encoder is in order, with chunks of a size that is accepted, or it is broken. -/
def Usable (w : BufferEncoder) (leases : List ChunkLease) : Prop :=
  (w.Inv leases ∧ 128 ≤ w.encodeBuffer.bufferPool.chunkSize) ∨ w.Broken

/-- What a call does, unless it panics. -/
structure Does (op : Write) (w : BufferEncoder) (leases : List ChunkLease) (w' : BufferEncoder) : Prop where
  usable : w'.Usable leases
  written : w'.serError = none → w.serError = none ∧ ∃ bs, op.Writes bs ∧ w'.written = w.written ++ bs

theorem Wrote.does {op : Write} {bs : List UInt8} (h : w.Wrote leases w' bs)
    (hc : 128 ≤ w.encodeBuffer.bufferPool.chunkSize) (hb : op.Writes bs) : Does op w leases w' :=
  ⟨.inl ⟨h.inv, by rw [h.size]; exact hc⟩, fun hn => ⟨(h.written hn).1, bs, hb, (h.written hn).2⟩⟩

theorem Broken.does {op : Write} (h : w'.Broken) : Does op w leases w' := by
  refine ⟨.inr h, fun hn => ?_⟩
  have herr := h.error
  rw [hn] at herr
  cases herr

theorem Inv.sound (h : w.Inv leases) (op : Write) : op.Sound w := by
  cases op with
  | tryReserve size => exact fun _ _ => h.buffer.offsets
  | put chunks => trivial
  | putSlice src => trivial
  | pad => trivial

/-- A call on an encoder in order returns. -/
theorem Inv.step (h : w.Inv leases) (hc : 128 ≤ w.encodeBuffer.bufferPool.chunkSize) (op : Write) :
    ∃ w', op.step w = .ok w' ∧ Does op w leases w' := by
  cases op with
  | put chunks =>
    obtain ⟨w', hput, hw⟩ := put_spec h (by omega) chunks
    exact ⟨w', hput, hw.does hc rfl⟩
  | putSlice src =>
    obtain ⟨w', hput, hw⟩ := putSlice_spec h (by omega) src
    exact ⟨w', hput, hw.does hc rfl⟩
  | pad =>
    by_cases hf : w.padFails frameHeadLen
    · obtain ⟨w', hpad, hb⟩ := pad_breaks h (by simp only [frameHeadLen]; omega) hf
      exact ⟨w', hpad, hb.does⟩
    · obtain ⟨w', junk, hpad, hlen, hw⟩ := pad_spec h (by simp only [frameHeadLen]; omega) hf
      exact ⟨w', hpad, hw.does hc hlen⟩
  | tryReserve size =>
    obtain ⟨r, w', hres, hw, -⟩ := tryReserve_spec h size
    refine ⟨w', ?_, hw.does hc rfl⟩
    simp only [Write.step, hres, bind, Except.bind]
    rfl

/-- A broken encoder does nothing, but for a reservation it may swap the chunk, and panics. -/
theorem Broken.step (h : w.Broken) (op : Write) :
    (op.Sound w ∧ ∃ w', op.step w = .ok w' ∧ w'.Broken) ∨ (¬ op.Sound w ∧ ∃ e, op.step w = .error e) := by
  cases op with
  | put chunks =>
    refine .inl ⟨trivial, w, ?_, h⟩
    cases chunks with
    | nil => rfl
    | cons chunk chunks => exact if_pos h.error
  | putSlice src => exact .inl ⟨trivial, w, (putLoop_of_error _ src h.error).1, h⟩
  | pad => exact .inl ⟨trivial, w, if_pos h.error, h⟩
  | tryReserve size =>
    simp only [Write.step, Write.Sound, BufferEncoder.tryReserve, EncodeBuffer.writeableLen]
    by_cases hfit : size < w.encodeBuffer.buffer.len - w.encodeBuffer.writeOffset
    · rw [if_pos hfit]
      exact .inl ⟨fun hle => absurd hfit (Nat.not_lt.mpr hle), w, rfl, h⟩
    rw [if_neg hfit]
    by_cases hsmall : size < w.encodeBuffer.buffer.len
    · rw [if_pos hsmall]
      refine .inr ⟨fun hs => ?_, "attempt to subtract with overflow", ?_⟩
      · exact absurd h.offsets (Nat.not_lt.mpr (hs (Nat.not_lt.mp hfit) hsmall))
      · simp only [chainAndSwap, EncodeBuffer.getChunkLease, if_pos h.offsets]
        rfl
    · rw [if_neg hsmall]
      exact .inl ⟨fun _ hlt => absurd hlt hsmall, _, rfl, h.error, h.offsets⟩

/-- A call returns, or it is a reservation that is not sound, and panics. -/
theorem step_cases (h : w.Usable leases) (op : Write) :
    (op.Sound w ∧ ∃ w', op.step w = .ok w' ∧ Does op w leases w') ∨ (¬ op.Sound w ∧ ∃ e, op.step w = .error e) := by
  rcases h with ⟨hinv, hc⟩ | hb
  · exact .inl ⟨hinv.sound op, hinv.step hc op⟩
  · rcases hb.step op with ⟨hs, w', hstep, hb'⟩ | hpanic
    · exact .inl ⟨hs, w', hstep, hb'.does⟩
    · exact .inr hpanic

/-! ## Sequences of calls -/

/-- A sequence of calls returns if and only if each is sound where it is made; then all that was
written is there, unless there is an error. By induction on the calls. -/
theorem runWrites_cases (h : w.Usable leases) (ops : List Write) :
    (SoundRun w ops ∧ ∃ w', w.runWrites ops = .ok w' ∧ w'.Usable leases ∧
      (w'.serError = none → w.serError = none ∧ ∃ bs, Spells ops bs ∧ w'.written = w.written ++ bs)) ∨
      (¬ SoundRun w ops ∧ ∃ e, w.runWrites ops = .error e) := by
  induction ops generalizing w with
  | nil => exact .inl ⟨trivial, w, rfl, h, fun hn => ⟨hn, [], rfl, (List.append_nil _).symm⟩⟩
  | cons op ops ih =>
    rcases step_cases h op with ⟨hs, w₁, hstep, hdoes⟩ | ⟨hs, e, hstep⟩
    · have hsound : SoundRun w (op :: ops) ↔ SoundRun w₁ ops := by
        constructor
        · exact fun hr => hr.2 w₁ hstep
        · refine fun hr => ⟨hs, fun w' hw' => ?_⟩
          obtain rfl := Except.ok.inj (hstep.symm.trans hw')
          exact hr
      have hrun : w.runWrites (op :: ops) = w₁.runWrites ops := by
        rw [runWrites, hstep]
        rfl
      rw [hsound, hrun]
      rcases ih hdoes.usable with ⟨hr, w', hw', hu, hall⟩ | hpanic
      · refine .inl ⟨hr, w', hw', hu, fun hn => ?_⟩
        obtain ⟨hn₁, bs', hbs', hwr'⟩ := hall hn
        obtain ⟨hn₀, bs, hbs, hwr⟩ := hdoes.written hn₁
        exact ⟨hn₀, bs ++ bs', ⟨bs, bs', rfl, hbs, hbs'⟩, by rw [hwr', hwr, List.append_assoc]⟩
      · exact .inr hpanic
    · refine .inr ⟨fun hr => hs hr.1, e, ?_⟩
      rw [runWrites, hstep]
      rfl

theorem length_of_writes {op : Write} {bs : List UInt8} (h : op.Writes bs) : bs.length = op.size := by
  cases op with
  | put chunks => exact congrArg List.length h
  | putSlice src => exact congrArg List.length h
  | pad => exact h
  | tryReserve size => exact congrArg List.length h

theorem length_of_spells {ops : List Write} {bs : List UInt8} (h : Spells ops bs) :
    bs.length = (ops.map Write.size).sum := by
  induction ops generalizing bs with
  | nil =>
    obtain rfl : bs = [] := h
    rfl
  | cons op ops ih =>
    obtain ⟨x, rest, rfl, hx, hrest⟩ := h
    rw [List.length_append, length_of_writes hx, ih hrest, List.map_cons, List.sum_cons]

/-! ## The lease -/

/-- Nothing was written. -/
structure Idle (w : BufferEncoder) : Prop where
  chain : w.chainHead = none
  aligned : w.encodeBuffer.writeOffset = w.encodeBuffer.readOffset

theorem Idle.getChunkLease_buffer (h : w.Idle) : w.encodeBuffer.getChunkLease = .ok (none, w.encodeBuffer) := by
  unfold EncodeBuffer.getChunkLease
  rw [if_neg (by rw [h.aligned]; exact Nat.lt_irrefl _)]
  simp only [h.aligned, Nat.sub_self, Nat.lt_irrefl, if_false]

/-- The empty parts of a buffer are put without a swap. -/
theorem put_nothing {chunks : List (List UInt8)} (h : chunks.flatten = []) : w.put chunks = .ok w := by
  induction chunks with
  | nil => rfl
  | cons chunk chunks ih =>
    obtain ⟨rfl, hrest⟩ := List.append_eq_nil_iff.mp h
    by_cases he : w.serError.isSome = true
    · exact if_pos he
    · rw [put, if_neg he]
      exact ih hrest

/-- A call that writes nothing may still swap the chunk. -/
theorem Idle.step {op : Write} (h : w.Idle) (hz : op.size = 0) (hs : op.step w = .ok w') : w'.Idle := by
  cases op with
  | put chunks =>
    rw [Write.step, put_nothing (List.length_eq_zero_iff.mp hz)] at hs
    obtain rfl := Except.ok.inj hs
    exact h
  | putSlice src =>
    obtain rfl : src = [] := List.length_eq_zero_iff.mp hz
    obtain rfl := Except.ok.inj hs
    exact h
  | pad => cases hz
  | tryReserve size =>
    obtain ⟨⟨r, w₁⟩, hres, hs⟩ := Panics.bind_eq_ok.mp hs
    obtain rfl := Except.ok.inj hs
    unfold BufferEncoder.tryReserve at hres
    simp only at hres
    split at hres
    · obtain ⟨-, rfl⟩ := Prod.mk.inj (Except.ok.inj hres)
      exact h
    split at hres
    · have hchain : w₁.chainHead = none := by
        simp only [chainAndSwap, h.getChunkLease_buffer, bind, Except.bind] at hres
        rw [← (Prod.mk.inj (Except.ok.inj hres)).2]
        exact h.chain
      obtain ⟨lease, e, hget, -, hbuf, -⟩ := chainAndSwap_inv hres
      obtain ⟨-, hwo, hro, -⟩ := getChunkLease_keeps hget
      refine ⟨hchain, ?_⟩
      rw [hbuf]
      unfold EncodeBuffer.swapBuffer
      generalize e.bufferPool.getBuffer = x
      obtain ⟨o, p⟩ := x
      cases o with
      | none => exact hwo.trans hro.symm
      | some b => rfl
    · obtain ⟨-, rfl⟩ := Prod.mk.inj (Except.ok.inj hres)
      exact ⟨h.chain, h.aligned⟩

theorem Idle.runWrites {ops : List Write} (h : w.Idle) (hz : (ops.map Write.size).sum = 0)
    (hs : w.runWrites ops = .ok w') : w'.Idle := by
  induction ops generalizing w with
  | nil =>
    obtain rfl := Except.ok.inj hs
    exact h
  | cons op ops ih =>
    rw [List.map_cons, List.sum_cons] at hz
    obtain ⟨w₁, hstep, hs⟩ := Panics.bind_eq_ok.mp hs
    exact ih (h.step (by omega) hstep) (by omega) hs

/-- No lease is returned if there is an error, or nothing was written. -/
theorem getChunkLease_error (h : w.serError.isSome = true ∨ w.Idle) : ∃ err w', w.getChunkLease = .ok (.error err, w') := by
  unfold getChunkLease
  cases he : w.serError with
  | some err => exact ⟨err, _, rfl⟩
  | none =>
    rcases h with h | h
    · rw [he] at h
      cases h
    · simp only [h.getChunkLease_buffer, h.chain]
      exact ⟨_, _, rfl⟩

/-- And only then. -/
theorem Inv.written_of_error {r : Except SerError ChunkLease} (h : w.Inv leases) (he : w.serError = none)
    (hr : w.getChunkLease = .ok (r, w')) (herr : ∃ err, r = .error err) : w.written = [] := by
  obtain ⟨err, rfl⟩ := herr
  unfold getChunkLease at hr
  rw [he] at hr
  obtain ⟨⟨lease, e⟩, hget, hr⟩ := Panics.bind_eq_ok.mp hr
  rcases h.buffer.getChunkLease with ⟨hal, hnone⟩ | ⟨l, e', hsome, -⟩
  · rw [hnone] at hget
    obtain ⟨rfl, rfl⟩ := Prod.mk.inj (Except.ok.inj hget)
    cases hc : w.chainHead with
    | none => exact written_aligned hc hal
    | some c =>
      simp only [hc] at hr
      cases hr
  · rw [hsome] at hget
    obtain ⟨rfl, rfl⟩ := Prod.mk.inj (Except.ok.inj hget)
    cases hc : w.chainHead with
    | none =>
      simp only [hc] at hr
      cases hr
    | some c =>
      simp only [hc] at hr
      cases hr

/-- The calls return, and then the lease is exactly what they have written, with a new encoder
behind it, or an error where they have written nothing or a swap has found no chunk. -/
def Encodes (w : BufferEncoder) (ops : List Write) : Prop :=
  ∃ w₁ r w₂, w.runWrites ops = .ok w₁ ∧ w₁.getChunkLease = .ok (r, w₂) ∧
    ((∃ err, r = .error err) ↔ (ops.map Write.size).sum = 0 ∨ ∃ s ∈ w.swaps ops, ¬ s.Found) ∧
    ∀ l, r = .ok l → Spells ops (l.unread w₂.mem) ∧ BufferEncoder.new w₂.mem w₂.encodeBuffer = .ok w₂ ∧
      w₂.encodeBuffer.Ready

theorem new_eq {m : Mem} {e : EncodeBuffer} (h : BufferEncoder.new m e = .ok w) :
    w = ⟨m, e, none, none⟩ ∧ e.writeOffset = e.readOffset := by
  unfold BufferEncoder.new at h
  split at h
  · rename_i ha
    exact ⟨(Except.ok.inj h).symm, ha⟩
  · cases h

/-- A new encoder is in order. -/
theorem usable_new {m : Mem} {e : EncodeBuffer} (he : e.Ready) (h : BufferEncoder.new m e = .ok w) :
    w.Idle ∧ w.serError = none ∧ ∃ leases, w.Inv leases ∧ 128 ≤ w.encodeBuffer.bufferPool.chunkSize := by
  obtain ⟨rfl, ha⟩ := new_eq h
  obtain ⟨leases, hi⟩ := he.inv
  have hsame : { e with readOffset := e.writeOffset } = e := by
    obtain ⟨buffer, bufferPool, writeOffset, readOffset, minRemaining⟩ := e
    obtain rfl : writeOffset = readOffset := ha
    rfl
  rw [hsame] at hi
  exact ⟨⟨rfl, ha⟩, rfl, leases, ⟨hi, (fun l hl => by cases hl)⟩, he.roomy⟩

theorem encodes_of_soundRun {m : Mem} {e : EncodeBuffer} (he : e.Ready) (hw : BufferEncoder.new m e = .ok w)
    {ops : List Write} (h : SoundRun w ops) : Encodes w ops := by
  obtain ⟨hidle, hn, leases, hinv, hsize⟩ := usable_new he hw
  rcases runWrites_cases (.inl ⟨hinv, hsize⟩) ops with ⟨-, w₁, hrun, husable, hall⟩ | ⟨hnot, -⟩
  swap
  · exact absurd h hnot
  have hswaps := serError_iff hrun
  by_cases herr : w₁.serError = none
  swap
  · -- a swap has failed
    obtain ⟨err, w₂, hget⟩ := getChunkLease_error (.inl (Option.isSome_iff_ne_none.mpr herr))
    refine ⟨w₁, _, w₂, hrun, hget, iff_of_true ⟨err, rfl⟩ (.inr ?_), fun l hl => by cases hl⟩
    by_contra hno
    refine herr (hswaps.mpr ⟨hn, fun s hs => ?_⟩)
    by_contra hs'
    exact hno ⟨s, hs, hs'⟩
  have hfound := (hswaps.mp herr).2
  obtain ⟨-, bs, hbs, hwr⟩ := hall herr
  rw [written_aligned hidle.chain hidle.aligned.symm, List.nil_append] at hwr
  obtain ⟨hinv₁, hsize₁⟩ : w₁.Inv leases ∧ 128 ≤ w₁.encodeBuffer.bufferPool.chunkSize := by
    rcases husable with hi | hb
    · exact hi
    · have := hb.error
      rw [herr] at this
      cases this
  -- an error is due to nothing being written
  have hiff : ∀ {r w₂}, w₁.getChunkLease = .ok (r, w₂) →
      ((∃ err, r = .error err) ↔ (ops.map Write.size).sum = 0 ∨ ∃ s ∈ w.swaps ops, ¬ s.Found) := by
    intro r w₂ hget
    constructor
    · intro hr
      have hnil := hinv₁.written_of_error herr hget hr
      rw [hwr] at hnil
      rw [← length_of_spells hbs, hnil]
      exact .inl rfl
    · rintro (hz | ⟨s, hs, hno⟩)
      · obtain ⟨err, w', hget'⟩ := getChunkLease_error (.inr (hidle.runWrites hz hrun))
        rw [hget'] at hget
        obtain ⟨rfl, -⟩ := Prod.mk.inj (Except.ok.inj hget)
        exact ⟨err, rfl⟩
      · exact absurd (hfound s hs) hno
  rcases getChunkLease_spec hinv₁ with ⟨err, w₂, hget, -⟩ | ⟨l, w₂, hget, -, hinv₂, -, hn₂, hc₂, hown, hb, hal, hsize₂⟩
  · exact ⟨w₁, _, w₂, hrun, hget, hiff hget, fun l hl => by cases hl⟩
  · refine ⟨w₁, _, w₂, hrun, hget, hiff hget, fun l' hl' => ?_⟩
    obtain rfl := Except.ok.inj hl'
    refine ⟨?_, ?_, hinv₂.buffer.bound, hinv₂.buffer.active, by rw [hsize₂]; exact hsize₁, _, hinv₂.buffer.sound⟩
    · rw [ChunkLease.unread, hown.unread, List.drop_zero, hb, hwr]
      exact hbs
    · obtain ⟨m₂, e₂, c₂, n₂⟩ := w₂
      obtain rfl : c₂ = none := hc₂
      obtain rfl : n₂ = none := hn₂
      exact if_pos hal.symm

/-! ## Buffers -/

/-- A buffer that is read chunk by chunk. -/
structure Source (β : Type) where
  remaining : β → Nat
  chunk : β → List UInt8
  advance : β → Nat → β

variable {β : Type}

/-- It is read as the bytes it shows: as long as some remain its chunk is a non-empty beginning
of them. -/
structure Source.Shows (S : Source β) (view : β → List UInt8) : Prop where
  remaining : ∀ b, S.remaining b = (view b).length
  chunk : ∀ b, 0 < S.remaining b → 0 < (S.chunk b).length ∧ S.chunk b <+: view b
  advance : ∀ b n, view (S.advance b n) = (view b).drop n

/-- The loop of `put`, at most `n` rounds of it; none where it has not ended by then. -/
def putFrom (S : Source β) : Nat → BufferEncoder → β → Option (Panics BufferEncoder)
  | n, w, src =>
    if 0 < S.remaining src then
      if w.serError.isSome then some (.ok w)
      else
        match n with
        | 0 => none
        | n + 1 =>
          match w.putSlice (S.chunk src) with
          | .error e => some (.error e)
          | .ok w => putFrom S n w (S.advance src (S.chunk src).length)
    else some (.ok w)

/-- The loop ends after at most as many rounds as there are bytes, and puts the chunks that the
buffer is read in. -/
theorem putFrom_eq {S : Source β} {view : β → List UInt8} (h : S.Shows view) (k : Nat) (src : β)
    (hk : (view src).length ≤ k) :
    ∃ chunks, chunks.flatten = view src ∧
      ∀ w n, k ≤ n → putFrom S n w src = some (w.put chunks) := by
  induction k generalizing src with
  | zero =>
    have hnil : view src = [] := List.length_eq_zero_iff.mp (by omega)
    refine ⟨[], hnil.symm, fun w n _ => ?_⟩
    unfold putFrom
    rw [if_neg (by rw [h.remaining, hnil]; exact Nat.lt_irrefl 0)]
    rfl
  | succ k ih =>
    by_cases hpos : 0 < S.remaining src
    · obtain ⟨hlen, hpre⟩ := h.chunk src hpos
      obtain ⟨rest, hrest⟩ := hpre
      have hview : view (S.advance src (S.chunk src).length) = rest := by
        rw [h.advance, ← hrest, List.drop_left' rfl]
      have hshort : (view (S.advance src (S.chunk src).length)).length ≤ k := by
        rw [hview]
        have := congrArg List.length hrest
        rw [List.length_append] at this
        omega
      obtain ⟨chunks, hflat, hput⟩ := ih _ hshort
      refine ⟨S.chunk src :: chunks, by rw [List.flatten_cons, hflat, hview, hrest], fun w n hn => ?_⟩
      obtain ⟨n, rfl⟩ : ∃ n', n = n' + 1 := ⟨n - 1, by omega⟩
      unfold putFrom
      rw [if_pos hpos, put]
      by_cases he : w.serError.isSome = true
      · rw [if_pos he, if_pos he]
      · rw [if_neg he, if_neg he]
        cases w.putSlice (S.chunk src) with
        | error e => rfl
        | ok w₁ => exact hput w₁ n (by omega)
    · have hnil : view src = [] := List.length_eq_zero_iff.mp (by rw [← h.remaining]; omega)
      refine ⟨[], hnil.symm, fun w n _ => ?_⟩
      unfold putFrom
      rw [if_neg hpos]
      rfl

/-- From any state of the encode buffer and for any calls: what is returned is what was written,
if and only if no reservation swaps the chunk while the write offset is before the read offset.
And a `put` always ends. -/
theorem encodes_iff (m : Mem) (e : EncodeBuffer) (he : e.Ready) (w : BufferEncoder)
    (hw : BufferEncoder.new m e = .ok w) (ops : List Write) :
    (Encodes w ops ↔ SoundRun w ops) ∧
      ∀ {β : Type} (S : Source β) (view : β → List UInt8), S.Shows view → ∀ src,
        ∃ chunks, chunks.flatten = view src ∧
          ∀ w n, (view src).length ≤ n → putFrom S n w src = some (w.put chunks) := by
  refine ⟨⟨?_, encodes_of_soundRun he hw⟩, fun S view h src => putFrom_eq h _ src (Nat.le_refl _)⟩
  rintro ⟨w₁, r, w₂, hrun, -⟩
  obtain ⟨-, -, leases, hinv, hsize⟩ := usable_new he hw
  rcases runWrites_cases (.inl ⟨hinv, hsize⟩) ops with ⟨hs, -⟩ | ⟨-, err, hpanic⟩
  · exact hs
  · rw [hpanic] at hrun
    cases hrun

/-- A head that is padded over two chunks, and something behind it. -/
theorem encodes_iff_straddling : Encodes ⟨fun _ _ => 0, nearlyFull, none, none⟩ [.pad, .put [[1, 2], [3]]] := by
  refine (encodes_iff (fun _ _ => 0) nearlyFull ready_nearlyFull _ rfl _).1.mpr ?_
  exact ⟨trivial, fun _ _ => ⟨trivial, fun _ _ => trivial⟩⟩

/-- Three bytes are left in the active chunk, and the only other one is leased. -/
def exhausted : EncodeBuffer where
  buffer := ⟨1, 128, 1, false⟩
  bufferPool := ⟨[⟨2, 128, 2, true⟩], 2, 128, 2, 3⟩
  writeOffset := 125
  readOffset := 125
  minRemaining := 0

theorem ready_exhausted : exhausted.Ready := by
  refine ⟨by decide, rfl, by decide, [2], ⟨by decide, by decide, by decide, by decide, by decide⟩, ?_⟩
  intro b hb hl
  rw [List.mem_singleton.mp hb] at hl
  cases hl

/-- The padding fails, and then a reservation that swaps the chunk panics. -/
theorem not_encodes_reserve :
    exhausted.Ready ∧ BufferEncoder.new (fun _ _ => 0) exhausted = .ok ⟨fun _ _ => 0, exhausted, none, none⟩ ∧
      runWrites ⟨fun _ _ => 0, exhausted, none, none⟩ [.pad, .tryReserve 125] =
        .error "attempt to subtract with overflow" ∧
      ¬ Encodes ⟨fun _ _ => 0, exhausted, none, none⟩ [.pad, .tryReserve 125] := by
  have hpanic : runWrites ⟨fun _ _ => 0, exhausted, none, none⟩ [.pad, .tryReserve 125] =
      .error "attempt to subtract with overflow" := rfl
  refine ⟨ready_exhausted, rfl, hpanic, ?_⟩
  rintro ⟨w₁, r, w₂, hrun, -⟩
  rw [hpanic] at hrun
  cases hrun

end BufferEncoder

end Kompact
