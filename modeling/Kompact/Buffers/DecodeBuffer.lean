import Kompact.Buffers.Frames

/-!
# The decode buffer

A `DecodeBuffer` decodes frames while its chunk is being filled. Readable bytes
are those of the chain of leases that earlier chunks left (`chainHead`), then
those of the active chunk between the two offsets; a frame head may already
have been taken from them (`nextFrameHead`).

`Inv` is what every operation keeps, and `view` what the buffer stands for: a
decoder of the frame format over the readable bytes. The operations do on the
view what the format's decoder does (`decodeFrameHead_spec`, `hasFrame_spec`,
`getFrame_spec`, `view_write`), and `swapBuffer` leaves it alone
(`swapBuffer_spec`).
-/

namespace Kompact

/-- The part of the buffer configuration the decode buffer uses. -/
structure BufferConfig where
  encodeBufMinFreeSpace : Nat
  deriving DecidableEq, Repr

/-- A lease of the bytes from `lo` to `hi`, and the chunk with its lock cloned. -/
def BufferChunk.getLease (b : BufferChunk) (lo hi : Nat) : Panics (ChunkLease × BufferChunk) := do
  let (lock, b) := b.getLock
  let slice ← b.getSlice lo hi
  return (.new slice lock, b)

structure DecodeBuffer where
  buffer : BufferChunk
  writeOffset : Nat
  readOffset : Nat
  nextFrameHead : Option FrameHead
  /-- Used when data spans across multiple chunks. -/
  chainHead : Option ChunkLease
  bufferConfig : BufferConfig
  deriving DecidableEq, Repr

namespace DecodeBuffer

/-- A new buffer; the offsets only track the current chunk, not the chain. -/
def new (buffer : BufferChunk) (cfg : BufferConfig) : DecodeBuffer where
  buffer := buffer
  writeOffset := 0
  readOffset := 0
  nextFrameHead := none
  chainHead := none
  bufferConfig := cfg

/-- The number of readable bytes. -/
def readableLen (d : DecodeBuffer) : Nat :=
  (d.chainHead.elim 0 ChunkLease.remaining) + (d.writeOffset - d.readOffset)

/-- The number of writable bytes left in the current chunk. -/
def writeableLen (d : DecodeBuffer) : Nat := d.buffer.len - d.writeOffset

def advanceWriteable (d : DecodeBuffer) (numBytes : Nat) : DecodeBuffer :=
  { d with writeOffset := d.writeOffset + numBytes }

def isWriteable (d : DecodeBuffer) : Bool := 8 < d.writeableLen

/-- The writable slice; the caller must swap the chunk when there is none. -/
def getWriteable (d : DecodeBuffer) : Panics (Option Slice) :=
  if d.isWriteable then (d.buffer.getSlice d.writeOffset d.buffer.len).map some else .ok none

/-- A lease of the next `length` readable bytes. -/
def readChunkLease (d : DecodeBuffer) (length : Nat) : Panics (ChunkLease × DecodeBuffer) :=
  match d.chainHead with
  | some chainHead =>
    if length < chainHead.remaining then do
      let (chainHead, tail) ← chainHead.splitAt length
      return (chainHead, { d with chainHead := some tail })
    else if chainHead.remaining = length then .ok (chainHead, { d with chainHead := none })
    else do
      let tailLength := length - chainHead.remaining
      let (tail, buffer) ← d.buffer.getLease d.readOffset (d.readOffset + tailLength)
      return (chainHead.appendToChain tail,
        { d with buffer, chainHead := none, readOffset := d.readOffset + tailLength })
  | none => do
    let (lease, buffer) ← d.buffer.getLease d.readOffset (d.readOffset + length)
    return (lease, { d with buffer, readOffset := d.readOffset + length })

/-- Take the head of the next frame, if it is there and not taken yet. -/
def decodeFrameHead (m : Mem) (d : DecodeBuffer) : Panics (Except FramingError Unit × DecodeBuffer) :=
  if d.nextFrameHead.isNone ∧ frameHeadLen ≤ d.readableLen then do
    let (lease, d) ← d.readChunkLease frameHeadLen
    match ← FrameHead.decodeFrom m lease with
    | .error e => return (.error e, d)
    | .ok head => return (.ok (), { d with nextFrameHead := some head })
  else .ok (.ok (), d)

/-- The head that has been taken, when the bytes of its frame are there. -/
def readyHead (d : DecodeBuffer) : Option FrameHead :=
  d.nextFrameHead.filter fun head => head.contentLength ≤ d.readableLen

/-- Whether a complete frame is available. -/
def hasFrame (m : Mem) (d : DecodeBuffer) : Panics (Except FramingError Bool × DecodeBuffer) := do
  match ← d.decodeFrameHead m with
  | (.error e, d) => return (.error e, d)
  | (.ok _, d) => return (.ok d.readyHead.isSome, d)

/-- `map_err(|_| FramingError::InvalidFrame)`. -/
def invalidFrame (r : Except FramingError Frame) : Except FramingError Frame :=
  r.mapError fun _ => .invalidFrame

/-- Decode the frame whose head has been taken. -/
def decodeBody (m : Mem) (d : DecodeBuffer) (head : FrameHead) :
    Panics (Except FramingError Frame × DecodeBuffer) :=
  match head.frameType with
  | .data => do
    let (lease, d) ← d.readChunkLease head.contentLength
    return (.ok (.data lease), d)
  | .hello => do
    let (lease, d) ← d.readChunkLease head.contentLength
    return (invalidFrame (← decodeHelloFrom m lease), d)
  | .start => do
    let (lease, d) ← d.readChunkLease head.contentLength
    return (invalidFrame (← decodeStartFrom m lease), d)
  | .bye => .ok (.ok .bye, d)
  | .ack => .ok (.ok .ack, d)
  | .unknown => .ok (.error .unsupportedFrameType, d)

/-- Decode one frame from the readable bytes. -/
def getFrame (m : Mem) (d : DecodeBuffer) : Panics (Except FramingError Frame × DecodeBuffer) := do
  match ← d.decodeFrameHead m with
  | (.error e, d) => return (.error e, d)
  | (.ok _, d) =>
    match d.readyHead with
    | none => return (.error .noData, d)
    | some head => decodeBody m { d with nextFrameHead := none } head

/-- The readable bytes of the active chunk as a lease, if there are any. -/
def getOverflow (d : DecodeBuffer) : Panics (Option ChunkLease × DecodeBuffer) :=
  if 0 < d.writeOffset - d.readOffset then do
    let (lease, buffer) ← d.buffer.getLease d.readOffset d.writeOffset
    return (some lease, { d with buffer, readOffset := d.readOffset + (d.writeOffset - d.readOffset) })
  else .ok (none, d)

/-- Whether the overflow is copied to the new chunk, and not chained. -/
def copiesOverflow (d : DecodeBuffer) (overflowLen : Nat) : Prop :=
  overflowLen < d.writeableLen ∧ d.bufferConfig.encodeBufMinFreeSpace < d.writeableLen - overflowLen

instance (d : DecodeBuffer) (n : Nat) : Decidable (d.copiesOverflow n) := inferInstanceAs (Decidable (_ ∧ _))

/-- Start a chain, or append to it. -/
def chainOverflow (d : DecodeBuffer) (overflow : ChunkLease) : DecodeBuffer :=
  match d.chainHead with
  | some chainHead => { d with chainHead := some (chainHead.appendToChain overflow) }
  | none => { d with chainHead := some overflow }

/-- Swap the active chunk with `other`, and lock the one that goes. What was
readable in it is copied to the new chunk, or put on the chain. -/
def swapBuffer (m : Mem) (d : DecodeBuffer) (other : BufferChunk) :
    Panics (Mem × DecodeBuffer × BufferChunk) := do
  let (isFree, other) := other.free
  if !isFree then throw "Swapping with locked buffer"
  let (overflow, d) ← d.getOverflow
  let (d, other) := ({ d with buffer := other, readOffset := 0, writeOffset := 0 }, d.buffer)
  match overflow with
  | none => return (m, d, other.lock)
  | some overflow =>
    let overflowLen := overflow.remaining
    if d.copiesOverflow overflowLen then
      let slice ← d.buffer.getSlice 0 overflowLen
      let (bs, _) ← overflow.copyToSlice m overflowLen
      return (m.write slice.chunk slice.off bs, { d with writeOffset := overflowLen }, other.lock)
    else return (m, d.chainOverflow overflow, other.lock)

/-! ## Invariant and view -/

/-- The offsets are in order, the active chunk is not locked, and the chain
is an unread lease of bytes apart from the writable ones. -/
structure Inv (d : DecodeBuffer) : Prop where
  offsets : d.readOffset ≤ d.writeOffset
  bound : d.writeOffset ≤ d.buffer.len
  unlocked : d.buffer.locked = false
  chain_wf : ∀ l ∈ d.chainHead, l.WF ∧ l.readPointer = 0
  chain_below : ∀ l ∈ d.chainHead, l.Below d.buffer.chunk d.readOffset

/-- The bytes of the chain. -/
def chainBytes (m : Mem) (d : DecodeBuffer) : List UInt8 := d.chainHead.elim [] (ChunkLease.bytes m)

/-- The readable bytes of the active chunk. -/
def activeBytes (m : Mem) (d : DecodeBuffer) : List UInt8 :=
  m.bytes d.buffer.chunk d.readOffset (d.writeOffset - d.readOffset)

/-- All readable bytes, in the order of the stream. -/
def readable (m : Mem) (d : DecodeBuffer) : List UInt8 := d.chainBytes m ++ d.activeBytes m

/-- The decoder the buffer stands for. -/
def view (m : Mem) (d : DecodeBuffer) : Decoder UInt8 FrameHead := ⟨d.nextFrameHead, d.readable m⟩

theorem Inv.length_readable {d : DecodeBuffer} (h : d.Inv) (m : Mem) : (d.readable m).length = d.readableLen := by
  rw [readable, List.length_append, activeBytes, Mem.length_bytes, readableLen, chainBytes]
  cases hc : d.chainHead with
  | none => rfl
  | some l =>
    obtain ⟨hwf, hr⟩ := h.chain_wf l hc
    simp only [Option.elim_some, hwf.length_bytes, ChunkLease.remaining, hr, Nat.sub_zero]

theorem inv_new {b : BufferChunk} (h : b.locked = false) (cfg : BufferConfig) : (new b cfg).Inv :=
  ⟨Nat.le_refl _, Nat.zero_le _, h, (fun _ hl => by cases hl), (fun _ hl => by cases hl)⟩

/-- The invariant and the readable bytes say nothing about the frame head. -/
theorem Inv.setHead {d : DecodeBuffer} (h : d.Inv) (o : Option FrameHead) :
    { d with nextFrameHead := o }.Inv :=
  ⟨h.offsets, h.bound, h.unlocked, h.chain_wf, h.chain_below⟩

/-! ## Reading -/

theorem getLease_spec {b : BufferChunk} {lo hi : Nat} (hlt : lo < hi) (hle : hi ≤ b.len)
    (hu : b.locked = false) :
    b.getLease lo hi = .ok (.new ⟨b.chunk, lo, hi - lo⟩ b.chunk, { b with refCount := b.refCount + 1 }) := by
  have hs : b.getLock.2.getSlice lo hi = .ok ⟨b.chunk, lo, hi - lo⟩ :=
    if_pos ⟨hlt, hle, by simp [BufferChunk.getLock, hu]⟩
  rw [BufferChunk.getLease]
  simp only [hs]
  rfl

/-- What reading `n` bytes does: a lease of them is returned, the others stay. -/
structure Reads (d : DecodeBuffer) (n : Nat) (l : ChunkLease) (d' : DecodeBuffer) : Prop where
  inv : d'.Inv
  head : d'.nextFrameHead = d.nextFrameHead
  wf : l.WF
  readPointer : l.readPointer = 0
  bytes : ∀ m, l.bytes m = (d.readable m).take n
  rest : ∀ m, d'.readable m = (d.readable m).drop n

/-- Reading from the active chunk. -/
theorem activeBytes_split (m : Mem) {d : DecodeBuffer} {n : Nat} (hn : n ≤ d.writeOffset - d.readOffset) :
    m.bytes d.buffer.chunk d.readOffset n = (d.activeBytes m).take n ∧
      m.bytes d.buffer.chunk (d.readOffset + n) (d.writeOffset - (d.readOffset + n)) =
        (d.activeBytes m).drop n := by
  refine ⟨(Mem.take_bytes _ _ _ hn).symm, ?_⟩
  rw [activeBytes, Mem.drop_bytes _ _ _ hn, Nat.sub_sub]

/-- Without a chain there must be a byte to read, as no slice is empty. -/
theorem readChunkLease_reads {d : DecodeBuffer} (h : d.Inv) {n : Nat} (hpos : 0 < n ∨ d.chainHead.isSome)
    (hn : n ≤ d.readableLen) : ∃ l d', d.readChunkLease n = .ok (l, d') ∧ Reads d n l d' := by
  obtain ⟨hoff, hbound, hu, hwf, hbelow⟩ := h
  cases hc : d.chainHead with
  | none =>
    have hpos : 0 < n := by simpa [hc] using hpos
    have hlen : n ≤ d.writeOffset - d.readOffset := by simpa [readableLen, hc] using hn
    refine ⟨_, _, by simp only [readChunkLease, hc]
                     rw [getLease_spec (by omega) (by omega) hu]; rfl, ?_⟩
    refine ⟨⟨?_, hbound, hu, ?_, ?_⟩, rfl, ChunkLease.wf_new _ _, rfl, fun m => ?_, fun m => ?_⟩
    · show d.readOffset + n ≤ d.writeOffset; omega
    · intro _ hx; cases hx
    · intro _ hx; cases hx
    · simp only [ChunkLease.bytes_new, Slice.bytes, Nat.add_sub_cancel_left, readable, chainBytes, hc,
        Option.elim_none, List.nil_append]
      exact (activeBytes_split m hlen).1
    · simp only [readable, chainBytes, hc, Option.elim_none, List.nil_append]
      exact (activeBytes_split m hlen).2
  | some l =>
    obtain ⟨hl, hr⟩ := hwf l hc
    have hb := hbelow l hc
    have hrem : l.remaining = l.capacity := by rw [ChunkLease.remaining, hr, Nat.sub_zero]
    have hlb : ∀ m, (l.bytes m).length = l.capacity := hl.length_bytes
    have hreadable : ∀ m, d.readable m = l.bytes m ++ d.activeBytes m := fun m => by
      simp only [readable, chainBytes, hc, Option.elim_some]
    rcases Nat.lt_trichotomy n l.capacity with hlt | heq | hgt
    · -- part of the chain
      obtain ⟨l', t, hs, sp⟩ := ChunkLease.splitAt_spec hl (Nat.le_of_lt hlt)
      refine ⟨l', { d with chainHead := some t }, by simp only [readChunkLease, hc, hrem, hlt, ite_true, hs]; rfl,
        ⟨hoff, hbound, hu, ?_, ?_⟩, rfl, sp.wf, sp.readPointer.trans hr, fun m => ?_, fun m => ?_⟩
      · rintro _ ⟨⟩; exact ⟨sp.wf_tail, sp.readPointer_tail⟩
      · rintro _ ⟨⟩; exact (sp.below _ _ hb).2
      · rw [hreadable, List.take_append_of_le_length (by rw [hlb]; omega), sp.bytes]
      · rw [hreadable, List.drop_append_of_le_length (by rw [hlb]; omega), ← sp.bytes_tail]; rfl
    · -- the chain
      refine ⟨l, { d with chainHead := none }, ?_, ⟨hoff, hbound, hu, ?_, ?_⟩, rfl, hl, hr, fun m => ?_, fun m => ?_⟩
      · simp only [readChunkLease, hc, hrem, heq, Nat.lt_irrefl, ite_true, ite_false]
      · intro _ hx; cases hx
      · intro _ hx; cases hx
      · rw [hreadable, List.take_left' (by rw [hlb, heq])]
      · rw [hreadable, List.drop_left' (by rw [hlb, heq])]; rfl
    · -- the chain and a part of the active chunk
      have hlen : n - l.capacity ≤ d.writeOffset - d.readOffset := by
        have : n ≤ l.remaining + (d.writeOffset - d.readOffset) := by simpa [readableLen, hc] using hn
        omega
      refine ⟨_, _, by simp only [readChunkLease, hc, hrem, show ¬ n < l.capacity by omega,
                          show ¬ l.capacity = n by omega, ite_false]
                       rw [getLease_spec (by omega) (by omega) hu]; rfl, ?_⟩
      refine ⟨⟨?_, hbound, hu, (fun _ hx => by cases hx), (fun _ hx => by cases hx)⟩, rfl,
        hl.appendToChain (ChunkLease.wf_new _ _) rfl, ?_, fun m => ?_, fun m => ?_⟩
      · show d.readOffset + (n - l.capacity) ≤ d.writeOffset; omega
      · rw [ChunkLease.readPointer_appendToChain, hr]
      · rw [ChunkLease.bytes_appendToChain, hreadable, List.take_append,
          List.take_of_length_le (show (l.bytes m).length ≤ n by rw [hlb]; omega), hlb,
          ← (activeBytes_split m hlen).1]
        simp only [ChunkLease.bytes_new, Slice.bytes, Nat.add_sub_cancel_left]
      · rw [hreadable, List.drop_append, List.drop_of_length_le (show (l.bytes m).length ≤ n by rw [hlb]; omega),
          hlb, ← (activeBytes_split m hlen).2]
        rfl

theorem readChunkLease_spec {d : DecodeBuffer} (h : d.Inv) {n : Nat} (hpos : 0 < n) (hn : n ≤ d.readableLen) :
    ∃ l d', d.readChunkLease n = .ok (l, d') ∧ Reads d n l d' :=
  readChunkLease_reads h (.inl hpos) hn

/-- The bytes of a head, when there are enough of them. -/
theorem readHead_spec {m : Mem} {d : DecodeBuffer} (h : d.Inv) (hl : frameHeadLen ≤ d.readableLen) :
    ∃ l d', d.readChunkLease frameHeadLen = .ok (l, d') ∧ Reads d frameHeadLen l d' ∧
      l.unread m = (d.readable m).take frameHeadLen ∧ (l.unread m).length = frameHeadLen := by
  obtain ⟨l, d', hr, rd⟩ := readChunkLease_spec h (show 0 < frameHeadLen by decide) hl
  have hu : l.unread m = (d.readable m).take frameHeadLen := by
    rw [ChunkLease.unread, rd.readPointer, List.drop_zero, rd.bytes]
  have hul : (l.unread m).length = frameHeadLen := by rw [hu, List.length_take, h.length_readable m]; omega
  exact ⟨l, d', hr, rd, hu, hul⟩

/-- Taking a head does what the format's `fetchHead` does, when that succeeds. -/
theorem decodeFrameHead_spec {m : Mem} {d : DecodeBuffer} (h : d.Inv) {v : Decoder UInt8 FrameHead}
    (hf : frameFormat.fetchHead (d.view m) = (.ok (), v)) :
    ∃ d', d.decodeFrameHead m = .ok (.ok (), d') ∧ d'.Inv ∧ d'.view m = v := by
  have hlen := h.length_readable m
  cases hh : d.nextFrameHead with
  | some head =>
    simp only [FrameFormat.fetchHead, view, hh, Prod.mk.injEq, true_and] at hf
    refine ⟨d, ?_, h, by rw [← hf, view, hh]⟩
    simp only [decodeFrameHead, hh, Option.isNone_some, Bool.false_eq_true, false_and, ite_false]
  | none =>
    simp only [FrameFormat.fetchHead, view, hh, hlen] at hf
    by_cases hl : frameHeadLen ≤ d.readableLen
    · rw [if_pos (show frameFormat.headLen ≤ d.readableLen from hl)] at hf
      obtain ⟨l, d', hr, rd, hu, hul⟩ := readHead_spec (m := m) h hl
      split at hf
      · rename_i head hd
        have hdec := decodeFrom_spec m rd.wf hul (by rw [hu]; exact hd)
        refine ⟨{ d' with nextFrameHead := some head }, ?_, rd.inv.setHead _, ?_⟩
        · simp only [decodeFrameHead, hh, Option.isNone_none, hl, and_self, ite_true, hr]
          show (FrameHead.decodeFrom m l >>= _) = _
          rw [hdec]; rfl
        · rw [← (Prod.mk.inj hf).2]
          exact congrArg (Decoder.mk (some head)) (rd.rest m)
      · cases hf
    · rw [if_neg (show ¬ frameFormat.headLen ≤ d.readableLen from hl)] at hf
      refine ⟨d, ?_, h, by rw [← (Prod.mk.inj hf).2, view, hh]⟩
      simp only [decodeFrameHead, hl, and_false, ite_false]

theorem readyHead_eq {d : DecodeBuffer} (h : d.Inv) (m : Mem) : d.readyHead = frameFormat.ready (d.view m) := by
  rw [readyHead, FrameFormat.ready, view, h.length_readable m]; rfl

theorem hasFrame_spec {m : Mem} {d : DecodeBuffer} (h : d.Inv) {b : Bool} {v : Decoder UInt8 FrameHead}
    (hp : frameFormat.hasFrame (d.view m) = (.ok b, v)) :
    ∃ d', d.hasFrame m = .ok (.ok b, d') ∧ d'.Inv ∧ d'.view m = v := by
  simp only [FrameFormat.hasFrame] at hp
  split at hp
  · cases hp
  · rename_i hf
    obtain ⟨d', hd, hinv, hv⟩ := decodeFrameHead_spec h hf
    obtain ⟨hb, rfl⟩ := Prod.mk.inj hp
    refine ⟨d', ?_, hinv, hv⟩
    rw [DecodeBuffer.hasFrame, hd, ← Except.ok.inj hb, ← hv, ← readyHead_eq hinv m]
    rfl

theorem getFrame_eq {m : Mem} {d d' : DecodeBuffer} (h : d.decodeFrameHead m = .ok (.ok (), d')) :
    d.getFrame m = match d'.readyHead with
      | none => .ok (.error .noData, d')
      | some head => decodeBody m { d' with nextFrameHead := none } head := by
  rw [getFrame, h]; rfl

theorem getFrame_noData {m : Mem} {d : DecodeBuffer} (h : d.Inv) {v : Decoder UInt8 FrameHead}
    (hp : frameFormat.poll (d.view m) = (.noData, v)) :
    ∃ d', d.getFrame m = .ok (.error .noData, d') ∧ d'.Inv ∧ d'.view m = v := by
  simp only [FrameFormat.poll] at hp
  split at hp
  · cases hp
  · rename_i hf
    obtain ⟨d', hd, hinv, hv⟩ := decodeFrameHead_spec h hf
    split at hp
    · rename_i hready
      rw [← hv, ← readyHead_eq hinv m] at hready
      refine ⟨d', ?_, hinv, by rw [hv, (Prod.mk.inj hp).2]⟩
      rw [getFrame_eq hd, hready]
    · split at hp <;> cases hp

/-- A body of the format needs at least one byte, unless its frame has none. -/
theorem decodeContent_pos {t : FrameType} {bs : List UInt8} {f : WireFrame} (h : decodeContent t bs = some f) :
    0 < bs.length := by
  rcases bs with _ | ⟨b, bs⟩
  · cases t <;> simp [decodeContent, decodeAddr] at h
  · simp

/-- A body with content is read as a lease of its bytes. -/
theorem readContent_spec {m : Mem} {d : DecodeBuffer} (h : d.Inv) {t : FrameType} {n : Nat} {f : WireFrame}
    (hl : n ≤ d.readableLen) (hc : decodeContent t ((d.readable m).take n) = some f) :
    ∃ l d', d.readChunkLease n = .ok (l, d') ∧ Reads d n l d' ∧ decodeContent t (l.unread m) = some f := by
  have hpos := decodeContent_pos hc
  rw [List.length_take] at hpos
  obtain ⟨l, d', hr, rd⟩ := readChunkLease_spec h (show 0 < n by omega) hl
  refine ⟨l, d', hr, rd, ?_⟩
  rw [ChunkLease.unread, rd.readPointer, List.drop_zero, rd.bytes, hc]

/-- A body other than those of `Ack` and `Bye` frames is decoded from its content. -/
theorem decodeBody_content {t : FrameType} {n : Nat} {bs rest : List UInt8} {f : WireFrame} (ha : t ≠ .ack)
    (hy : t ≠ .bye) (hb : frameFormat.decodeBody ⟨t, n⟩ bs = (.ok f, rest)) :
    decodeContent t (bs.take n) = some f ∧ bs.drop n = rest := by
  simp only [frameFormat] at hb
  cases hc : decodeContent t (bs.take n) with
  | none =>
    rw [hc] at hb
    cases t <;> first | contradiction | cases hb
  | some f' =>
    rw [hc] at hb
    cases t <;> first | contradiction | (cases hb; exact ⟨rfl, rfl⟩)

theorem decodeBody_spec {m : Mem} {d : DecodeBuffer} (h : d.Inv) {head : FrameHead} {f : WireFrame}
    {rest : List UInt8} (hl : head.contentLength ≤ d.readableLen)
    (hb : frameFormat.decodeBody head (d.readable m) = (.ok f, rest)) :
    ∃ g d', d.decodeBody m head = .ok (.ok g, d') ∧ g.view m = f ∧ d'.Inv ∧
      d'.nextFrameHead = d.nextFrameHead ∧ d'.readable m = rest := by
  obtain ⟨t, n⟩ := head
  -- the frames with content, each by its own decoder
  have hcontent (ha : t ≠ .ack) (hy : t ≠ .bye) :
      ∃ l d', d.readChunkLease n = .ok (l, d') ∧ Reads d n l d' ∧ decodeContent t (l.unread m) = some f ∧
        d'.readable m = rest := by
    obtain ⟨hc, hrest⟩ := decodeBody_content ha hy hb
    obtain ⟨l, d', hr, rd, hd⟩ := readContent_spec h hl hc
    exact ⟨l, d', hr, rd, hd, (rd.rest m).trans hrest⟩
  cases t with
  | ack =>
    obtain ⟨hg, hrest⟩ := Prod.mk.inj hb
    exact ⟨.ack, d, rfl, Except.ok.inj hg, h, rfl, hrest⟩
  | bye =>
    obtain ⟨hg, hrest⟩ := Prod.mk.inj hb
    exact ⟨.bye, d, rfl, Except.ok.inj hg, h, rfl, hrest⟩
  | data =>
    obtain ⟨l, d', hr, rd, hd, hrest⟩ := hcontent (by decide) (by decide)
    simp only [decodeContent] at hd
    split at hd
    · cases hd
    exact ⟨.data l, d', by simp only [decodeBody, hr]; rfl, Option.some.inj hd, rd.inv, rd.head, hrest⟩
  | hello =>
    obtain ⟨l, d', hr, rd, hd, hrest⟩ := hcontent (by decide) (by decide)
    obtain ⟨g, hg, hview⟩ := decodeHelloFrom_spec m rd.wf hd
    refine ⟨g, d', ?_, hview m, rd.inv, rd.head, hrest⟩
    simp only [decodeBody, hr, bind, Except.bind, hg]; rfl
  | start =>
    obtain ⟨l, d', hr, rd, hd, hrest⟩ := hcontent (by decide) (by decide)
    obtain ⟨g, hg, hview⟩ := decodeStartFrom_spec m rd.wf hd
    refine ⟨g, d', ?_, hview m, rd.inv, rd.head, hrest⟩
    simp only [decodeBody, hr, bind, Except.bind, hg]; rfl
  | unknown =>
    obtain ⟨l, d', hr, rd, hd, hrest⟩ := hcontent (by decide) (by decide)
    cases hd

theorem getFrame_frame {m : Mem} {d : DecodeBuffer} (h : d.Inv) {f : WireFrame} {v : Decoder UInt8 FrameHead}
    (hp : frameFormat.poll (d.view m) = (.frame f, v)) :
    ∃ g d', d.getFrame m = .ok (.ok g, d') ∧ g.view m = f ∧ d'.Inv ∧ d'.view m = v := by
  simp only [FrameFormat.poll] at hp
  split at hp
  · cases hp
  rename_i hf
  obtain ⟨d1, hd, hinv, hv⟩ := decodeFrameHead_spec h hf
  split at hp
  · cases hp
  rename_i head hready
  rw [← hv, ← readyHead_eq hinv m] at hready
  have hl : head.contentLength ≤ d1.readableLen := by
    have := (Option.filter_eq_some_iff.mp hready).2
    simpa using this
  split at hp
  · rename_i f' rest hbody
    rw [← hv] at hbody
    obtain ⟨g, d', hg, hview, hinv', hnone, hrest⟩ :=
      decodeBody_spec (hinv.setHead none) (show head.contentLength ≤ _ from hl) hbody
    obtain ⟨hfe, hve⟩ := Prod.mk.inj hp
    refine ⟨g, d', ?_, ?_, hinv', ?_⟩
    · rw [getFrame_eq hd, hready]; exact hg
    · injection hfe with hfe; rw [hview, hfe]
    · rw [view, hnone, hrest, ← hve]
  · cases hp

/-! ## Writing -/

/-- The writable slice is the rest of the active chunk. -/
theorem getWriteable_spec {d : DecodeBuffer} (h : d.Inv) :
    d.getWriteable = .ok (if d.isWriteable then some ⟨d.buffer.chunk, d.writeOffset, d.writeableLen⟩ else none) := by
  unfold getWriteable
  split
  · rename_i hw
    have hlt : d.writeOffset < d.buffer.len := by
      have : 8 < d.buffer.len - d.writeOffset := of_decide_eq_true hw
      omega
    rw [BufferChunk.getSlice, if_pos ⟨hlt, Nat.le_refl _, by simp [h.unlocked]⟩]; rfl
  · rfl

/-- Bytes written after the readable ones are readable after them. -/
theorem view_write {d : DecodeBuffer} (h : d.Inv) (m : Mem) {bs : List UInt8} (hl : bs.length ≤ d.writeableLen) :
    (d.advanceWriteable bs.length).Inv ∧
      (d.advanceWriteable bs.length).view (m.write d.buffer.chunk d.writeOffset bs) =
        FrameFormat.feed (d.view m) bs := by
  obtain ⟨hoff, hbound, hu, hwf, hbelow⟩ := h
  have hw : bs.length ≤ d.buffer.len - d.writeOffset := hl
  refine ⟨⟨?_, ?_, hu, hwf, hbelow⟩, ?_⟩
  · show d.readOffset ≤ d.writeOffset + bs.length; omega
  · show d.writeOffset + bs.length ≤ d.buffer.len; omega
  have hchain : d.chainBytes (m.write d.buffer.chunk d.writeOffset bs) = d.chainBytes m := by
    unfold chainBytes
    cases hc : d.chainHead with
    | none => rfl
    | some l =>
      refine ChunkLease.bytes_congr fun s hs => Mem.bytes_write_of_sep fun hchunk => .inl ?_
      have := hbelow l hc s hs hchunk
      omega
  have hactive : (m.write d.buffer.chunk d.writeOffset bs).bytes d.buffer.chunk d.readOffset
      (d.writeOffset + bs.length - d.readOffset) = d.activeBytes m ++ bs := by
    rw [show d.writeOffset + bs.length - d.readOffset = (d.writeOffset - d.readOffset) + bs.length by omega,
      Mem.bytes_add, Nat.add_sub_cancel' hoff, Mem.bytes_write_self, activeBytes]
    congr 1
    exact Mem.bytes_write_of_sep fun _ => .inl (by omega)
  show Decoder.mk d.nextFrameHead _ = Decoder.mk d.nextFrameHead (d.readable m ++ bs)
  congr 1
  rw [readable.eq_1 m d, List.append_assoc, ← hactive, ← hchain]
  rfl

/-! ## Swapping -/

/-- Neither the active chunk nor the chain uses chunk `c`. -/
def Fresh (d : DecodeBuffer) (c : ChunkId) : Prop :=
  d.buffer.chunk ≠ c ∧ ∀ l ∈ d.chainHead, ∀ s ∈ l.slices, s.chunk ≠ c

instance (d : DecodeBuffer) (c : ChunkId) : Decidable (d.Fresh c) := by
  unfold Fresh
  infer_instance

theorem below_of_not_mem {c : ChunkId} {o : Nat} {l : ChunkLease} (h : ∀ s ∈ l.slices, s.chunk ≠ c) :
    l.Below c o := fun s hs hc => absurd hc (h s hs)

theorem chainBytes_write {d : DecodeBuffer} {c : ChunkId} (h : d.Fresh c) (m : Mem) (bs : List UInt8) :
    d.chainBytes (m.write c 0 bs) = d.chainBytes m := by
  unfold chainBytes
  cases hc : d.chainHead with
  | none => rfl
  | some l => exact ChunkLease.bytes_congr fun s hs => Mem.bytes_write_of_sep fun e => absurd e (h.2 l hc s hs)

@[simp] theorem nextFrameHead_chainOverflow (d : DecodeBuffer) (o : ChunkLease) :
    (d.chainOverflow o).nextFrameHead = d.nextFrameHead := by
  unfold chainOverflow; split <;> rfl

@[simp] theorem activeBytes_chainOverflow (m : Mem) (d : DecodeBuffer) (o : ChunkLease) :
    (d.chainOverflow o).activeBytes m = d.activeBytes m := by
  unfold chainOverflow; split <;> rfl

/-- The chain after it took the overflow. -/
theorem chainOverflow_spec {d : DecodeBuffer} {o : ChunkLease} (hwf : ∀ l ∈ d.chainHead, l.WF ∧ l.readPointer = 0)
    (hbelow : ∀ l ∈ d.chainHead, l.Below d.buffer.chunk d.readOffset) (ho : o.WF) (hor : o.readPointer = 0)
    (hob : o.Below d.buffer.chunk d.readOffset) (hoff : d.readOffset ≤ d.writeOffset)
    (hbound : d.writeOffset ≤ d.buffer.len) (hu : d.buffer.locked = false) :
    (d.chainOverflow o).Inv ∧ ∀ m, (d.chainOverflow o).chainBytes m = d.chainBytes m ++ o.bytes m := by
  unfold chainOverflow
  cases hc : d.chainHead with
  | none =>
    refine ⟨⟨hoff, hbound, hu, ?_, ?_⟩, fun m => ?_⟩
    · rintro _ ⟨⟩; exact ⟨ho, hor⟩
    · rintro _ ⟨⟩; exact hob
    · simp only [chainBytes, hc, Option.elim_none, Option.elim_some, List.nil_append]
  | some l =>
    obtain ⟨hl, hr⟩ := hwf l hc
    refine ⟨⟨hoff, hbound, hu, ?_, ?_⟩, fun m => ?_⟩
    · rintro _ ⟨⟩; exact ⟨hl.appendToChain ho hor, by rw [ChunkLease.readPointer_appendToChain, hr]⟩
    · rintro _ ⟨⟩; exact (hbelow l hc).appendToChain hob
    · simp only [chainBytes, hc, Option.elim_some, ChunkLease.bytes_appendToChain]

/-- Swapping in a fresh free chunk changes where the readable bytes are, not
what they are: on the copy branch, at the start of a chain and at its end. -/
theorem swapBuffer_spec {m : Mem} {d : DecodeBuffer} (h : d.Inv) {other : BufferChunk}
    (hfree : other.free.1 = true) (hfresh : d.Fresh other.chunk) :
    ∃ m' d' other', d.swapBuffer m other = .ok (m', d', other') ∧ d'.Inv ∧ d'.view m' = d.view m := by
  obtain ⟨hoff, hbound, hu, hwf, hbelow⟩ := h
  obtain ⟨hu', hchunk', hlen'⟩ := BufferChunk.free_unlocked hfree
  have hb0 : ∀ l ∈ d.chainHead, l.Below other.free.2.chunk 0 := fun l hl => by
    rw [hchunk']; exact below_of_not_mem (hfresh.2 l hl)
  by_cases hpos : 0 < d.writeOffset - d.readOffset
  · -- there is overflow
    have hlease := getLease_spec (show d.readOffset < d.writeOffset by omega) hbound hu
    generalize ho : ChunkLease.new ⟨d.buffer.chunk, d.readOffset, d.writeOffset - d.readOffset⟩ d.buffer.chunk = o
      at hlease
    have howf : o.WF := ho ▸ ChunkLease.wf_new _ _
    have hor : o.readPointer = 0 := by rw [← ho]; rfl
    have hocap : o.capacity = d.writeOffset - d.readOffset := by rw [← ho]; rfl
    have horem : o.remaining = d.writeOffset - d.readOffset := by
      rw [ChunkLease.remaining, hor, hocap, Nat.sub_zero]
    have hobytes : o.bytes m = d.activeBytes m := by rw [← ho]; rfl
    have hob : o.Below other.free.2.chunk 0 := by
      rw [hchunk', ← ho]
      exact below_of_not_mem fun s hs => by
        rw [List.mem_singleton.mp hs]; exact hfresh.1
    have hov : d.getOverflow = .ok (some o, { d with
        buffer := { d.buffer with refCount := d.buffer.refCount + 1 }
        readOffset := d.readOffset + (d.writeOffset - d.readOffset) }) := by
      rw [getOverflow, if_pos hpos, hlease]; rfl
    by_cases hcopy : copiesOverflow { d with buffer := other.free.2, readOffset := 0, writeOffset := 0 } o.remaining
    · have hle : o.remaining ≤ other.free.2.len := by
        have : o.remaining < other.free.2.len - 0 := hcopy.1
        omega
      have hslice : other.free.2.getSlice 0 o.remaining = .ok ⟨other.free.2.chunk, 0, o.remaining⟩ := by
        rw [BufferChunk.getSlice, if_pos ⟨by omega, hle, by simp [hu']⟩]; rfl
      have hcp := ChunkLease.copyToSlice_spec m howf (show o.readPointer + o.remaining ≤ o.capacity by omega)
      have hbs : (o.unread m).take o.remaining = d.activeBytes m := by
        rw [ChunkLease.unread, hor, List.drop_zero, hobytes]
        exact List.take_of_length_le (by rw [activeBytes, Mem.length_bytes]; omega)
      rw [hbs] at hcp
      have hlen : (d.activeBytes m).length = o.remaining := by rw [activeBytes, Mem.length_bytes, horem]
      refine ⟨m.write other.free.2.chunk 0 (d.activeBytes m), { d with
        buffer := other.free.2, readOffset := 0, writeOffset := o.remaining },
        BufferChunk.lock { d.buffer with refCount := d.buffer.refCount + 1 }, ?_,
        ⟨Nat.zero_le _, hle, hu', hwf, hb0⟩, ?_⟩
      · simp only [swapBuffer, hfree, hov, bind, Except.bind, hslice, hcp, hcopy]; rfl
      · have hc : d.chainBytes (m.write other.free.2.chunk 0 (d.activeBytes m)) = d.chainBytes m := by
          rw [hchunk']; exact chainBytes_write hfresh m _
        show Decoder.mk d.nextFrameHead (d.chainBytes _ ++ Mem.bytes _ other.free.2.chunk 0 o.remaining) = _
        rw [hc, ← hlen, Mem.bytes_write_self]; rfl
    · obtain ⟨hinv, hbytes⟩ := chainOverflow_spec (o := o)
        (d := { d with buffer := other.free.2, readOffset := 0, writeOffset := 0 }) hwf hb0 howf hor hob
        (Nat.le_refl _) (Nat.zero_le _) hu'
      refine ⟨m, _, BufferChunk.lock { d.buffer with refCount := d.buffer.refCount + 1 }, ?_, hinv, ?_⟩
      · simp only [swapBuffer, hfree, hov, bind, Except.bind, hcopy, ite_false]; rfl
      · rw [view, readable, hbytes, hobytes]
        rw [nextFrameHead_chainOverflow, activeBytes_chainOverflow]
        simp only [activeBytes, Nat.sub_self, Mem.bytes_zero, List.append_nil]
        rfl
  · have hov : d.getOverflow = .ok (none, d) := by rw [getOverflow, if_neg hpos]
    refine ⟨m, { d with buffer := other.free.2, readOffset := 0, writeOffset := 0 }, d.buffer.lock, ?_,
      ⟨Nat.le_refl _, Nat.zero_le _, hu', hwf, hb0⟩, ?_⟩
    · simp only [swapBuffer, hfree, hov, bind, Except.bind]; rfl
    · have ha : d.activeBytes m = [] := by rw [activeBytes, show d.writeOffset - d.readOffset = 0 by omega]; rfl
      simp only [view, readable, ha]
      rfl

end DecodeBuffer

end Kompact
