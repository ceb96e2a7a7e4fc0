import Kompact.Buffers.BufferPool
import Kompact.Buffers.DecodeTotality
import Mathlib.Algebra.Order.BigOperators.Group.List

/-!
# Receiving

`read_frame` reads from the stream of a channel into its decode buffer, and
where the chunk of the buffer is full it swaps in another one and calls itself.
This ends if a chunk that was swapped in can be written to: then each further
call has taken something from the stream (`readFrame_returns`).

Whether it can depends on how much of the old chunk is copied to the new one.
At least `encode_buf_min_free_space` bytes stay free, while writing needs more
than eight. With a smaller setting the calls may go on for ever
(`readFrame_stuck`), so that `progress_iff` asks for a setting of eight or more.
-/

namespace Kompact

/-- The kinds of errors of a stream that `receive` tells apart. -/
inductive IoError where
  | wouldBlock
  | interrupted
  /-- `InvalidInput`, which stands for "No Buffer Space". -/
  | invalidInput
  | invalidData
  | other
  deriving DecidableEq, Repr

/-- What arrives on a stream: bytes (no bytes at its end), or an error. -/
inductive Arrival where
  | bytes (bs : List UInt8)
  | error (e : IoError)
  deriving DecidableEq, Repr

/-- A read into a slice of `n` bytes. What does not fit is left for the next one;
the stream blocks when nothing more has arrived. -/
def readStream (n : Nat) : List Arrival → Except IoError (List UInt8) × List Arrival
  | [] => (.error .wouldBlock, [])
  | .error e :: rest => (.error e, rest)
  | .bytes bs :: rest => if bs.length ≤ n then (.ok bs, rest) else (.ok (bs.take n), .bytes (bs.drop n) :: rest)

/-- The decode buffer of a channel, and its stream. -/
structure Receiver where
  world : Decoding.World
  stream : List Arrival

namespace Receiver

/-- At most so many reads, each of at least one byte, empty the stream. -/
def size (stream : List Arrival) : Nat :=
  (stream.map fun
    | .bytes bs => bs.length + 1
    | .error _ => 1).sum

/-- The loop of `receive`. A round takes something from the stream or is the last one. -/
def receiveLoop : Nat → Nat → Receiver → Panics (Except IoError Unit × Receiver)
  | 0, _, _ => .error "receive makes no progress"
  | fuel + 1, interrupts, r => do
    match ← r.world.buf.getWriteable with
    | none => return (.error .invalidInput, r)
    | some slice =>
      match readStream slice.len r.stream with
      | (.ok bs, stream) =>
        if bs = [] then return (.ok (), { r with stream })
        else
          receiveLoop fuel interrupts
            ⟨⟨r.world.mem.write slice.chunk slice.off bs, r.world.buf.advanceWriteable bs.length⟩, stream⟩
      | (.error .wouldBlock, stream) => return (.ok (), { r with stream })
      | (.error .interrupted, stream) =>
        if 9 ≤ interrupts + 1 then return (.error .interrupted, { r with stream })
        else receiveLoop fuel (interrupts + 1) { r with stream }
      | (.error e, stream) => return (.error e, { r with stream })

/-- Reads from the stream into the decode buffer, and nothing else. -/
def receive (r : Receiver) : Panics (Except IoError Unit × Receiver) := receiveLoop (size r.stream + 1) 0 r

/-- The end of `read_frame`: no data is no frame, and other errors are all the same. -/
def decode (r : Receiver) : Panics (Except IoError (Option Frame) × Receiver) := do
  let (res, buf) ← r.world.buf.getFrame r.world.mem
  let r := { r with world.buf := buf }
  match res with
  | .ok frame => return (.ok (some frame), r)
  | .error .noData => return (.ok none, r)
  | .error _ => return (.error .invalidData, r)

/-- `has_frame`, with a framing error as an error of the stream. -/
def hasFrame (r : Receiver) : Panics (Except IoError Bool × Receiver) := do
  let (res, buf) ← r.world.buf.hasFrame r.world.mem
  return (res.mapError fun _ => .invalidData, { r with world.buf := buf })

/-- What `read_frame` does before it calls itself. -/
inductive Round where
  | returns (res : Panics (Except IoError (Option Frame) × Receiver))
  /-- The chunk is full and there is no frame. -/
  | full (r : Receiver)

/-- The first part of `read_frame`, up to the swap. -/
def round (r : Receiver) : Round :=
  match r.hasFrame with
  | .error e => .returns (.error e)
  | .ok (.error e, r) => .returns (.ok (.error e, r))
  | .ok (.ok true, r) => .returns r.decode
  | .ok (.ok false, r) =>
    match r.receive with
    | .error e => .returns (.error e)
    | .ok (.ok _, r) => .returns r.decode
    | .ok (.error .invalidInput, r) =>
      match r.hasFrame with
      | .error e => .returns (.error e)
      | .ok (.error e, r) => .returns (.ok (.error e, r))
      | .ok (.ok true, r) => .returns r.decode
      | .ok (.ok false, r) => .full r
    | .ok (.error e, r) => .returns (.ok (.error e, r))

/-- `read_frame` with the chunks that the pool hands out, which calls itself at most `n`
times; none where this is not enough. -/
def readFrame (getBuffer : Nat → Receiver → Option BufferChunk) :
    Nat → Receiver → Option (Panics (Except IoError (Option Frame) × Receiver))
  | n, r =>
    match r.round with
    | .returns res => some res
    | .full r =>
      match n with
      | 0 => none
      | n + 1 =>
        match getBuffer n r with
        | none => some (.ok (.error .invalidInput, r))
        | some chunk =>
          match r.world.buf.swapBuffer r.world.mem chunk with
          | .error e => some (.error e)
          | .ok (mem, buf, _) => readFrame getBuffer n { r with world := ⟨mem, buf⟩ }

end Receiver

namespace DecodeBuffer

/-! ## What reading keeps -/

/-- The chunk has the same length, and the same part of it is left to be written. -/
structure SameRoom (d d' : DecodeBuffer) : Prop where
  len : d'.buffer.len = d.buffer.len
  writeOffset : d'.writeOffset = d.writeOffset
  config : d'.bufferConfig = d.bufferConfig

variable {m : Mem} {d d' : DecodeBuffer}

theorem SameRoom.refl (d : DecodeBuffer) : SameRoom d d := ⟨rfl, rfl, rfl⟩

theorem SameRoom.trans {d'' : DecodeBuffer} (h : SameRoom d d') (h' : SameRoom d' d'') : SameRoom d d'' :=
  ⟨h'.len.trans h.len, h'.writeOffset.trans h.writeOffset, h'.config.trans h.config⟩

theorem SameRoom.isWriteable (h : SameRoom d d') : d'.isWriteable = d.isWriteable := by
  rw [DecodeBuffer.isWriteable, DecodeBuffer.isWriteable, writeableLen, writeableLen, h.len, h.writeOffset]

theorem len_getLease {b b' : BufferChunk} {lo hi : Nat} {l : ChunkLease} (h : b.getLease lo hi = .ok (l, b')) :
    b'.len = b.len := by
  obtain ⟨s, -, hs⟩ := Panics.bind_eq_ok.mp h
  rw [← (Prod.mk.inj (Except.ok.inj hs)).2]

theorem sameRoom_readChunkLease {n : Nat} {l : ChunkLease} (h : d.readChunkLease n = .ok (l, d')) : SameRoom d d' := by
  unfold readChunkLease at h
  cases hc : d.chainHead with
  | none =>
    simp only [hc] at h
    obtain ⟨x, hg, hx⟩ := Panics.bind_eq_ok.mp h
    rw [← (Prod.mk.inj (Except.ok.inj hx)).2]
    exact ⟨len_getLease hg, rfl, rfl⟩
  | some chain =>
    simp only [hc] at h
    by_cases hlt : n < chain.remaining
    · rw [if_pos hlt] at h
      obtain ⟨x, -, hx⟩ := Panics.bind_eq_ok.mp h
      rw [← (Prod.mk.inj (Except.ok.inj hx)).2]
      exact ⟨rfl, rfl, rfl⟩
    rw [if_neg hlt] at h
    by_cases heq : chain.remaining = n
    · rw [if_pos heq] at h
      rw [← (Prod.mk.inj (Except.ok.inj h)).2]
      exact ⟨rfl, rfl, rfl⟩
    rw [if_neg heq] at h
    obtain ⟨x, hg, hx⟩ := Panics.bind_eq_ok.mp h
    rw [← (Prod.mk.inj (Except.ok.inj hx)).2]
    exact ⟨len_getLease hg, rfl, rfl⟩

theorem sameRoom_decodeFrameHead {r : Except FramingError Unit} (h : d.decodeFrameHead m = .ok (r, d')) :
    SameRoom d d' := by
  unfold decodeFrameHead at h
  by_cases hc : d.nextFrameHead.isNone ∧ frameHeadLen ≤ d.readableLen
  swap
  · rw [if_neg hc] at h
    rw [← (Prod.mk.inj (Except.ok.inj h)).2]
    exact .refl d
  rw [if_pos hc] at h
  obtain ⟨⟨lease, d₁⟩, hr, h⟩ := Panics.bind_eq_ok.mp h
  obtain ⟨res, -, h⟩ := Panics.bind_eq_ok.mp h
  have hroom := sameRoom_readChunkLease hr
  cases res with
  | error e =>
    rw [← (Prod.mk.inj (Except.ok.inj h)).2]
    exact hroom
  | ok head =>
    rw [← (Prod.mk.inj (Except.ok.inj h)).2]
    exact ⟨hroom.len, hroom.writeOffset, hroom.config⟩

theorem sameRoom_hasFrame {r : Except FramingError Bool} (h : d.hasFrame m = .ok (r, d')) : SameRoom d d' := by
  obtain ⟨⟨res, d₁⟩, hd, h⟩ := Panics.bind_eq_ok.mp h
  have hroom := sameRoom_decodeFrameHead hd
  cases res with
  | error e =>
    rw [← (Prod.mk.inj (Except.ok.inj h)).2]
    exact hroom
  | ok u =>
    rw [← (Prod.mk.inj (Except.ok.inj h)).2]
    exact hroom

theorem sameRoom_decodeBody {head : FrameHead} {r : Except FramingError Frame}
    (h : d.decodeBody m head = .ok (r, d')) : SameRoom d d' := by
  obtain ⟨t, n⟩ := head
  have hself : ∀ {x : Except FramingError Frame}, (Except.ok (x, d) : Panics _) = .ok (r, d') → SameRoom d d' := by
    intro x hx
    rw [← (Prod.mk.inj (Except.ok.inj hx)).2]
    exact .refl d
  cases t with
  | data =>
    obtain ⟨⟨lease, d₁⟩, hr, h⟩ := Panics.bind_eq_ok.mp h
    rw [← (Prod.mk.inj (Except.ok.inj h)).2]
    exact sameRoom_readChunkLease hr
  | hello =>
    obtain ⟨⟨lease, d₁⟩, hr, h⟩ := Panics.bind_eq_ok.mp h
    obtain ⟨res, -, h⟩ := Panics.bind_eq_ok.mp h
    rw [← (Prod.mk.inj (Except.ok.inj h)).2]
    exact sameRoom_readChunkLease hr
  | start =>
    obtain ⟨⟨lease, d₁⟩, hr, h⟩ := Panics.bind_eq_ok.mp h
    obtain ⟨res, -, h⟩ := Panics.bind_eq_ok.mp h
    rw [← (Prod.mk.inj (Except.ok.inj h)).2]
    exact sameRoom_readChunkLease hr
  | ack => exact hself h
  | bye => exact hself h
  | unknown => exact hself h

theorem sameRoom_getFrame {r : Except FramingError Frame} (h : d.getFrame m = .ok (r, d')) : SameRoom d d' := by
  obtain ⟨⟨res, d₁⟩, hd, h⟩ := Panics.bind_eq_ok.mp h
  have hroom := sameRoom_decodeFrameHead hd
  cases res with
  | error e =>
    rw [← (Prod.mk.inj (Except.ok.inj h)).2]
    exact hroom
  | ok u =>
    simp only at h
    cases hready : d₁.readyHead with
    | none =>
      rw [hready] at h
      rw [← (Prod.mk.inj (Except.ok.inj h)).2]
      exact hroom
    | some head =>
      rw [hready] at h
      have hbody := sameRoom_decodeBody h
      exact hroom.trans ⟨hbody.len, hbody.writeOffset, hbody.config⟩

/-! ## Room after a swap -/

/-- The overflow that a swap finds. -/
theorem getOverflow_cases {o : Option ChunkLease} (h : d.getOverflow = .ok (o, d')) :
    d'.bufferConfig = d.bufferConfig ∧
      ((o = none ∧ d.writeOffset - d.readOffset = 0) ∨
        ∃ l, o = some l ∧ l.remaining = d.writeOffset - d.readOffset ∧ 0 < l.remaining) := by
  unfold getOverflow at h
  by_cases hpos : 0 < d.writeOffset - d.readOffset
  · rw [if_pos hpos] at h
    obtain ⟨⟨l, b⟩, hg, h⟩ := Panics.bind_eq_ok.mp h
    obtain ⟨rfl, rfl⟩ := Prod.mk.inj (Except.ok.inj h)
    obtain ⟨s, hs, hl⟩ := Panics.bind_eq_ok.mp hg
    have hlen : l.remaining = d.writeOffset - d.readOffset := by
      rw [← (Prod.mk.inj (Except.ok.inj hl)).1]
      unfold BufferChunk.getSlice at hs
      split at hs
      · rw [← Except.ok.inj hs]
        rfl
      · cases hs
    exact ⟨rfl, .inr ⟨l, rfl, hlen, by omega⟩⟩
  · rw [if_neg hpos] at h
    obtain ⟨rfl, rfl⟩ := Prod.mk.inj (Except.ok.inj h)
    exact ⟨rfl, .inl ⟨rfl, by omega⟩⟩

theorem room_chainOverflow (d : DecodeBuffer) (o : ChunkLease) : SameRoom d (d.chainOverflow o) := by
  unfold chainOverflow
  cases d.chainHead with
  | none => exact ⟨rfl, rfl, rfl⟩
  | some l => exact ⟨rfl, rfl, rfl⟩

theorem readOffset_chainOverflow (d : DecodeBuffer) (o : ChunkLease) :
    (d.chainOverflow o).readOffset = d.readOffset := by
  unfold chainOverflow
  cases d.chainHead with
  | none => rfl
  | some l => rfl

/-- Where writing goes on after a swap: behind the bytes that were copied, or at the start
of the chunk. -/
theorem swapBuffer_room {other other' : BufferChunk} {m' : Mem} (h : d.swapBuffer m other = .ok (m', d', other')) :
    d'.buffer.len = other.len ∧ d'.bufferConfig = d.bufferConfig ∧ d'.readOffset = 0 ∧
      d'.writeOffset = if 0 < d.writeOffset - d.readOffset ∧ d.writeOffset - d.readOffset < other.len ∧
        d.bufferConfig.encodeBufMinFreeSpace < other.len - (d.writeOffset - d.readOffset)
      then d.writeOffset - d.readOffset else 0 := by
  unfold swapBuffer at h
  cases hf : other.free.1 with
  | false =>
    simp only [hf] at h
    cases h
  | true =>
    have hlen : other.free.2.len = other.len := (BufferChunk.free_unlocked hf).2.2
    simp only [hf] at h
    obtain ⟨⟨o, d₁⟩, ho, h⟩ := Panics.bind_eq_ok.mp h
    obtain ⟨hcfg, ⟨rfl, hz⟩ | ⟨l, rfl, hl, hpos⟩⟩ := getOverflow_cases ho
    · obtain ⟨-, hd⟩ := Prod.mk.inj (Except.ok.inj h)
      rw [← (Prod.mk.inj hd).1, hz]
      exact ⟨hlen, hcfg, rfl, by simp⟩
    rw [← hl]
    simp only [copiesOverflow, writeableLen, Nat.sub_zero, hlen, hcfg, hpos, true_and] at h ⊢
    by_cases hc : l.remaining < other.len ∧ d.bufferConfig.encodeBufMinFreeSpace < other.len - l.remaining
    · rw [if_pos hc] at h ⊢
      obtain ⟨s, -, h⟩ := Panics.bind_eq_ok.mp h
      obtain ⟨x, -, h⟩ := Panics.bind_eq_ok.mp h
      obtain ⟨-, hd⟩ := Prod.mk.inj (Except.ok.inj h)
      rw [← (Prod.mk.inj hd).1]
      exact ⟨hlen, rfl, rfl, rfl⟩
    · rw [if_neg hc] at h ⊢
      obtain ⟨-, hd⟩ := Prod.mk.inj (Except.ok.inj h)
      rw [← (Prod.mk.inj hd).1]
      have hroom := room_chainOverflow
        ⟨other.free.2, 0, 0, d₁.nextFrameHead, d₁.chainHead, d.bufferConfig⟩ l
      exact ⟨hroom.len.trans hlen, hroom.config, readOffset_chainOverflow _ l, hroom.writeOffset⟩

end DecodeBuffer

namespace Decoding

/-- A chunk that is swapped in has `n` bytes. -/
def Op.SwapsIn (n : Nat) : Op → Prop
  | swapBuffer other => other.len = n
  | _ => True

instance (n : Nat) : (op : Op) → Decidable (op.SwapsIn n)
  | .swapBuffer other => inferInstanceAs (Decidable (other.len = n))
  | .write _ | .hasFrame | .getFrame => inferInstanceAs (Decidable True)

/-- The states that a decode buffer gets into when all its chunks are of the size that is
configured. -/
inductive Reachable (cfg : PoolConfig) : World → Prop
  | new {m : Mem} {chunk : BufferChunk} (hu : chunk.locked = false) (hl : chunk.len = cfg.chunkSize) :
      Reachable cfg ⟨m, .new chunk cfg.toBufferConfig⟩
  | step {w w' : World} {op : Op} {out : Output} (hr : Reachable cfg w) (hl : op.Legal w)
      (hs : op.SwapsIn cfg.chunkSize) (h : op.step w = .ok (out, w')) : Reachable cfg w'

variable {cfg : PoolConfig} {w w' : World}

/-- What all these states have in common. -/
structure Sized (cfg : PoolConfig) (w : World) : Prop where
  inv : w.buf.Inv
  len : w.buf.buffer.len = cfg.chunkSize
  config : w.buf.bufferConfig = cfg.toBufferConfig

theorem Sized.of_sameRoom (h : Sized cfg w) (hi : w'.buf.Inv) (hr : w.buf.SameRoom w'.buf) : Sized cfg w' :=
  ⟨hi, hr.len.trans h.len, hr.config.trans h.config⟩

theorem Sized.step {op : Op} {out : Output} (h : Sized cfg w) (hl : op.Legal w) (hs : op.SwapsIn cfg.chunkSize)
    (hrun : op.step w = .ok (out, w')) : Sized cfg w' := by
  have hinv : w'.buf.Inv := by
    rcases step_cases h.inv hl with ⟨-, out₁, w₁, hstep, hinv⟩ | ⟨-, e, hstep⟩
    · rw [hstep] at hrun
      obtain ⟨-, rfl⟩ := Prod.mk.inj (Except.ok.inj hrun)
      exact hinv
    · rw [hstep] at hrun
      cases hrun
  cases op with
  | write bs =>
    obtain ⟨slice, -, hrun⟩ := Panics.bind_eq_ok.mp hrun
    cases slice with
    | none =>
      rw [← (Prod.mk.inj (Except.ok.inj hrun)).2]
      exact h
    | some s =>
      rw [← (Prod.mk.inj (Except.ok.inj hrun)).2] at hinv ⊢
      exact ⟨hinv, h.len, h.config⟩
  | hasFrame =>
    obtain ⟨x, hx, hrun⟩ := Panics.bind_eq_ok.mp hrun
    rw [← (Prod.mk.inj (Except.ok.inj hrun)).2] at hinv ⊢
    exact h.of_sameRoom hinv (DecodeBuffer.sameRoom_hasFrame hx)
  | getFrame =>
    obtain ⟨x, hx, hrun⟩ := Panics.bind_eq_ok.mp hrun
    rw [← (Prod.mk.inj (Except.ok.inj hrun)).2] at hinv ⊢
    exact h.of_sameRoom hinv (DecodeBuffer.sameRoom_getFrame hx)
  | swapBuffer other =>
    obtain ⟨⟨mem, buf, other'⟩, hx, hrun⟩ := Panics.bind_eq_ok.mp hrun
    rw [← (Prod.mk.inj (Except.ok.inj hrun)).2] at hinv ⊢
    obtain ⟨hlen, hcfg, -, -⟩ := DecodeBuffer.swapBuffer_room hx
    exact ⟨hinv, hlen.trans hs, hcfg.trans h.config⟩

theorem Reachable.sized (h : Reachable cfg w) : Sized cfg w := by
  induction h with
  | new hu hl => exact ⟨DecodeBuffer.inv_new hu _, hl, rfl⟩
  | step hr hl hs hrun ih => exact ih.step hl hs hrun

/-- A chunk that was swapped in has room, if enough of it stays free when the overflow is
copied. -/
theorem Sized.swap_writeable {other other' : BufferChunk} {mem : Mem} {buf : DecodeBuffer} (h : Sized cfg w)
    (hv : cfg.validate = .ok ()) (hmin : 8 ≤ cfg.encodeBufMinFreeSpace) (hlen : other.len = cfg.chunkSize)
    (hs : w.buf.swapBuffer w.mem other = .ok (mem, buf, other')) : buf.isWriteable = true := by
  obtain ⟨hl, -, -, hoff⟩ := DecodeBuffer.swapBuffer_room hs
  have hsize := (PoolConfig.of_validate hv).2
  rw [h.config] at hoff
  simp only [DecodeBuffer.isWriteable, DecodeBuffer.writeableLen, hl, hoff, decide_eq_true_eq]
  split
  · omega
  · omega

end Decoding

namespace Receiver

open Decoding

variable {cfg : PoolConfig} {r : Receiver}

/-! ## One round -/

/-- A read that does not block takes something from the stream. -/
theorem readStream_cases {n : Nat} (hn : 0 < n) (stream : List Arrival) :
    (readStream n stream).1 = .error .wouldBlock ∧ size (readStream n stream).2 ≤ size stream ∨
      size (readStream n stream).2 < size stream ∧ ∀ bs, (readStream n stream).1 = .ok bs → bs.length ≤ n := by
  cases stream with
  | nil => exact .inl ⟨rfl, Nat.le_refl _⟩
  | cons a rest =>
    refine .inr ?_
    cases a with
    | error e =>
      refine ⟨by simp [readStream, size], fun bs hbs => ?_⟩
      cases hbs
    | bytes bs =>
      simp only [readStream]
      by_cases hl : bs.length ≤ n
      · rw [if_pos hl]
        refine ⟨by simp only [size, List.map_cons, List.sum_cons]; omega, fun bs' hbs => ?_⟩
        rw [← Except.ok.inj hbs]
        exact hl
      · rw [if_neg hl]
        refine ⟨by simp only [size, List.map_cons, List.sum_cons, List.length_drop]; omega, fun bs' hbs => ?_⟩
        rw [← Except.ok.inj hbs, List.length_take]
        omega

theorem reachable_write {w : World} {bs : List UInt8} (h : Reachable cfg w) (hw : w.buf.isWriteable = true)
    (hl : bs.length ≤ w.buf.writeableLen) :
    Reachable cfg ⟨w.mem.write w.buf.buffer.chunk w.buf.writeOffset bs, w.buf.advanceWriteable bs.length⟩ := by
  have hs : (Op.write bs).step w =
      .ok (.wrote, ⟨w.mem.write w.buf.buffer.chunk w.buf.writeOffset bs, w.buf.advanceWriteable bs.length⟩) := by
    simp only [Op.step, w.buf.getWriteable_spec h.sized.inv, hw]
    rfl
  exact h.step (show (Op.write bs).Legal w from ⟨hw, hl⟩) trivial hs

/-- Receiving ends, and reports that there is no room only if there is none to begin with
or the stream has got shorter. -/
theorem receiveLoop_spec (fuel interrupts : Nat) (r : Receiver) (hr : Reachable cfg r.world)
    (hf : size r.stream < fuel) :
    ∃ res r', receiveLoop fuel interrupts r = .ok (res, r') ∧ Reachable cfg r'.world ∧ size r'.stream ≤ size r.stream ∧
      (size r'.stream < size r.stream ∨ res ≠ .error .invalidInput ∨ r.world.buf.isWriteable = false) := by
  induction fuel generalizing interrupts r with
  | zero => omega
  | succ fuel ih =>
    unfold receiveLoop
    rw [r.world.buf.getWriteable_spec hr.sized.inv]
    cases hw : r.world.buf.isWriteable with
    | false => exact ⟨_, r, rfl, hr, Nat.le_refl _, .inr (.inr rfl)⟩
    | true =>
      have hpos : 0 < r.world.buf.writeableLen := by
        have := of_decide_eq_true hw
        omega
      simp only [if_true, bind, Except.bind]
      have hcases := readStream_cases hpos r.stream
      generalize hread : readStream r.world.buf.writeableLen r.stream = x at hcases
      obtain ⟨res, stream⟩ := x
      rcases hcases with ⟨rfl, hle⟩ | ⟨hlt, hbs⟩
      · exact ⟨_, ⟨r.world, stream⟩, rfl, hr, hle, .inr (.inl (by simp))⟩
      have hlt : size stream < size r.stream := hlt
      cases res with
      | ok bs =>
        simp only
        by_cases hnil : bs = []
        · rw [if_pos hnil]
          exact ⟨_, ⟨r.world, stream⟩, rfl, hr, Nat.le_of_lt hlt, .inl hlt⟩
        · rw [if_neg hnil]
          obtain ⟨res, r', hrun, hr', hle, -⟩ :=
            ih interrupts ⟨_, stream⟩ (reachable_write hr hw (hbs bs rfl)) (show size stream < fuel by omega)
          have hle : size r'.stream ≤ size stream := hle
          exact ⟨res, r', hrun, hr', by omega, .inl (by omega)⟩
      | error e =>
        have hstop : ∀ res, ∃ res' r', (Except.ok (res, ⟨r.world, stream⟩) : Panics (Except IoError Unit × Receiver)) =
            .ok (res', r') ∧ Reachable cfg r'.world ∧ size r'.stream ≤ size r.stream ∧
            (size r'.stream < size r.stream ∨ res' ≠ .error .invalidInput ∨ (true : Bool) = false) :=
          fun res => ⟨res, _, rfl, hr, Nat.le_of_lt hlt, .inl hlt⟩
        cases e with
        | interrupted =>
          simp only
          by_cases hmax : 9 ≤ interrupts + 1
          · rw [if_pos hmax]
            exact hstop _
          · rw [if_neg hmax]
            obtain ⟨res, r', hrun, hr', hle, -⟩ :=
              ih (interrupts + 1) ⟨r.world, stream⟩ hr (show size stream < fuel by omega)
            have hle : size r'.stream ≤ size stream := hle
            exact ⟨res, r', hrun, hr', by omega, .inl (by omega)⟩
        | wouldBlock => exact hstop _
        | invalidInput => exact hstop _
        | invalidData => exact hstop _
        | other => exact hstop _

theorem hasFrame_spec (hr : Reachable cfg r.world) :
    ∃ res r', r.hasFrame = .ok (res, r') ∧ Reachable cfg r'.world ∧ r'.stream = r.stream ∧
      r'.world.buf.isWriteable = r.world.buf.isWriteable := by
  obtain ⟨res, buf, hd, -⟩ := hasFrame_ok (m := r.world.mem) hr.sized.inv
  have hstep : Op.hasFrame.step r.world = .ok (.hasFrame res, ⟨r.world.mem, buf⟩) := by
    simp only [Op.step, hd, bind, Except.bind]
    rfl
  have hrun : r.hasFrame = .ok (res.mapError fun _ => .invalidData, ⟨⟨r.world.mem, buf⟩, r.stream⟩) := by
    simp only [Receiver.hasFrame, hd, bind, Except.bind]
    rfl
  exact ⟨_, _, hrun, hr.step (show Op.hasFrame.Legal r.world from trivial) trivial hstep, rfl,
    (DecodeBuffer.sameRoom_hasFrame hd).isWriteable⟩

/-- What `read_frame` may come to: a frame, no frame, an error, or a panic over a frame
that is not sound. -/
def Comes (cfg : PoolConfig) (res : Panics (Except IoError (Option Frame) × Receiver)) : Prop :=
  (∃ x, res = .ok x) ∨ ∃ r : Receiver, Reachable cfg r.world ∧ ¬ r.world.buf.FrameSound r.world.mem ∧ res = r.decode

theorem comes_decode (hr : Reachable cfg r.world) : Comes cfg r.decode := by
  rcases DecodeBuffer.getFrame_cases (m := r.world.mem) hr.sized.inv with ⟨-, res, buf, hd, -⟩ | ⟨hs, -⟩
  · refine .inl ?_
    simp only [decode, hd, bind, Except.bind]
    cases res with
    | ok frame => exact ⟨_, rfl⟩
    | error e => cases e <;> exact ⟨_, rfl⟩
  · exact .inr ⟨r, hr, hs, rfl⟩

/-- The calls of `read_frame` before it calls itself return. They lead to a swap only if the
stream has got shorter or the buffer was full to begin with. -/
theorem round_cases (hr : Reachable cfg r.world) :
    (∃ res, r.round = .returns res ∧ Comes cfg res) ∨
      ∃ r', r.round = .full r' ∧ Reachable cfg r'.world ∧
        (size r'.stream < size r.stream ∨
          size r'.stream ≤ size r.stream ∧ r.world.buf.isWriteable = false) := by
  obtain ⟨has, r₁, h₁, hr₁, hs₁, hw₁⟩ := hasFrame_spec hr
  unfold round
  rw [h₁]
  cases has with
  | error e => exact .inl ⟨_, rfl, .inl ⟨_, rfl⟩⟩
  | ok b =>
  cases b with
  | true => exact .inl ⟨_, rfl, comes_decode hr₁⟩
  | false =>
  obtain ⟨got, r₂, h₂, hr₂, hs₂, hfull⟩ := receiveLoop_spec (size r₁.stream + 1) 0 r₁ hr₁ (Nat.lt_succ_self _)
  simp only [receive, h₂]
  cases got with
  | ok u => exact .inl ⟨_, rfl, comes_decode hr₂⟩
  | error e =>
    cases e with
    | invalidInput =>
      obtain ⟨has', r₃, h₃, hr₃, hs₃, -⟩ := hasFrame_spec hr₂
      simp only [h₃]
      cases has' with
      | error e => exact .inl ⟨_, rfl, .inl ⟨_, rfl⟩⟩
      | ok b =>
      cases b with
      | true => exact .inl ⟨_, rfl, comes_decode hr₃⟩
      | false =>
        refine .inr ⟨r₃, rfl, hr₃, ?_⟩
        rw [hs₃]
        rw [hs₁] at hs₂ hfull
        rcases hfull with hlt | hne | hw
        · exact .inl hlt
        · exact absurd rfl hne
        · exact .inr ⟨hs₂, hw₁.symm.trans hw⟩
    | wouldBlock => exact .inl ⟨_, rfl, .inl ⟨_, rfl⟩⟩
    | interrupted => exact .inl ⟨_, rfl, .inl ⟨_, rfl⟩⟩
    | invalidData => exact .inl ⟨_, rfl, .inl ⟨_, rfl⟩⟩
    | other => exact .inl ⟨_, rfl, .inl ⟨_, rfl⟩⟩

/-! ## All rounds -/

/-- The pool hands out free chunks of the size that is configured, in nobody's use. -/
def Supplies (cfg : PoolConfig) (getBuffer : Nat → Receiver → Option BufferChunk) : Prop :=
  ∀ n r chunk, getBuffer n r = some chunk →
    chunk.free.1 = true ∧ r.world.buf.Fresh chunk.chunk ∧ chunk.len = cfg.chunkSize

variable {getBuffer : Nat → Receiver → Option BufferChunk}

/-- A swap with a chunk from the pool. -/
theorem reachable_swap {w : World} {chunk : BufferChunk} (hr : Reachable cfg w) (hfree : chunk.free.1 = true)
    (hfresh : w.buf.Fresh chunk.chunk) (hlen : chunk.len = cfg.chunkSize) :
    ∃ mem buf other, w.buf.swapBuffer w.mem chunk = .ok (mem, buf, other) ∧ Reachable cfg ⟨mem, buf⟩ := by
  obtain ⟨mem, buf, other, hs, -⟩ := DecodeBuffer.swapBuffer_spec (m := w.mem) hr.sized.inv hfree hfresh
  have hstep : (Op.swapBuffer chunk).step w = .ok (.swapped, ⟨mem, buf⟩) := by
    simp only [Op.step, hs, bind, Except.bind]
    rfl
  exact ⟨mem, buf, other, hs, hr.step (show (Op.swapBuffer chunk).Legal w from ⟨hfree, hfresh⟩) hlen hstep⟩

/-- Where a chunk that is swapped in can be written to, `read_frame` calls itself at most
once for every read, and once more if there is no room at the start. -/
theorem readFrame_returns (hv : cfg.validate = .ok ()) (hmin : 8 ≤ cfg.encodeBufMinFreeSpace)
    (hg : Supplies cfg getBuffer) (n : Nat) (r : Receiver) (hr : Reachable cfg r.world)
    (hn : size r.stream + (if r.world.buf.isWriteable then 0 else 1) ≤ n) :
    ∃ res, readFrame getBuffer n r = some res ∧ Comes cfg res := by
  induction n generalizing r with
  | zero =>
    unfold readFrame
    rcases round_cases hr with ⟨res, hround, hres⟩ | ⟨r', -, -, hlt | ⟨-, hw⟩⟩
    · exact ⟨res, by rw [hround], hres⟩
    · omega
    · rw [hw] at hn
      simp at hn
  | succ n ih =>
    unfold readFrame
    rcases round_cases hr with ⟨res, hround, hres⟩ | ⟨r', hround, hr', hsize⟩
    · exact ⟨res, by rw [hround], hres⟩
    rw [hround]
    simp only
    cases hb : getBuffer n r' with
    | none => exact ⟨_, rfl, .inl ⟨_, rfl⟩⟩
    | some chunk =>
      obtain ⟨hfree, hfresh, hlen⟩ := hg n r' chunk hb
      obtain ⟨mem, buf, other, hs, hreach⟩ := reachable_swap hr' hfree hfresh hlen
      have hwrite : buf.isWriteable = true := hr'.sized.swap_writeable hv hmin hlen hs
      simp only [hs]
      refine ih ⟨⟨mem, buf⟩, r'.stream⟩ hreach ?_
      rw [hwrite]
      simp only [if_true, Nat.add_zero]
      rcases hsize with hlt | ⟨hle, hw⟩
      · omega
      · rw [hw] at hn
        simp only [Bool.false_eq_true, if_false] at hn
        omega

/-- Receiving makes progress: a chunk that is swapped in can be written to, and
`read_frame` comes to an end whatever there is on the stream. -/
structure Progress (cfg : PoolConfig) : Prop where
  writeable : ∀ w chunk, Reachable cfg w → chunk.free.1 = true → w.buf.Fresh chunk.chunk →
    chunk.len = cfg.chunkSize →
    ∃ mem buf other, w.buf.swapBuffer w.mem chunk = .ok (mem, buf, other) ∧ buf.isWriteable = true
  returns : ∀ r getBuffer, Reachable cfg r.world → Supplies cfg getBuffer →
    ∃ n res, readFrame getBuffer n r = some res ∧ Comes cfg res

/-- With less than eight bytes to be left free, eight may be left, which is too few. -/
theorem exists_not_writeable (hv : cfg.validate = .ok ()) (hmin : cfg.encodeBufMinFreeSpace < 8) :
    ¬ Progress cfg := by
  intro hp
  have hsize := (PoolConfig.of_validate hv).2
  -- all but eight bytes of the first chunk are written, and stay unread
  have hnew : Reachable cfg ⟨fun _ _ => 0, .new ⟨1, cfg.chunkSize, 1, false⟩ cfg.toBufferConfig⟩ := .new rfl rfl
  have hlen : (List.replicate (cfg.chunkSize - 8) (0 : UInt8)).length = cfg.chunkSize - 8 := List.length_replicate
  have hroom : (DecodeBuffer.new ⟨1, cfg.chunkSize, 1, false⟩ cfg.toBufferConfig).writeableLen = cfg.chunkSize := rfl
  have hw : (DecodeBuffer.new ⟨1, cfg.chunkSize, 1, false⟩ cfg.toBufferConfig).isWriteable = true := by
    rw [DecodeBuffer.isWriteable, hroom]
    exact decide_eq_true (by omega)
  have hr := reachable_write hnew hw (by rw [hlen, hroom]; omega)
  have hfresh : ((DecodeBuffer.new ⟨1, cfg.chunkSize, 1, false⟩ cfg.toBufferConfig).advanceWriteable
      (List.replicate (cfg.chunkSize - 8) (0 : UInt8)).length).Fresh 2 :=
    ⟨show (1 : Nat) ≠ 2 by decide, fun l hl => by cases hl⟩
  obtain ⟨mem, buf, other, hs, hb⟩ := hp.writeable _ ⟨2, cfg.chunkSize, 1, false⟩ hr rfl hfresh rfl
  obtain ⟨hl, -, -, hoff⟩ := DecodeBuffer.swapBuffer_room hs
  have hover : ((DecodeBuffer.new ⟨1, cfg.chunkSize, 1, false⟩ cfg.toBufferConfig).advanceWriteable
      (List.replicate (cfg.chunkSize - 8) (0 : UInt8)).length).writeOffset - 0 = cfg.chunkSize - 8 := by
    simp [DecodeBuffer.advanceWriteable, DecodeBuffer.new]
  have hlt : 8 < buf.buffer.len - buf.writeOffset := of_decide_eq_true hb
  rw [hl, hoff] at hlt
  simp only [DecodeBuffer.advanceWriteable, DecodeBuffer.new, hlen, Nat.zero_add, Nat.sub_zero] at hlt
  rw [if_pos ⟨by omega, by omega, by omega⟩] at hlt
  omega

/-- Receiving makes progress with exactly those settings that leave eight bytes free when
the overflow is copied. -/
theorem progress_iff (cfg : PoolConfig) (hv : cfg.validate = .ok ()) : Progress cfg ↔ 8 ≤ cfg.encodeBufMinFreeSpace := by
  constructor
  · intro hp
    by_contra hmin
    exact exists_not_writeable hv (by omega) hp
  · intro hmin
    refine ⟨fun w chunk hr hfree hfresh hlen => ?_, fun r getBuffer hr hg => ?_⟩
    · obtain ⟨mem, buf, other, hs, -⟩ := reachable_swap hr hfree hfresh hlen
      exact ⟨mem, buf, other, hs, hr.sized.swap_writeable hv hmin hlen hs⟩
    · exact ⟨_, readFrame_returns hv hmin hg _ r hr (Nat.le_refl _)⟩

/-- With the smallest setting that is enough. -/
theorem progress_iff_eight : Progress ⟨⟨8⟩, 128, 1, 2⟩ := (progress_iff ⟨⟨8⟩, 128, 1, 2⟩ rfl).mpr (by decide)

/-! ## No progress -/

/-- A frame is expected that is not there, and the bytes that are leave no more than eight
free wherever they are copied to. -/
structure Stuck (r : Receiver) : Prop where
  head : ∃ head, r.world.buf.nextFrameHead = some head ∧ r.world.buf.readableLen < head.contentLength
  start : r.world.buf.readOffset = 0
  full : r.world.buf.buffer.len ≤ r.world.buf.writeOffset + 8
  copied : 0 < r.world.buf.writeOffset ∧ r.world.buf.bufferConfig.encodeBufMinFreeSpace <
    r.world.buf.buffer.len - r.world.buf.writeOffset

theorem Stuck.hasFrame (h : Stuck r) : r.hasFrame = .ok (.ok false, r) := by
  obtain ⟨head, hh, hlen⟩ := h.head
  have hd : r.world.buf.decodeFrameHead r.world.mem = .ok (.ok (), r.world.buf) := by
    rw [DecodeBuffer.decodeFrameHead, hh]
    rfl
  have hready : r.world.buf.readyHead = none := by
    rw [DecodeBuffer.readyHead, hh, Option.filter_some, if_neg (by simpa using hlen)]
  simp only [Receiver.hasFrame, DecodeBuffer.hasFrame, hd, bind, Except.bind, hready]
  rfl

theorem Stuck.round (h : Stuck r) : r.round = .full r := by
  have hw : r.world.buf.isWriteable = false := by
    have := h.full
    exact decide_eq_false (by rw [DecodeBuffer.writeableLen]; omega)
  have hrec : r.receive = .ok (.error .invalidInput, r) := by
    simp only [receive, receiveLoop, DecodeBuffer.getWriteable, hw]
    rfl
  simp only [Receiver.round, h.hasFrame, hrec]

/-- A swap changes nothing about it. -/
theorem Stuck.swap (h : Stuck r) (hr : Reachable cfg r.world) {chunk other : BufferChunk} {mem : Mem}
    {buf : DecodeBuffer} (hfree : chunk.free.1 = true) (hfresh : r.world.buf.Fresh chunk.chunk)
    (hlen : chunk.len = cfg.chunkSize) (hs : r.world.buf.swapBuffer r.world.mem chunk = .ok (mem, buf, other)) :
    Stuck ⟨⟨mem, buf⟩, r.stream⟩ := by
  obtain ⟨hl, hcfg, hread, hoff⟩ := DecodeBuffer.swapBuffer_room hs
  obtain ⟨mem', buf', other', hs', hinv, hview⟩ :=
    DecodeBuffer.swapBuffer_spec (m := r.world.mem) hr.sized.inv hfree hfresh
  obtain ⟨rfl, hb⟩ := Prod.mk.inj (Except.ok.inj (hs'.symm.trans hs))
  obtain ⟨rfl, -⟩ := Prod.mk.inj hb
  have hfull := h.full
  have hcopied := h.copied
  rw [h.start, Nat.sub_zero, if_pos ⟨hcopied.1, by rw [hlen, ← hr.sized.len]; omega,
    by rw [hlen, ← hr.sized.len]; exact hcopied.2⟩] at hoff
  rw [hlen, ← hr.sized.len] at hl
  obtain ⟨head, hh, hshort⟩ := h.head
  refine ⟨⟨head, ?_, ?_⟩, hread, ?_, ?_, ?_⟩
  · rw [← hh]
    exact congrArg Decoder.pending hview
  · rw [← hinv.length_readable mem', show buf'.readable mem' = r.world.buf.readable r.world.mem from
      congrArg Decoder.buf hview, hr.sized.inv.length_readable]
    exact hshort
  · rw [hl, hoff]
    exact hfull
  · rw [hoff]
    exact hcopied.1
  · rw [hl, hoff, hcfg]
    exact hcopied.2

/-- `read_frame` calls itself for ever, as long as there are chunks. -/
theorem readFrame_stuck (hg : Supplies cfg getBuffer) (hall : ∀ n r, getBuffer n r ≠ none) (n : Nat) (r : Receiver)
    (hr : Reachable cfg r.world) (h : Stuck r) : readFrame getBuffer n r = none := by
  induction n generalizing r with
  | zero =>
    unfold readFrame
    rw [h.round]
  | succ n ih =>
    obtain ⟨chunk, hb⟩ := Option.ne_none_iff_exists'.mp (hall n r)
    obtain ⟨hfree, hfresh, hlen⟩ := hg n r chunk hb
    obtain ⟨mem, buf, other, hs, hreach⟩ := reachable_swap hr hfree hfresh hlen
    unfold readFrame
    rw [h.round]
    simp only [hb, hs]
    exact ih _ hreach (h.swap hr hfree hfresh hlen hs)

/-- A pool that never runs out: a chunk with a number above those in use. -/
def freshChunk (cfg : PoolConfig) (_ : Nat) (r : Receiver) : Option BufferChunk :=
  some ⟨r.world.buf.buffer.chunk + (r.world.buf.chainHead.elim [] fun l => l.slices.map Slice.chunk).sum + 1,
    cfg.chunkSize, 1, false⟩

theorem supplies_freshChunk (cfg : PoolConfig) : Supplies cfg (freshChunk cfg) := by
  intro n r chunk h
  obtain rfl := Option.some.inj h
  refine ⟨rfl, ⟨?_, fun l hl s hs => ?_⟩, rfl⟩
  · exact Nat.ne_of_lt (Nat.lt_succ_of_le (Nat.le_add_right ..))
  · have hle : s.chunk ≤ (l.slices.map Slice.chunk).sum := List.le_sum_of_mem (List.mem_map_of_mem hs)
    rw [Option.mem_def.mp hl]
    exact Nat.ne_of_lt (Nat.lt_succ_of_le (Nat.le_add_left_of_le hle))

theorem reachable_run {w w' : World} {ops : List Op} {outs : List Output} (hr : Reachable cfg w) (hl : LegalRun w ops)
    (hs : ∀ op ∈ ops, op.SwapsIn cfg.chunkSize) (h : run w ops = .ok (outs, w')) : Reachable cfg w' := by
  induction ops generalizing w outs with
  | nil =>
    obtain ⟨-, rfl⟩ := Prod.mk.inj (Except.ok.inj h)
    exact hr
  | cons op ops ih =>
    obtain ⟨⟨out, w₁⟩, hstep, h⟩ := Panics.bind_eq_ok.mp h
    obtain ⟨⟨outs₁, w₂⟩, hrun, h⟩ := Panics.bind_eq_ok.mp h
    obtain ⟨-, rfl⟩ := Prod.mk.inj (Except.ok.inj h)
    obtain ⟨hop, hrest⟩ := hl
    rw [hstep] at hrest
    exact ih (hr.step hop (hs op (List.mem_cons_self ..)) hstep) hrest
      (fun op' hmem => hs op' (List.mem_cons_of_mem _ hmem)) hrun

set_option maxRecDepth 2000 in
/-- Chunks of 128 bytes of which none need stay free: of a frame of a thousand bytes the
head and 120 bytes have arrived, in two reads and with a swap in between. -/
theorem not_progress_none_free :
    PoolConfig.validate ⟨⟨0⟩, 128, 1, 2⟩ = .ok () ∧ ¬ Progress ⟨⟨0⟩, 128, 1, 2⟩ ∧
      ∃ r, Reachable ⟨⟨0⟩, 128, 1, 2⟩ r.world ∧ ∀ n, readFrame (freshChunk ⟨⟨0⟩, 128, 1, 2⟩) n r = none := by
  refine ⟨rfl, exists_not_writeable rfl (by decide), ?_⟩
  have hnew : Reachable ⟨⟨0⟩, 128, 1, 2⟩ ⟨fun _ _ => 0, .new ⟨1, 128, 1, false⟩ ⟨0⟩⟩ := .new rfl rfl
  have hl : LegalRun ⟨fun _ _ => 0, .new ⟨1, 128, 1, false⟩ ⟨0⟩⟩
      [.write (FrameHead.encode ⟨.data, 1000⟩ ++ List.replicate 119 0), .hasFrame, .swapBuffer ⟨2, 128, 1, false⟩,
        .write [0]] := by
    decide +kernel
  have hr := reachable_run hnew hl (by decide) rfl
  refine ⟨⟨_, []⟩, hr, fun n => readFrame_stuck (supplies_freshChunk _) (fun _ _ => by simp [freshChunk]) n _ hr ?_⟩
  exact ⟨⟨⟨.data, 1000⟩, rfl, by decide⟩, rfl, by decide, by decide, by decide⟩

end Receiver

end Kompact
