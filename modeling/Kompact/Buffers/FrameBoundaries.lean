import Kompact.Buffers.DecodeTotality

/-!
# The boundaries of frames

What the decode buffer consumes of a stream of frames with a valid magic number,
any byte for their type and any content of the announced length.

Only the types with a decoder of their own consume the content: `Ack`, `Bye` and
unknown frames are returned, or refused, with their head alone, and what they
announced is left to be taken for the next head. `inSync_iff` says that the
buffer keeps to the boundaries of the frames if and only if the frames it has
taken are of the first kind or have no content.
-/

namespace Kompact

/-- A frame as it stands in a stream: the byte of its type, and its content. -/
structure RawFrame where
  typeByte : UInt8
  content : List UInt8
  deriving DecidableEq, Repr

namespace RawFrame

/-- The bytes of the head. -/
def headBytes (f : RawFrame) : List UInt8 := toBE 4 magicNum ++ toBE 4 f.content.length ++ [f.typeByte]

def encode (f : RawFrame) : List UInt8 := f.headBytes ++ f.content

/-- The head as it is decoded. -/
def head (f : RawFrame) : FrameHead := ⟨.ofByte f.typeByte, f.content.length⟩

/-- The length can be announced in 32 bits. -/
def Fits (f : RawFrame) : Prop := f.content.length < 2 ^ 32

instance (f : RawFrame) : Decidable f.Fits := inferInstanceAs (Decidable (_ < _))

/-- The content is consumed with the frame: its type has a decoder, or there is
no content. -/
def Consumed (f : RawFrame) : Prop :=
  FrameType.ofByte f.typeByte ∈ [FrameType.data, .hello, .start] ∨ f.content = []

instance (f : RawFrame) : Decidable f.Consumed := inferInstanceAs (Decidable (_ ∨ _))

/-- What is left of the content when the frame was taken. -/
def leftOver (f : RawFrame) : List UInt8 :=
  if FrameType.ofByte f.typeByte ∈ [FrameType.data, .hello, .start] then [] else f.content

theorem leftOver_eq_nil (f : RawFrame) : f.leftOver = [] ↔ f.Consumed := by
  unfold leftOver Consumed
  by_cases h : FrameType.ofByte f.typeByte ∈ [FrameType.data, .hello, .start]
  · rw [if_pos h]
    exact iff_of_true rfl (.inl h)
  · rw [if_neg h, or_iff_right h]

theorem length_headBytes (f : RawFrame) : f.headBytes.length = frameHeadLen := by
  simp [headBytes, frameHeadLen]

theorem decodeHead_headBytes {f : RawFrame} (h : f.Fits) : frameFormat.decodeHead f.headBytes = .ok f.head := by
  obtain ⟨h1, h2, h3⟩ := take_drop_fields (toBE 4 magicNum) (toBE 4 f.content.length) [f.typeByte]
  simp only [length_toBE] at h1 h2 h3
  have hn : ofBE (toBE 4 f.content.length) = f.content.length := ofBE_toBE_of_lt (by simpa [Fits] using h)
  have ht : ofBE [f.typeByte] = f.typeByte.toNat := by simp [ofBE]
  simp only [frameFormat, headBytes, List.append_assoc, h1, h2, h3, hn]
  rw [if_pos (by decide)]
  simp [ht, head]

end RawFrame

/-- The bytes of a stream of frames. -/
def rawStream (frames : List RawFrame) : List UInt8 := frames.flatMap RawFrame.encode

namespace Decoding

/-! ## Consumption -/

/-- The number of bytes of the stream that the buffer holds: those of a head it has
taken, and the readable ones. -/
def World.heldLen (w : World) : Nat := (if w.buf.nextFrameHead.isSome then frameHeadLen else 0) + w.buf.readableLen

/-- A result of `get_frame` other than `NoData`. -/
def Output.takes : Output → Bool
  | frame (.error .noData) => false
  | frame _ => true
  | _ => false

/-- The frames that a sequence of calls takes, up to the call that panics, if one
does. -/
def takenBy (w : World) : List Op → Nat
  | [] => 0
  | op :: ops =>
    match op.step w with
    | .ok (out, w) => out.takes.toNat + takenBy w ops
    | .error _ => 0

/-- Each call that takes a frame consumes the head and the content of the next one,
and the others consume nothing. -/
def InSync (w : World) (frames : List RawFrame) : List Op → Prop
  | [] => True
  | op :: ops => ∀ out w', op.step w = .ok (out, w') →
    if out.takes then
      ∃ f fs, frames = f :: fs ∧ w.heldLen = frameHeadLen + f.content.length + w'.heldLen ∧ InSync w' fs ops
    else w'.heldLen = w.heldLen + op.written.length ∧ InSync w' frames ops

/-- The decoder stands before the frames `todo`, of whose stream `later` has not been
written yet. -/
inductive Before (v : Decoder UInt8 FrameHead) (todo : List RawFrame) (later : List UInt8) : Prop
  | between (hp : v.pending = none) (hs : v.buf ++ later = rawStream todo)
  | within {f : RawFrame} {fs : List RawFrame} (ht : todo = f :: fs) (hp : v.pending = some f.head)
      (hs : v.buf ++ later = f.content ++ rawStream fs)

variable {v : Decoder UInt8 FrameHead} {todo : List RawFrame} {later : List UInt8}

theorem Before.feed {bs : List UInt8} (h : Before v todo (bs ++ later)) : Before (FrameFormat.feed v bs) todo later := by
  cases h with
  | between hp hs => exact .between hp (by simpa [FrameFormat.feed] using hs)
  | within ht hp hs => exact .within ht hp (by simpa [FrameFormat.feed] using hs)

/-- Looking for a head finds that of the next frame, or too few bytes for one. -/
theorem Before.fetchHead (h : Before v todo later) (hfit : ∀ f ∈ todo, f.Fits) :
    ∃ v', frameFormat.fetchHead v = (.ok (), v') ∧ Before v' todo later := by
  cases h with
  | within ht hp hs => exact ⟨v, by simp only [FrameFormat.fetchHead, hp], .within ht hp hs⟩
  | between hp hs =>
    by_cases hl : frameHeadLen ≤ v.buf.length
    swap
    · refine ⟨v, ?_, .between hp hs⟩
      simp only [FrameFormat.fetchHead, hp]
      rw [if_neg (show ¬ frameFormat.headLen ≤ v.buf.length from hl)]
    obtain _ | ⟨f, fs⟩ := todo
    · have hlen := congrArg List.length hs
      simp only [List.length_append, rawStream, List.flatMap_nil, List.length_nil, frameHeadLen] at hlen hl
      omega
    have hcut : v.buf ++ later = f.headBytes ++ (f.content ++ rawStream fs) := by
      rw [hs, rawStream, List.flatMap_cons, RawFrame.encode, List.append_assoc]
      rfl
    obtain ⟨rest, hbuf, hrest⟩ := exists_of_append_eq hcut (by rw [f.length_headBytes]; exact hl)
    refine ⟨⟨some f.head, rest⟩, ?_, .within rfl rfl hrest.symm⟩
    have hdec := RawFrame.decodeHead_headBytes (hfit f (List.mem_cons_self ..))
    have hh : frameFormat.headLen = f.headBytes.length := f.length_headBytes.symm
    simp only [FrameFormat.fetchHead, hp]
    rw [if_pos (show frameFormat.headLen ≤ v.buf.length from hl), hbuf, hh, List.take_left, List.drop_left, hdec]

/-- How many bytes a decoder holds that stands before some frames. -/
theorem Before.heldLen {w : World} (hinv : w.buf.Inv) (h : Before (w.buf.view w.mem) todo later) :
    w.heldLen + later.length = (rawStream todo).length := by
  have hlen := hinv.length_readable w.mem
  cases h with
  | between hp hs =>
    have hp : w.buf.nextFrameHead = none := hp
    have hs := congrArg List.length hs
    rw [List.length_append, show (w.buf.view w.mem).buf = w.buf.readable w.mem from rfl, hlen] at hs
    simp only [World.heldLen, hp, Option.isSome_none, Bool.false_eq_true, if_false, Nat.zero_add]
    exact hs
  | @within f fs ht hp hs =>
    have hp : w.buf.nextFrameHead = some f.head := hp
    have hs := congrArg List.length hs
    rw [List.length_append, show (w.buf.view w.mem).buf = w.buf.readable w.mem from rfl, hlen, List.length_append] at hs
    simp only [World.heldLen, hp, Option.isSome_some, if_true, ht, rawStream, List.flatMap_cons, List.length_append,
      RawFrame.encode, RawFrame.length_headBytes]
    simp only [rawStream] at hs
    omega

/-! ## Taking a frame -/

/-- A body that is read at all consumes as many bytes as it should. -/
theorem readChunkLease_rest {d d' : DecodeBuffer} {n : Nat} {l : ChunkLease} (h : d.Inv) (hl : n ≤ d.readableLen)
    (hr : d.readChunkLease n = .ok (l, d')) :
    d'.Inv ∧ d'.nextFrameHead = d.nextFrameHead ∧ ∀ m, d'.readable m = (d.readable m).drop n := by
  by_cases hpos : 0 < n ∨ d.chainHead.isSome
  · obtain ⟨l₁, d₁, hr₁, rd⟩ := DecodeBuffer.readChunkLease_reads h hpos hl
    obtain ⟨rfl, rfl⟩ := Prod.mk.inj (Except.ok.inj (hr₁.symm.trans hr))
    exact ⟨rd.inv, rd.head, rd.rest⟩
  · obtain ⟨h0, hnone⟩ := not_or.mp hpos
    obtain rfl : n = 0 := by omega
    obtain ⟨e, he⟩ := DecodeBuffer.readChunkLease_empty (by simpa using hnone)
    rw [he] at hr
    cases hr

/-- What is left behind a frame that was taken: its content too, unless its type has
a decoder. -/
theorem decodeBody_rest {m : Mem} {d d' : DecodeBuffer} {head : FrameHead} {r : Except FramingError Frame} (h : d.Inv)
    (hl : head.contentLength ≤ d.readableLen) (hrun : d.decodeBody m head = .ok (r, d')) :
    d'.Inv ∧ d'.nextFrameHead = d.nextFrameHead ∧ r ≠ .error .noData ∧ d'.readable m = (d.readable m).drop
      (if head.frameType ∈ [FrameType.data, .hello, .start] then head.contentLength else 0) := by
  obtain ⟨t, n⟩ := head
  -- a body with a decoder, which may panic
  have hdecoder : ∀ {decode : ChunkLease → Panics (Except FramingError Frame)},
      (d.readChunkLease n >>= fun x => decode x.1 >>= fun r => pure (DecodeBuffer.invalidFrame r, x.2)) = .ok (r, d') →
      d'.Inv ∧ d'.nextFrameHead = d.nextFrameHead ∧ r ≠ .error .noData ∧ d'.readable m = (d.readable m).drop n := by
    intro decode hrun
    obtain ⟨⟨l, d₁⟩, hr, hrun⟩ := Panics.bind_eq_ok.mp hrun
    obtain ⟨r₁, hd, hrun⟩ := Panics.bind_eq_ok.mp hrun
    obtain ⟨rfl, rfl⟩ := Prod.mk.inj (Except.ok.inj hrun)
    obtain ⟨hinv, hhead, hrest⟩ := readChunkLease_rest h hl hr
    refine ⟨hinv, hhead, ?_, hrest m⟩
    cases r₁ with
    | error e => intro he; cases he
    | ok f => intro he; cases he
  cases t with
  | data =>
    obtain ⟨⟨l, d₁⟩, hr, hrun⟩ := Panics.bind_eq_ok.mp hrun
    obtain ⟨rfl, rfl⟩ := Prod.mk.inj (Except.ok.inj hrun)
    obtain ⟨hinv, hhead, hrest⟩ := readChunkLease_rest h hl hr
    exact ⟨hinv, hhead, (fun he => by cases he), hrest m⟩
  | hello => exact hdecoder hrun
  | start => exact hdecoder hrun
  | ack =>
    obtain ⟨rfl, rfl⟩ := Prod.mk.inj (Except.ok.inj hrun)
    exact ⟨h, rfl, (fun he => by cases he), rfl⟩
  | bye =>
    obtain ⟨rfl, rfl⟩ := Prod.mk.inj (Except.ok.inj hrun)
    exact ⟨h, rfl, (fun he => by cases he), rfl⟩
  | unknown =>
    obtain ⟨rfl, rfl⟩ := Prod.mk.inj (Except.ok.inj hrun)
    exact ⟨h, rfl, (fun he => by cases he), rfl⟩

/-- A call of `get_frame` before the frames `todo`: it finds too few bytes, or takes
the first of them, with its content if its type has a decoder. -/
theorem Before.getFrame {w : World} {r : Except FramingError Frame} {d' : DecodeBuffer} (hinv : w.buf.Inv)
    (h : Before (w.buf.view w.mem) todo later) (hfit : ∀ f ∈ todo, f.Fits)
    (hrun : w.buf.getFrame w.mem = .ok (r, d')) :
    d'.Inv ∧ ((r = .error .noData ∧ Before (d'.view w.mem) todo later) ∨
      (r ≠ .error .noData ∧ ∃ f fs, todo = f :: fs ∧ d'.nextFrameHead = none ∧
        d'.readable w.mem ++ later = f.leftOver ++ rawStream fs)) := by
  obtain ⟨v, hf, hv⟩ := h.fetchHead hfit
  obtain ⟨d₁, hd, hinv₁, rfl⟩ := DecodeBuffer.decodeFrameHead_spec hinv hf
  rw [DecodeBuffer.getFrame_eq hd] at hrun
  cases hready : d₁.readyHead with
  | none =>
    rw [hready] at hrun
    obtain ⟨rfl, rfl⟩ := Prod.mk.inj (Except.ok.inj hrun)
    exact ⟨hinv₁, .inl ⟨rfl, hv⟩⟩
  | some head =>
    rw [hready] at hrun
    obtain ⟨hhead, hle⟩ := Option.filter_eq_some_iff.mp hready
    have hle : head.contentLength ≤ d₁.readableLen := by simpa using hle
    obtain ⟨hinv', hnone, hne, hrest⟩ := decodeBody_rest (hinv₁.setHead none) hle hrun
    refine ⟨hinv', .inr ⟨hne, ?_⟩⟩
    cases hv with
    | between hp _ =>
      rw [show d₁.nextFrameHead = none from hp] at hhead
      cases hhead
    | @within f fs ht hp hs =>
      obtain rfl : f.head = head := Option.some.inj ((show d₁.nextFrameHead = some f.head from hp).symm.trans hhead)
      refine ⟨f, fs, ht, hnone, ?_⟩
      have hs : d₁.readable w.mem ++ later = f.content ++ rawStream fs := hs
      have hlen : f.content.length ≤ (d₁.readable w.mem).length := by rw [hinv₁.length_readable]; exact hle
      obtain ⟨rest, hread, hafter⟩ := exists_of_append_eq hs hlen
      have hrest : d'.readable w.mem = (d₁.readable w.mem).drop
          (if f.head.frameType ∈ [FrameType.data, .hello, .start] then f.head.contentLength else 0) := hrest
      rw [hrest, RawFrame.leftOver]
      by_cases ht : FrameType.ofByte f.typeByte ∈ [FrameType.data, .hello, .start]
      · rw [if_pos ht, if_pos (show f.head.frameType ∈ _ from ht), hread, hafter]
        rw [show f.head.contentLength = f.content.length from rfl, List.drop_left, List.nil_append]
      · rw [if_neg ht, if_neg (show ¬ f.head.frameType ∈ _ from ht), List.drop_zero, hs]

/-! ## Runs -/

/-- A call that takes no frame leaves the decoder where it was. -/
theorem Before.stay {w w' : World} (hinv : w.buf.Inv) (hinv' : w'.buf.Inv) {bs : List UInt8}
    (h : Before (w.buf.view w.mem) todo (bs ++ later)) (h' : Before (w'.buf.view w'.mem) todo later) :
    w'.heldLen = w.heldLen + bs.length := by
  have h₁ := h.heldLen hinv
  have h₂ := h'.heldLen hinv'
  rw [List.length_append] at h₁
  omega

/-- One call before the frames `todo`. -/
theorem Before.step {w w' : World} {op : Op} {out : Output} (hinv : w.buf.Inv) (hl : op.Legal w)
    (h : Before (w.buf.view w.mem) todo (op.written ++ later)) (hfit : ∀ f ∈ todo, f.Fits)
    (hs : op.step w = .ok (out, w')) :
    w'.buf.Inv ∧ ((out.takes = false ∧ Before (w'.buf.view w'.mem) todo later) ∨
      (out.takes = true ∧ ∃ f fs, todo = f :: fs ∧ w'.buf.nextFrameHead = none ∧ op.written = [] ∧
        w'.buf.readable w'.mem ++ later = f.leftOver ++ rawStream fs)) := by
  cases op with
  | write bs =>
    obtain ⟨hw, hlen⟩ := hl
    obtain ⟨hinv', hview⟩ := w.buf.view_write hinv w.mem hlen
    simp only [Op.step, w.buf.getWriteable_spec hinv, hw] at hs
    obtain ⟨rfl, rfl⟩ := Prod.mk.inj (Except.ok.inj hs)
    refine ⟨hinv', .inl ⟨rfl, ?_⟩⟩
    show Before ((w.buf.advanceWriteable bs.length).view (w.mem.write w.buf.buffer.chunk w.buf.writeOffset bs)) _ _
    rw [hview]
    exact h.feed
  | hasFrame =>
    obtain ⟨v, hf, hv⟩ := h.fetchHead hfit
    have hhas : frameFormat.hasFrame (w.buf.view w.mem) = (.ok (frameFormat.ready v).isSome, v) := by
      simp only [FrameFormat.hasFrame, hf]
    obtain ⟨d', hd, hinv', rfl⟩ := DecodeBuffer.hasFrame_spec hinv hhas
    simp only [Op.step, hd, bind, Except.bind] at hs
    obtain ⟨rfl, rfl⟩ := Prod.mk.inj (Except.ok.inj hs)
    exact ⟨hinv', .inl ⟨rfl, hv⟩⟩
  | getFrame =>
    obtain ⟨⟨r, d'⟩, hd, hs⟩ := Panics.bind_eq_ok.mp hs
    obtain ⟨rfl, rfl⟩ := Prod.mk.inj (Except.ok.inj hs)
    obtain ⟨hinv', hcase⟩ := h.getFrame hinv hfit hd
    rcases hcase with ⟨rfl, hb⟩ | ⟨hne, f, fs, ht, hnone, hrest⟩
    · exact ⟨hinv', .inl ⟨rfl, hb⟩⟩
    · refine ⟨hinv', .inr ⟨?_, f, fs, ht, hnone, rfl, hrest⟩⟩
      cases r with
      | ok f => rfl
      | error e => cases e <;> first | rfl | exact absurd rfl hne
  | swapBuffer other =>
    obtain ⟨m', d', other', hd, hinv', hv⟩ := DecodeBuffer.swapBuffer_spec (m := w.mem) hinv hl.1 hl.2
    simp only [Op.step, hd, bind, Except.bind] at hs
    obtain ⟨rfl, rfl⟩ := Prod.mk.inj (Except.ok.inj hs)
    refine ⟨hinv', .inl ⟨rfl, ?_⟩⟩
    show Before (d'.view m') _ _
    rw [hv]
    exact h

/-- A call that takes a frame consumes its bytes if and only if nothing of them is left. -/
theorem Before.consumed_iff {w w' : World} {bs : List UInt8} {f : RawFrame} {fs : List RawFrame} (hinv : w.buf.Inv)
    (hinv' : w'.buf.Inv) (h : Before (w.buf.view w.mem) (f :: fs) (bs ++ later)) (hnil : bs = [])
    (hnone : w'.buf.nextFrameHead = none) (hread : w'.buf.readable w'.mem ++ later = f.leftOver ++ rawStream fs) :
    w.heldLen = frameHeadLen + f.content.length + w'.heldLen ↔ f.Consumed := by
  have hheld := h.heldLen hinv
  have hlen := congrArg List.length hread
  have hheld' : w'.heldLen = w'.buf.readableLen := by
    rw [World.heldLen, hnone]
    exact Nat.zero_add _
  rw [hnil, List.nil_append] at hheld
  rw [List.length_append, List.length_append, hinv'.length_readable w'.mem] at hlen
  simp only [rawStream, List.flatMap_cons, List.length_append, RawFrame.encode, RawFrame.length_headBytes] at hheld hlen
  rw [← f.leftOver_eq_nil, ← List.length_eq_zero_iff]
  omega

/-- A sequence of calls keeps to the boundaries if and only if the frames it takes are
consumed whole, by induction on the calls. -/
theorem Before.sync_iff {w : World} {ops : List Op} (hinv : w.buf.Inv) (hl : LegalRun w ops)
    (h : Before (w.buf.view w.mem) todo (written ops ++ later)) (hfit : ∀ f ∈ todo, f.Fits) :
    InSync w todo ops ↔ ∀ f ∈ todo.take (takenBy w ops), f.Consumed := by
  induction ops generalizing w todo with
  | nil => exact iff_of_true trivial (by simp [takenBy])
  | cons op ops ih =>
    obtain ⟨hop, hrest⟩ := hl
    have h : Before (w.buf.view w.mem) todo (op.written ++ (written ops ++ later)) := by
      simpa only [written, List.flatMap_cons, List.append_assoc] using h
    rw [InSync, takenBy]
    cases hs : op.step w with
    | error e => exact iff_of_true (fun _ _ hno => by cases hno) (by simp)
    | ok x =>
      obtain ⟨out, w'⟩ := x
      rw [hs] at hrest
      -- the call is determined
      have hdet : ∀ {P : Output → World → Prop},
          (∀ out' w'', (Except.ok (out, w') : Panics (Output × World)) = .ok (out', w'') → P out' w'') ↔ P out w' := by
        intro P
        refine ⟨fun hp => hp _ _ rfl, fun hp out' w'' he => ?_⟩
        obtain ⟨rfl, rfl⟩ := Prod.mk.inj (Except.ok.inj he)
        exact hp
      rw [hdet]
      show _ ↔ ∀ f ∈ todo.take (out.takes.toNat + takenBy w' ops), f.Consumed
      obtain ⟨hinv', ⟨htakes, hb⟩ | ⟨htakes, f, fs, rfl, hnone, hnil, hread⟩⟩ := h.step hinv hop hfit hs
      · rw [if_neg (by rw [htakes]; decide), htakes]
        simp only [Bool.toNat_false, Nat.zero_add]
        rw [ih hinv' hrest hb hfit]
        exact and_iff_right (h.stay hinv hinv' hb)
      · rw [if_pos htakes, htakes]
        simp only [Bool.toNat_true, Nat.add_comm 1, List.take_succ_cons, List.forall_mem_cons]
        have hcons := h.consumed_iff hinv hinv' hnil hnone hread
        -- after a frame that was consumed the decoder stands before the next one
        have hnext : f.Consumed → (InSync w' fs ops ↔ ∀ f ∈ fs.take (takenBy w' ops), f.Consumed) := by
          intro hc
          rw [(f.leftOver_eq_nil).mpr hc, List.nil_append] at hread
          exact ih hinv' hrest (.between hnone hread) (fun g hg => hfit g (List.mem_cons_of_mem _ hg))
        constructor
        · rintro ⟨f', fs', he, hlen, hsync⟩
          obtain ⟨rfl, rfl⟩ := List.cons.inj he
          exact ⟨hcons.mp hlen, (hnext (hcons.mp hlen)).mp hsync⟩
        · rintro ⟨hc, hall⟩
          exact ⟨f, fs, rfl, hcons.mpr hc, (hnext hc).mpr hall⟩

/-- However a stream of frames is cut into writes and whatever else is called in
between: the buffer keeps to the boundaries of the frames if and only if all frames
it takes have no content or are of a type whose decoder consumes it. -/
theorem inSync_iff (cfg : BufferConfig) (chunk : BufferChunk) (m : Mem) (hu : chunk.locked = false)
    (frames : List RawFrame) (hfit : ∀ f ∈ frames, f.Fits) (ops : List Op) (hl : LegalRun ⟨m, .new chunk cfg⟩ ops)
    (hw : written ops <+: rawStream frames) :
    InSync ⟨m, .new chunk cfg⟩ frames ops ↔
      ∀ f ∈ frames.take (takenBy ⟨m, .new chunk cfg⟩ ops), f.Consumed := by
  obtain ⟨later, hlater⟩ := hw
  have hs : (DecodeBuffer.view m (.new chunk cfg)).buf ++ (written ops ++ later) = rawStream frames := by
    rw [hlater]
    rfl
  exact Before.sync_iff (DecodeBuffer.inv_new hu cfg) hl (.between rfl hs) hfit

/-- An unknown frame without content and a data frame, cut by a swap. -/
theorem inSync_iff_unknown :
    InSync ⟨fun _ _ => 0, .new ⟨1, 16, 1, false⟩ ⟨8⟩⟩ [⟨9, []⟩, ⟨2, [1, 2]⟩]
      [.write [0xC0, 0xA1, 0xBA, 0x11, 0, 0], .getFrame, .swapBuffer ⟨2, 64, 1, false⟩,
        .write [0, 0, 9, 0xC0, 0xA1, 0xBA, 0x11, 0, 0, 0, 2, 2, 1], .getFrame, .getFrame, .write [2], .getFrame] :=
  (inSync_iff ⟨8⟩ ⟨1, 16, 1, false⟩ (fun _ _ => 0) rfl _ (by decide) _ (by decide) (by decide)).mpr (by decide)

/-- An `Ack` and an unknown frame with one byte of content each: the byte is left in
the buffer. -/
theorem not_inSync_ack_and_unknown :
    (LegalRun ⟨fun _ _ => 0, .new ⟨1, 64, 1, false⟩ ⟨8⟩⟩ [.write (RawFrame.encode ⟨6, [7]⟩), .getFrame] ∧
      ¬ InSync ⟨fun _ _ => 0, .new ⟨1, 64, 1, false⟩ ⟨8⟩⟩ [⟨6, [7]⟩] [.write (RawFrame.encode ⟨6, [7]⟩), .getFrame]) ∧
    LegalRun ⟨fun _ _ => 0, .new ⟨1, 64, 1, false⟩ ⟨8⟩⟩ [.write (RawFrame.encode ⟨9, [7]⟩), .getFrame] ∧
      ¬ InSync ⟨fun _ _ => 0, .new ⟨1, 64, 1, false⟩ ⟨8⟩⟩ [⟨9, [7]⟩] [.write (RawFrame.encode ⟨9, [7]⟩), .getFrame] := by
  refine ⟨⟨by decide, fun hsync => ?_⟩, by decide, fun hsync => ?_⟩
  · obtain ⟨f, fs, he, hlen, -⟩ := (hsync _ _ rfl).2 _ _ rfl
    obtain ⟨rfl, rfl⟩ := List.cons.inj he
    exact absurd hlen (by decide)
  · obtain ⟨f, fs, he, hlen, -⟩ := (hsync _ _ rfl).2 _ _ rfl
    obtain ⟨rfl, rfl⟩ := List.cons.inj he
    exact absurd hlen (by decide)

end Decoding

end Kompact
