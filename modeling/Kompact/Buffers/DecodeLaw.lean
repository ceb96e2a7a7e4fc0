import Kompact.Buffers.DecodeBuffer

/-!
# The stream law of the decode buffer

A `World` is a decode buffer with the memory of the chunks. Its user writes
into the writable slice, asks whether there is a frame, takes a frame, and
swaps chunks, in any order (`Op`, `run`). `Legal` are the calls the interface
allows: a write fits in the slice that was offered, and the chunk swapped in
is free and in nobody else's use.

`Tracks` says that the buffer stands, as a decoder, before the frames `todo`.
Each call keeps it (`Tracks.step`) and so does each run (`Tracks.run`). Hence
`decodes_of_fits`: however the stream of some frames is cut into writes, and
whatever else is called in between, the frames come out in order.
-/

namespace Kompact.Decoding

/-- A decode buffer, and the memory it works on. -/
structure World where
  mem : Mem
  buf : DecodeBuffer

/-- A call of the decode buffer's interface. -/
inductive Op where
  /-- `get_writeable`, filling in the bytes, and `advance_writeable`. -/
  | write (bs : List UInt8)
  | hasFrame
  | getFrame
  | swapBuffer (other : BufferChunk)
  deriving DecidableEq, Repr

inductive Output where
  | wrote
  | hasFrame (r : Except FramingError Bool)
  | frame (r : Except FramingError WireFrame)
  | swapped

namespace Op

/-- The bytes a call adds to the stream. -/
def written : Op → List UInt8
  | write bs => bs
  | _ => []

/-- The calls the interface allows. -/
def Legal (w : World) : Op → Prop
  | write bs => w.buf.isWriteable = true ∧ bs.length ≤ w.buf.writeableLen
  | hasFrame => True
  | getFrame => True
  | swapBuffer other => other.free.1 = true ∧ w.buf.Fresh other.chunk

instance (w : World) (op : Op) : Decidable (op.Legal w) := by
  cases op <;> unfold Legal <;> infer_instance

/-- One call. A decoded frame is reported with its payload's bytes. -/
def step (w : World) : Op → Panics (Output × World)
  | write bs => do
    match ← w.buf.getWriteable with
    | some s => return (.wrote, ⟨w.mem.write s.chunk s.off bs, w.buf.advanceWriteable bs.length⟩)
    | none => return (.wrote, w)
  | hasFrame => do
    let (r, buf) ← w.buf.hasFrame w.mem
    return (.hasFrame r, { w with buf })
  | getFrame => do
    let (r, buf) ← w.buf.getFrame w.mem
    return (.frame (r.map (Frame.view w.mem)), { w with buf })
  | swapBuffer other => do
    let (mem, buf, _) ← w.buf.swapBuffer w.mem other
    return (.swapped, ⟨mem, buf⟩)

end Op

/-- A sequence of calls, with the output of each. -/
def run (w : World) : List Op → Panics (List Output × World)
  | [] => .ok ([], w)
  | op :: ops => do
    let (out, w) ← op.step w
    let (outs, w) ← run w ops
    return (out :: outs, w)

/-- Every call of the sequence is legal where it is made. -/
def LegalRun (w : World) : List Op → Prop
  | [] => True
  | op :: ops => op.Legal w ∧
    match op.step w with
    | .ok (_, w) => LegalRun w ops
    | .error _ => True

def LegalRun.decidable (w : World) : (ops : List Op) → Decidable (LegalRun w ops)
  | [] => inferInstanceAs (Decidable True)
  | op :: ops =>
    match h : op.step w with
    | .ok (_, w') =>
      have := LegalRun.decidable w' ops
      decidable_of_iff (op.Legal w ∧ LegalRun w' ops) (by simp only [LegalRun, h])
    | .error _ => decidable_of_iff (op.Legal w) (by simp only [LegalRun, h, and_true])

instance (w : World) (ops : List Op) : Decidable (LegalRun w ops) := LegalRun.decidable w ops

/-- The stream a sequence of calls writes. -/
def written (ops : List Op) : List UInt8 := ops.flatMap Op.written

namespace Output

/-- The result of `get_frame`, if this is one. -/
def result : Output → Option (Except FramingError WireFrame)
  | frame r => some r
  | _ => none

/-- The frame that was returned, if any. -/
def okFrame : Output → Option WireFrame
  | frame (.ok f) => some f
  | _ => none

/-- The output is no error, except that there is no data yet. -/
def Fine : Output → Prop
  | hasFrame (.error _) => False
  | frame (.error e) => e = .noData
  | _ => True

end Output

def results (outs : List Output) : List (Except FramingError WireFrame) := outs.filterMap Output.result

def okFrames (outs : List Output) : List WireFrame := outs.filterMap Output.okFrame

/-- The first `n` results of taking the frames `fs` and no others. -/
def expected : Nat → List WireFrame → List (Except FramingError WireFrame)
  | 0, _ => []
  | n + 1, [] => .error .noData :: expected n []
  | n + 1, f :: fs => .ok f :: expected n fs

/-- The bytes of the stream the buffer holds: a head it has taken, and the
readable bytes. -/
def World.held (w : World) : List UInt8 := w.buf.nextFrameHead.elim [] FrameHead.encode ++ w.buf.readable w.mem

/-- The calls `pre` and then `post` decode a stream of `frames`: they do not
panic, the frames returned are the first ones of `frames`, the bytes written
are those of the returned frames and those still held, and when `pre` has
written the whole stream the calls in `post` return the other frames and no
data after them. -/
def Decodes (w : World) (frames : List WireFrame) (pre post : List Op) : Prop :=
  ∃ o₁ w₁ o₂ w₂, run w pre = .ok (o₁, w₁) ∧ run w₁ post = .ok (o₂, w₂) ∧
    okFrames (o₁ ++ o₂) <+: frames ∧ (∀ o ∈ o₁ ++ o₂, o.Fine) ∧
    written (pre ++ post) = (okFrames (o₁ ++ o₂)).flatMap WireFrame.encode ++ w₂.held ∧
    (written pre = frames.flatMap WireFrame.encode →
      ∃ rest, frames = okFrames o₁ ++ rest ∧ results o₂ = expected (results o₂).length rest)

/-! ## Tracking the stream -/

/-- The buffer stands before the frames `todo`, of whose stream `later` has
not been written yet. -/
structure Tracks (w : World) (todo : List WireFrame) (later : List UInt8) : Prop where
  inv : w.buf.Inv
  synced : FrameFormat.Synced frameFormat WireFrame.encode (w.buf.view w.mem) todo later

/-- What one call does to the stream. -/
structure Takes (op : Op) (todo : List WireFrame) (later : List UInt8) (out : Output)
    (todo' : List WireFrame) : Prop where
  frames : todo = out.okFrame.toList ++ todo'
  fine : out.Fine
  results : later = [] → out.result.toList = expected out.result.toList.length todo

variable {w : World} {todo : List WireFrame} {later : List UInt8}

theorem Tracks.write {bs : List UInt8} (h : Tracks w todo (bs ++ later)) (hl : (Op.write bs).Legal w) :
    ∃ w', (Op.write bs).step w = .ok (.wrote, w') ∧ Tracks w' todo later := by
  obtain ⟨hw, hlen⟩ := hl
  obtain ⟨hinv, hview⟩ := w.buf.view_write h.inv w.mem hlen
  refine ⟨⟨w.mem.write w.buf.buffer.chunk w.buf.writeOffset bs, w.buf.advanceWriteable bs.length⟩, ?_, hinv, ?_⟩
  · simp only [Op.step, w.buf.getWriteable_spec h.inv, hw]; rfl
  · rw [hview]; exact h.synced.feed

theorem Tracks.getFrame (hfit : ∀ f ∈ todo, f.Fits) (h : Tracks w todo later) :
    ∃ out w' todo', Op.getFrame.step w = .ok (out, w') ∧ Tracks w' todo' later ∧
      Takes .getFrame todo later out todo' := by
  rcases h.synced.poll (fun f hf => encodes (hfit f hf)) (by decide) with
    ⟨f, fs, v, rfl, hlater, hp, hs⟩ | ⟨v, hmore, hp, hs⟩
  · obtain ⟨g, d', hg, hview, hinv, hv⟩ := DecodeBuffer.getFrame_frame h.inv hp
    refine ⟨.frame (.ok f), ⟨w.mem, d'⟩, fs, ?_, ⟨hinv, by rw [hv]; exact hs⟩, rfl, trivial, fun _ => rfl⟩
    simp only [Op.step, hg, bind, Except.bind]
    rw [← hview]; rfl
  · obtain ⟨d', hg, hinv, hv⟩ := DecodeBuffer.getFrame_noData h.inv hp
    refine ⟨.frame (.error .noData), ⟨w.mem, d'⟩, todo, ?_, ⟨hinv, by rw [hv]; exact hs⟩, rfl, rfl, ?_⟩
    · simp only [Op.step, hg, bind, Except.bind]; rfl
    · rintro rfl
      -- the whole stream has been written: there is no frame left
      obtain rfl : todo = [] := by
        by_contra hne
        exact absurd (hmore hne) (by simp)
      rfl

theorem Tracks.step (hfit : ∀ f ∈ todo, f.Fits) {op : Op} (h : Tracks w todo (op.written ++ later))
    (hl : op.Legal w) :
    ∃ out w' todo', op.step w = .ok (out, w') ∧ Tracks w' todo' later ∧
      Takes op todo (op.written ++ later) out todo' := by
  cases op with
  | write bs =>
    obtain ⟨w', hs, ht⟩ := h.write hl
    exact ⟨.wrote, w', todo, hs, ht, rfl, trivial, fun _ => rfl⟩
  | hasFrame =>
    obtain ⟨b, v, hp, hs⟩ := h.synced.hasFrame (fun f hf => encodes (hfit f hf)) (by decide)
    obtain ⟨d', hg, hinv, hv⟩ := DecodeBuffer.hasFrame_spec h.inv hp
    refine ⟨.hasFrame (.ok b), ⟨w.mem, d'⟩, todo, ?_, ⟨hinv, by rw [hv]; exact hs⟩, rfl, trivial, fun _ => rfl⟩
    simp only [Op.step, hg, bind, Except.bind]; rfl
  | getFrame => exact h.getFrame hfit
  | swapBuffer other =>
    obtain ⟨m', d', other', hs, hinv, hv⟩ := DecodeBuffer.swapBuffer_spec (m := w.mem) h.inv hl.1 hl.2
    refine ⟨.swapped, ⟨m', d'⟩, todo, ?_, ⟨hinv, by rw [hv]; exact h.synced⟩, rfl, trivial, fun _ => rfl⟩
    simp only [Op.step, hs, bind, Except.bind]; rfl

theorem run_cons {op : Op} {ops : List Op} {out : Output} {outs : List Output} {w' w'' : World}
    (h : op.step w = .ok (out, w')) (hs : run w' ops = .ok (outs, w'')) :
    run w (op :: ops) = .ok (out :: outs, w'') := by
  simp only [run, h, bind, Except.bind, hs]; rfl

/-- `expected` of a list of results is that of its parts. -/
theorem expected_append {n : Nat} {fs gs : List WireFrame} {rs : List (Except FramingError WireFrame)} {o : Output}
    (hr : o.result.toList = expected o.result.toList.length fs) (hf : fs = o.okFrame.toList ++ gs)
    (hrs : rs = expected n gs) : o.result.toList ++ rs = expected (o.result.toList.length + n) fs := by
  subst hrs
  rcases o with _ | r | (e | f) | _
  · subst hf; simp [Output.result]
  · subst hf; simp [Output.result]
  · simp only [Output.okFrame, Option.toList_none, List.nil_append] at hf
    subst hf
    rcases fs with _ | ⟨f, fs⟩
    · simpa [Output.result, expected, Nat.add_comm] using hr
    · simp [Output.result, expected] at hr
  · subst hf
    simp [Output.result, Output.okFrame, expected, Nat.add_comm]
  · subst hf; simp [Output.result]

/-- A whole run, by induction on its calls. -/
theorem Tracks.run {ops : List Op} (hfit : ∀ f ∈ todo, f.Fits) (h : Tracks w todo (written ops ++ later))
    (hl : LegalRun w ops) :
    ∃ outs w' todo', Decoding.run w ops = .ok (outs, w') ∧ Tracks w' todo' later ∧
      todo = okFrames outs ++ todo' ∧ (∀ o ∈ outs, o.Fine) ∧
      (written ops ++ later = [] → results outs = expected (results outs).length todo) := by
  induction ops generalizing w todo with
  | nil => exact ⟨[], w, todo, rfl, h, rfl, by simp, fun _ => rfl⟩
  | cons op ops ih =>
    simp only [written, List.flatMap_cons, List.append_assoc] at h
    obtain ⟨hop, hrest⟩ := hl
    obtain ⟨out, w₁, todo₁, hs, ht, tk⟩ := Tracks.step hfit h hop
    rw [hs] at hrest
    have hfit₁ : ∀ f ∈ todo₁, f.Fits := fun f hf => hfit f (by rw [tk.frames]; exact List.mem_append_right _ hf)
    obtain ⟨outs, w₂, todo₂, hr, ht₂, hframes, hfine, hres⟩ := ih hfit₁ ht hrest
    refine ⟨out :: outs, w₂, todo₂, run_cons hs hr, ht₂, ?_, ?_, fun hnil => ?_⟩
    · rw [tk.frames, hframes, okFrames, okFrames, List.filterMap_cons, ← List.append_assoc]
      cases out.okFrame <;> rfl
    · exact List.forall_mem_cons.mpr ⟨tk.fine, hfine⟩
    · simp only [written, List.flatMap_cons, List.append_assoc] at hnil
      have hsplit : results (out :: outs) = out.result.toList ++ results outs := by
        rw [results, results, List.filterMap_cons]
        cases out.result <;> rfl
      rw [hsplit, List.length_append]
      exact expected_append (tk.results hnil) tk.frames (hres (List.append_eq_nil_iff.mp hnil).2)

/-- The bytes held are the stream of the frames to come, as far as it was written. -/
theorem Tracks.held (hfit : ∀ f ∈ todo, f.Fits) (h : Tracks w todo later) :
    w.held ++ later = todo.flatMap WireFrame.encode := by
  rcases h.synced with ⟨hp, hs⟩ | @⟨f, fs, head, hd, body, ht, he, parts, hp, hs⟩
  · have hp : w.buf.nextFrameHead = none := hp
    simp only [World.held, hp, Option.elim_none, List.nil_append]
    exact hs
  · have hp : w.buf.nextFrameHead = some head := hp
    have hcut : hd = (FrameHead.mk f.frameType f.body.length).encode ∧ body = f.body :=
      List.append_inj he.symm (by rw [parts.head_length, length_encode_head]; rfl)
    have hhead := parts.decodeHead
    rw [hcut.1, decodeHead_encode (length_body_lt (hfit f (by simp [ht])))] at hhead
    have hs : w.buf.readable w.mem ++ later = body ++ fs.flatMap WireFrame.encode := hs
    rw [World.held, hp, Option.elim_some, List.append_assoc, hs, ← List.append_assoc, ← Except.ok.inj hhead,
      ← hcut.1, ← he, ht, List.flatMap_cons]

theorem legalRun_append {pre post : List Op} (h : LegalRun w (pre ++ post)) :
    LegalRun w pre ∧ ∀ outs w', run w pre = .ok (outs, w') → LegalRun w' post := by
  induction pre generalizing w with
  | nil => exact ⟨trivial, fun outs w' hr => by injection hr with hr; obtain ⟨-, rfl⟩ := Prod.mk.inj hr; exact h⟩
  | cons op pre ih =>
    obtain ⟨hop, hrest⟩ := h
    cases hs : op.step w with
    | error e =>
      refine ⟨⟨hop, by rw [hs]; trivial⟩, fun outs w' hr => ?_⟩
      simp only [run, hs, bind, Except.bind] at hr
      cases hr
    | ok p =>
      obtain ⟨out, w₁⟩ := p
      rw [hs] at hrest
      obtain ⟨hpre, hpost⟩ := ih hrest
      refine ⟨⟨hop, by rw [hs]; exact hpre⟩, fun outs w' hr => ?_⟩
      obtain ⟨x, hx, hr⟩ := Panics.bind_eq_ok.mp hr
      obtain rfl : (out, w₁) = x := Except.ok.inj (hs.symm.trans hx)
      obtain ⟨⟨outs₁, w₂⟩, hr₁, hr⟩ := Panics.bind_eq_ok.mp hr
      obtain ⟨-, rfl⟩ := Prod.mk.inj (Except.ok.inj hr)
      exact hpost _ _ hr₁

/-! ## The law -/

/-- Frames that fit the format come out of the decode buffer in order, for
every way of cutting their stream into writes and every interleaving with the
other calls. -/
theorem decodes_of_fits (cfg : BufferConfig) (chunk : BufferChunk) (m : Mem) (hu : chunk.locked = false)
    (frames : List WireFrame) (hfit : ∀ f ∈ frames, f.Fits) (pre post : List Op)
    (hl : LegalRun ⟨m, .new chunk cfg⟩ (pre ++ post))
    (hw : written (pre ++ post) <+: frames.flatMap WireFrame.encode) :
    Decodes ⟨m, .new chunk cfg⟩ frames pre post := by
  obtain ⟨later, hlater⟩ := hw
  have happ : written (pre ++ post) = written pre ++ written post := List.flatMap_append ..
  obtain ⟨hpre, hpost⟩ := legalRun_append hl
  have h₀ : Tracks ⟨m, .new chunk cfg⟩ frames (written pre ++ (written post ++ later)) := by
    refine ⟨DecodeBuffer.inv_new hu cfg, ?_⟩
    rw [← List.append_assoc, ← happ, hlater]
    exact FrameFormat.Synced.init frames
  obtain ⟨o₁, w₁, todo₁, hr₁, ht₁, hf₁, hfine₁, -⟩ := h₀.run hfit hpre
  have hfit₁ : ∀ f ∈ todo₁, f.Fits := fun f hf => hfit f (by rw [hf₁]; exact List.mem_append_right _ hf)
  obtain ⟨o₂, w₂, todo₂, hr₂, ht₂, hf₂, hfine₂, hres₂⟩ := ht₁.run hfit₁ (hpost _ _ hr₁)
  have hfit₂ : ∀ f ∈ todo₂, f.Fits := fun f hf => hfit₁ f (by rw [hf₂]; exact List.mem_append_right _ hf)
  have hok : okFrames (o₁ ++ o₂) = okFrames o₁ ++ okFrames o₂ := List.filterMap_append ..
  have hframes : frames = okFrames (o₁ ++ o₂) ++ todo₂ := by rw [hok, List.append_assoc, ← hf₂, ← hf₁]
  refine ⟨o₁, w₁, o₂, w₂, hr₁, hr₂, ⟨todo₂, hframes.symm⟩, ?_, ?_, fun hall => ⟨todo₁, hf₁, hres₂ ?_⟩⟩
  · intro o ho
    rcases List.mem_append.mp ho with ho | ho
    · exact hfine₁ o ho
    · exact hfine₂ o ho
  · -- the held bytes and the unwritten ones are the stream of the frames to come
    have hheld := ht₂.held hfit₂
    have hstream := congrArg (List.flatMap WireFrame.encode) hframes
    rw [List.flatMap_append, ← hheld, ← hlater, ← List.append_assoc] at hstream
    exact List.append_cancel_right hstream
  · -- nothing is left to write
    rw [happ, hall, List.append_assoc] at hlater
    exact List.append_right_eq_self.mp hlater

/-- A run over both branches of a swap: the chunks are of 16, 16 and 64 bytes,
so the overflow of the first swap is chained and that of the second copied. -/
theorem decodes_of_fits_swaps :
    Decodes ⟨fun _ _ => 0, .new ⟨1, 16, 1, false⟩ ⟨12⟩⟩ [.data [1, 2, 3], .ack, .bye]
      [.write [0xC0, 0xA1, 0xBA, 0x11, 0, 0], .getFrame, .swapBuffer ⟨2, 16, 1, false⟩,
        .write [0, 3, 2, 1, 2, 3, 0xC0, 0xA1], .hasFrame, .swapBuffer ⟨3, 64, 1, true⟩,
        .write [0xBA, 0x11, 0, 0, 0, 0, 6, 0xC0, 0xA1, 0xBA, 0x11, 0, 0, 0, 0, 7]]
      [.getFrame, .getFrame, .getFrame, .getFrame] :=
  decodes_of_fits ⟨12⟩ ⟨1, 16, 1, false⟩ (fun _ _ => 0) rfl _ (by decide) _ _ (by decide) (by decide)

/-- What the format does not carry is not decoded: the scope of an IPv6
address is lost, and the length of a payload of `2³²` bytes is read as zero,
at which the decoder panics. -/
theorem not_decodes_scope_and_huge_payload :
    (LegalRun ⟨fun _ _ => 0, .new ⟨1, 128, 1, false⟩ ⟨8⟩⟩
        [.write (WireFrame.hello (.v6 1 8080 0 1)).encode, .getFrame] ∧
      ¬ Decodes ⟨fun _ _ => 0, .new ⟨1, 128, 1, false⟩ ⟨8⟩⟩ [.hello (.v6 1 8080 0 1)]
        [.write (WireFrame.hello (.v6 1 8080 0 1)).encode, .getFrame] []) ∧
    (LegalRun ⟨fun _ _ => 0, .new ⟨1, 128, 1, false⟩ ⟨8⟩⟩
        [.write [0xC0, 0xA1, 0xBA, 0x11, 0, 0, 0, 0, 2], .getFrame] ∧
      [0xC0, 0xA1, 0xBA, 0x11, 0, 0, 0, 0, 2] <+: (WireFrame.data (List.replicate (2 ^ 32) 0)).encode ∧
      ¬ Decodes ⟨fun _ _ => 0, .new ⟨1, 128, 1, false⟩ ⟨8⟩⟩ [.data (List.replicate (2 ^ 32) 0)]
        [.write [0xC0, 0xA1, 0xBA, 0x11, 0, 0, 0, 0, 2], .getFrame] []) := by
  refine ⟨⟨by decide, ?_⟩, by decide, ?_, ?_⟩
  · rintro ⟨o₁, w₁, o₂, w₂, hr₁, hr₂, hpre, -⟩
    injection hr₂ with hr₂
    obtain ⟨rfl, rfl⟩ := Prod.mk.inj hr₂
    injection hr₁ with hr₁
    obtain ⟨rfl, -⟩ := Prod.mk.inj hr₁
    exact absurd hpre (by decide)
  · refine ⟨List.replicate (2 ^ 32) 0, ?_⟩
    simp only [WireFrame.encode, WireFrame.body, WireFrame.frameType, List.length_replicate]
    congr 1
  · rintro ⟨o₁, w₁, o₂, w₂, hr₁, -⟩
    cases hr₁

end Kompact.Decoding
