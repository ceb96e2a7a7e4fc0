import Kompact.Buffers.DecodeLaw
import Kompact.Network.Receive

/-!
# Reading frames from a stream

`read_frame` on a stream of frames that a peer sends: the decode buffer stands
before the frames `todo`, of whose encodings some bytes have arrived and the
rest, `later`, has not (`Before`).

A read takes any part of what has arrived (`readStream_pending`), so receiving
keeps this (`receiveLoop_before`), and so does a swap. Hence `readFrame_before`:
a call returns the next frame, or none, or an error of the stream, and does not
panic; and where it returns none although everything has arrived, there is no
frame left.
-/

namespace Kompact

/-- One more frame at the end of the stream. -/
theorem FrameFormat.Synced.append {β H F ε : Type} {fmt : FrameFormat β H F ε} {enc : F → List β} {d : Decoder β H}
    {todo : List F} {later : List β} (h : Synced fmt enc d todo later) (f : F) :
    Synced fmt enc d (todo ++ [f]) (later ++ enc f) := by
  cases h with
  | between hp hs =>
    refine .between hp ?_
    rw [← List.append_assoc, hs, List.flatMap_append, List.flatMap_singleton]
  | within ht he parts hp hs =>
    refine .within (by rw [ht, List.cons_append]) he parts hp ?_
    rw [← List.append_assoc, hs, List.flatMap_append, List.flatMap_singleton, List.append_assoc]

namespace DecodeBuffer

/-- The payload of a data frame is a lease that was not read yet. -/
theorem getFrame_payload {m : Mem} {d d' : DecodeBuffer} (h : d.Inv) {f : WireFrame} {v : Decoder UInt8 FrameHead}
    (hp : frameFormat.poll (d.view m) = (.frame f, v)) {l : ChunkLease}
    (hg : d.getFrame m = .ok (.ok (.data l), d')) : l.WF ∧ l.readPointer = 0 := by
  simp only [FrameFormat.poll] at hp
  split at hp
  · cases hp
  rename_i hf
  obtain ⟨d₁, hd, hinv, hv⟩ := decodeFrameHead_spec h hf
  split at hp
  · cases hp
  rename_i head hready
  rw [← hv, ← readyHead_eq hinv m] at hready
  have hl : head.contentLength ≤ d₁.readableLen := by
    have := (Option.filter_eq_some_iff.mp hready).2
    simpa using this
  rw [getFrame_eq hd, hready] at hg
  obtain ⟨t, n⟩ := head
  cases t with
  | data =>
    obtain ⟨⟨l', d₂⟩, hr, hg⟩ := Panics.bind_eq_ok.mp hg
    obtain ⟨hl', -⟩ := Prod.mk.inj (Except.ok.inj hg)
    obtain rfl : l' = l := Frame.data.inj (Except.ok.inj hl')
    have hpos : 0 < n ∨ ({ d₁ with nextFrameHead := none } : DecodeBuffer).chainHead.isSome := by
      by_contra hno
      obtain ⟨hn, hc⟩ := not_or.mp hno
      obtain rfl : n = 0 := by omega
      obtain ⟨e, he⟩ := readChunkLease_empty (d := { d₁ with nextFrameHead := none }) (by simpa using hc)
      rw [he] at hr
      cases hr
    obtain ⟨l'', d₃, hr', rd⟩ := readChunkLease_reads (hinv.setHead none) hpos hl
    rw [hr'] at hr
    obtain ⟨rfl, rfl⟩ := Prod.mk.inj (Except.ok.inj hr)
    exact ⟨rd.wf, rd.readPointer⟩
  | hello =>
    obtain ⟨⟨l', d₂⟩, -, hg⟩ := Panics.bind_eq_ok.mp hg
    obtain ⟨r, hr, hg⟩ := Panics.bind_eq_ok.mp hg
    obtain ⟨a, -, ha⟩ := Panics.bind_eq_ok.mp hr
    rw [← Except.ok.inj ha] at hg
    cases hg
  | start =>
    obtain ⟨⟨l', d₂⟩, -, hg⟩ := Panics.bind_eq_ok.mp hg
    obtain ⟨r, hr, hg⟩ := Panics.bind_eq_ok.mp hg
    obtain ⟨a, -, ha⟩ := Panics.bind_eq_ok.mp hr
    obtain ⟨id, -, hid⟩ := Panics.bind_eq_ok.mp ha
    rw [← Except.ok.inj hid] at hg
    cases hg
  | ack | bye | unknown => cases hg

end DecodeBuffer

namespace Receiver

open Decoding

variable {r : Receiver} {todo : List WireFrame} {later : List UInt8}

/-- The bytes that have arrived and were not read yet. -/
def pending (stream : List Arrival) : List UInt8 :=
  stream.flatMap fun
    | .bytes bs => bs
    | .error _ => []

/-- A read takes the first bytes of what has arrived, or none. -/
theorem readStream_pending (n : Nat) (stream : List Arrival) :
    match readStream n stream with
    | (.ok bs, rest) => bs.length ≤ n ∧ pending stream = bs ++ pending rest
    | (.error _, rest) => pending stream = pending rest := by
  cases stream with
  | nil => rfl
  | cons a rest =>
    cases a with
    | error e => rfl
    | bytes bs =>
      simp only [readStream]
      by_cases hl : bs.length ≤ n
      · rw [if_pos hl]
        exact ⟨hl, rfl⟩
      · rw [if_neg hl]
        refine ⟨by rw [List.length_take]; exact Nat.min_le_left .., ?_⟩
        show bs ++ pending rest = bs.take n ++ (bs.drop n ++ pending rest)
        rw [← List.append_assoc, List.take_append_drop]

/-- The decode buffer stands before the frames `todo`, of whose stream the bytes `later` have
not arrived yet. -/
def Before (r : Receiver) (todo : List WireFrame) (later : List UInt8) : Prop :=
  Tracks r.world todo (pending r.stream ++ later)

/-- A write into the buffer of what was read. -/
theorem Before.read {bs : List UInt8} {rest : List Arrival} (h : Before r todo later)
    (hl : bs.length ≤ r.world.buf.writeableLen)
    (hp : pending r.stream = bs ++ pending rest) :
    Before ⟨⟨r.world.mem.write r.world.buf.buffer.chunk r.world.buf.writeOffset bs,
      r.world.buf.advanceWriteable bs.length⟩, rest⟩ todo later := by
  obtain ⟨hinv, hsync⟩ := h
  rw [hp, List.append_assoc] at hsync
  obtain ⟨hinv', hview⟩ := r.world.buf.view_write hinv r.world.mem hl
  exact ⟨hinv', by rw [hview]; exact hsync.feed⟩

theorem Before.skip {rest : List Arrival} (h : Before r todo later) (hp : pending r.stream = pending rest) :
    Before { r with stream := rest } todo later := by
  show Tracks r.world todo (pending rest ++ later)
  rw [← hp]
  exact h

/-- Receiving ends, and the buffer stands before the same frames. By induction on the fuel, of
which there is more than the stream can use. -/
theorem receiveLoop_before (fuel interrupts : Nat) (r : Receiver) (h : Before r todo later)
    (hf : size r.stream < fuel) :
    ∃ res r', receiveLoop fuel interrupts r = .ok (res, r') ∧ Before r' todo later := by
  induction fuel generalizing interrupts r with
  | zero => omega
  | succ fuel ih =>
    unfold receiveLoop
    rw [r.world.buf.getWriteable_spec h.inv]
    cases hw : r.world.buf.isWriteable with
    | false => exact ⟨_, r, rfl, h⟩
    | true =>
      have hpos : 0 < r.world.buf.writeableLen := by
        have := of_decide_eq_true hw
        omega
      simp only [if_true, bind, Except.bind]
      have hcases := readStream_cases hpos r.stream
      have hpend := readStream_pending r.world.buf.writeableLen r.stream
      generalize readStream r.world.buf.writeableLen r.stream = x at hcases hpend
      obtain ⟨res, rest⟩ := x
      have hsize : size rest < size r.stream ∨ res = .error .wouldBlock := by
        rcases hcases with ⟨hwb, -⟩ | ⟨hlt, -⟩
        · exact .inr hwb
        · exact .inl hlt
      cases res with
      | ok bs =>
        obtain ⟨hl, hp⟩ := hpend
        simp only
        by_cases hnil : bs = []
        · rw [if_pos hnil]
          exact ⟨_, { r with stream := rest }, rfl, h.skip (by rw [hp, hnil, List.nil_append])⟩
        · rw [if_neg hnil]
          have hlt : size rest < size r.stream := hsize.resolve_right (by simp)
          exact ih interrupts _ (h.read hl hp) (show size rest < fuel by omega)
      | error e =>
        have hskip : Before { r with stream := rest } todo later := h.skip hpend
        cases e with
        | interrupted =>
          simp only
          by_cases hmax : 9 ≤ interrupts + 1
          · rw [if_pos hmax]
            exact ⟨_, _, rfl, hskip⟩
          · rw [if_neg hmax]
            have hlt : size rest < size r.stream := hsize.resolve_right (by simp)
            exact ih (interrupts + 1) _ hskip (show size rest < fuel by omega)
        | wouldBlock | invalidInput | invalidData | other => exact ⟨_, _, rfl, hskip⟩

theorem Before.receive (h : Before r todo later) :
    ∃ res r', r.receive = .ok (res, r') ∧ Before r' todo later :=
  receiveLoop_before (size r.stream + 1) 0 r h (Nat.lt_succ_self _)

theorem Before.hasFrame (hfit : ∀ f ∈ todo, f.Fits) (h : Before r todo later) :
    ∃ b r', r.hasFrame = .ok (.ok b, r') ∧ Before r' todo later := by
  obtain ⟨b, v, hp, hs⟩ := h.synced.hasFrame (fun f hf => encodes (hfit f hf)) (by decide)
  obtain ⟨d, hd, hinv, hv⟩ := DecodeBuffer.hasFrame_spec h.inv hp
  refine ⟨b, { r with world.buf := d }, ?_, hinv, by rw [hv]; exact hs⟩
  simp only [Receiver.hasFrame, hd, bind, Except.bind]
  rfl

/-- What a call of `read_frame` comes to before the frames `todo`. -/
inductive Outcome (todo : List WireFrame) (later : List UInt8) :
    Except IoError (Option Frame) → Receiver → Prop where
  /-- The next frame; the payload of a data frame is a lease that was not read yet. -/
  | frame {g : Frame} {fs : List WireFrame} {r : Receiver} (ht : todo = g.view r.world.mem :: fs)
    (hd : ∀ l, g = .data l → l.WF ∧ l.readPointer = 0) (h : Before r fs later) : Outcome todo later (.ok (some g)) r
  /-- No frame. Not all of the next one has arrived. -/
  | nothing {r : Receiver} (hmore : pending r.stream ++ later = [] → todo = []) (h : Before r todo later) :
    Outcome todo later (.ok none) r
  | failed {e : IoError} {r : Receiver} (h : Before r todo later) : Outcome todo later (.error e) r

theorem Before.decode (hfit : ∀ f ∈ todo, f.Fits) (h : Before r todo later) :
    ∃ res r', r.decode = .ok (res, r') ∧ Outcome todo later res r' := by
  rcases h.synced.poll (fun f hf => encodes (hfit f hf)) (by decide) with
    ⟨f, fs, v, rfl, -, hp, hs⟩ | ⟨v, hmore, hp, hs⟩
  · obtain ⟨g, d, hg, hview, hinv, hv⟩ := DecodeBuffer.getFrame_frame h.inv hp
    refine ⟨.ok (some g), { r with world.buf := d }, ?_, .frame (by rw [hview]) ?_ ⟨hinv, by rw [hv]; exact hs⟩⟩
    · simp only [Receiver.decode, hg, bind, Except.bind]
      rfl
    · rintro l rfl
      exact DecodeBuffer.getFrame_payload h.inv hp hg
  · obtain ⟨d, hg, hinv, hv⟩ := DecodeBuffer.getFrame_noData h.inv hp
    refine ⟨.ok none, { r with world.buf := d }, ?_, .nothing (fun hnil => ?_) ⟨hinv, by rw [hv]; exact hs⟩⟩
    · simp only [Receiver.decode, hg, bind, Except.bind]
      rfl
    · by_contra hne
      have hlt := hmore hne
      have hnil : pending r.stream ++ later = [] := hnil
      rw [hnil] at hlt
      cases hlt

/-- A round returns, or finds the chunk full. -/
theorem Before.round (hfit : ∀ f ∈ todo, f.Fits) (h : Before r todo later) :
    (∃ res r', r.round = .returns (.ok (res, r')) ∧ Outcome todo later res r') ∨
      ∃ r', r.round = .full r' ∧ Before r' todo later := by
  unfold Receiver.round
  obtain ⟨b, r₁, hh, h₁⟩ := h.hasFrame hfit
  rw [hh]
  cases b with
  | true =>
    obtain ⟨res, r', hd, ho⟩ := h₁.decode hfit
    exact .inl ⟨res, r', by rw [← hd], ho⟩
  | false =>
    obtain ⟨res, r₂, hrec, h₂⟩ := h₁.receive
    simp only [hrec]
    cases res with
    | ok u =>
      obtain ⟨res, r', hd, ho⟩ := h₂.decode hfit
      exact .inl ⟨res, r', by rw [← hd], ho⟩
    | error e =>
      cases e with
      | invalidInput =>
        obtain ⟨b, r₃, hh, h₃⟩ := h₂.hasFrame hfit
        simp only [hh]
        cases b with
        | true =>
          obtain ⟨res, r', hd, ho⟩ := h₃.decode hfit
          exact .inl ⟨res, r', by rw [← hd], ho⟩
        | false => exact .inr ⟨r₃, rfl, h₃⟩
      | wouldBlock | interrupted | invalidData | other => exact .inl ⟨_, r₂, rfl, .failed h₂⟩

/-- However often a call calls itself: what it comes to. -/
theorem readFrame_before {cfg : PoolConfig} {getBuffer : Nat → Receiver → Option BufferChunk}
    (hg : Supplies cfg getBuffer) (hfit : ∀ f ∈ todo, f.Fits) (n : Nat) (r : Receiver) (h : Before r todo later) :
    readFrame getBuffer n r = none ∨
      ∃ res r', readFrame getBuffer n r = some (.ok (res, r')) ∧ Outcome todo later res r' := by
  induction n generalizing r with
  | zero =>
    unfold readFrame
    rcases h.round hfit with ⟨res, r', hr, ho⟩ | ⟨r', hr, -⟩
    · exact .inr ⟨res, r', by rw [hr], ho⟩
    · exact .inl (by rw [hr])
  | succ n ih =>
    unfold readFrame
    rcases h.round hfit with ⟨res, r', hr, ho⟩ | ⟨r', hr, h'⟩
    · exact .inr ⟨res, r', by rw [hr], ho⟩
    rw [hr]
    simp only
    cases hb : getBuffer n r' with
    | none => exact .inr ⟨_, r', rfl, .failed h'⟩
    | some chunk =>
      obtain ⟨hfree, hfresh, -⟩ := hg n r' chunk hb
      obtain ⟨mem, buf, other, hs, hinv, hview⟩ :=
        DecodeBuffer.swapBuffer_spec (m := r'.world.mem) h'.inv hfree hfresh
      simp only [hs]
      exact ih { r' with world := ⟨mem, buf⟩ } ⟨hinv, by rw [hview]; exact h'.synced⟩

end Receiver

end Kompact
