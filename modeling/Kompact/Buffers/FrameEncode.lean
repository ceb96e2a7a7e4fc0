import Kompact.Buffers.Frames
import Kompact.Framework.BufMut

/-!
# Encoding frames

`Frame::encode_into` writes a frame to any buffer: first a head, with the
length that `encoded_len` gives, and then the body.

The body of a data frame is to be copied chunk by chunk, but the loop does not
advance the payload: once it has started it never ends, unless the buffer is
full and it panics (`not_ok_encodeDataLoop`). Moreover the length in its head is
that of the whole payload, read or not. So only an empty data frame is encoded
as it should be, and the other frames are, up to the flow label and the scope of
their address (`encodesRight_iff`).
-/

namespace Kompact

variable {δ : Type}

/-- `FrameHead::encode_into` any buffer. -/
def FrameHead.encodeIntoBuf (B : BufMut δ) (h : FrameHead) (dst : δ) : Panics δ := do
  if B.remainingMut dst < frameHeadLen then
    throw "assertion failed: dst.remaining_mut() >= FRAME_HEAD_LEN as usize"
  let dst ← B.putUint dst 4 magicNum
  let dst ← B.putUint dst 4 h.contentLength
  B.putUint dst 1 h.frameType.toByte.toNat

/-- The address that `Hello` and `Start` bodies begin with. -/
def SocketAddr.encodeInto (B : BufMut δ) (addr : SocketAddr) (dst : δ) : Panics δ :=
  match addr with
  | .v4 ip port => do
    let dst ← B.putUint dst 1 4
    let dst ← B.putSlice dst (toBE 4 ip.toNat)
    B.putUint dst 2 port.toNat
  | .v6 ip port _ _ => do
    let dst ← B.putUint dst 1 6
    let dst ← B.putSlice dst (toBE 16 ip.toNat)
    B.putUint dst 2 port.toNat

/-- The number of bytes of the address. -/
def SocketAddr.encodedLen : SocketAddr → Nat
  | .v4 _ _ => 1 + 4 + 2
  | .v6 _ _ _ _ => 1 + 16 + 2

/-- The loop of `Data::encode_into`, at most `n` rounds of it; none where it has not
ended by then. -/
def encodeDataLoop (B : BufMut δ) (m : Mem) (payload : ChunkLease) : Nat → δ → Option (Panics δ)
  | 0, _ => none
  | n + 1, dst =>
    if 0 < payload.remaining then
      match payload.chunk with
      | .error e => some (.error e)
      | .ok chunk =>
        match B.putSlice dst (chunk.bytes m) with
        | .error e => some (.error e)
        | .ok dst => encodeDataLoop B m payload n dst
    else some (.ok dst)

namespace Frame

def frameType : Frame → FrameType
  | data _ => .data
  | hello _ => .hello
  | start _ _ => .start
  | ack => .ack
  | bye => .bye

/-- The number of bytes the body takes. -/
def encodedLen : Frame → Nat
  | data payload => payload.capacity
  | hello addr => addr.encodedLen
  | start addr _ => addr.encodedLen + 16
  | ack => 0
  | bye => 0

/-- The body, by the encoder of the frame's type. -/
def encodeBodyInto (B : BufMut δ) (m : Mem) (n : Nat) (dst : δ) : Frame → Option (Panics δ)
  | data payload =>
    if B.remainingMut dst < payload.capacity then
      some (.error "assertion failed: dst.remaining_mut() >= (self.encoded_len())")
    else encodeDataLoop B m payload n dst
  | hello addr => some (addr.encodeInto B dst)
  | start addr id => some do
    let dst ← addr.encodeInto B dst
    B.putUint dst 16 id.asU128
  | ack => some (.ok dst)
  | bye => some (.ok dst)

/-- `Frame::encode_into`, which is always `Ok` when it returns. -/
def encodeInto (B : BufMut δ) (m : Mem) (n : Nat) (f : Frame) (dst : δ) : Option (Panics δ) :=
  match (FrameHead.mk f.frameType f.encodedLen).encodeIntoBuf B dst with
  | .error e => some (.error e)
  | .ok dst => f.encodeBodyInto B m n dst

/-- The `decode_from` that belongs to a frame type; frames without a body have none. -/
def decodeAs (m : Mem) (t : FrameType) (body : ChunkLease) : Panics (Except FramingError Frame) :=
  match t with
  | .data => .ok (.ok (.data body))
  | .hello => decodeHelloFrom m body
  | .start => decodeStartFrom m body
  | .ack => .ok (.ok .ack)
  | .bye => .ok (.ok .bye)
  | .unknown => .ok (.error .unsupportedFrameType)

/-- Some bytes, from wherever they are read as a head and a body, decode to the frame. -/
def Decodes (out : List UInt8) (f : WireFrame) : Prop :=
  ∀ (m : Mem) (head body : ChunkLease), head.WF → body.WF → (head.unread m).length = frameHeadLen →
    head.unread m ++ body.unread m = out →
    ∃ fh g, FrameHead.decodeFrom m head = .ok (.ok fh) ∧ decodeAs m fh.frameType body = .ok (.ok g) ∧ g.view m = f

/-- The frame is encoded as it should be into any buffer with room for it: the encoder
returns, writes as many bytes as it says, announces the length of the body, and the
decoders give the frame back. -/
def EncodesRight (m : Mem) (f : Frame) : Prop :=
  ∀ (δ : Type) (B : BufMut δ) (written : δ → List UInt8), B.Appends written →
    ∀ d, frameHeadLen + f.encodedLen ≤ B.remainingMut d →
      ∃ n d' out, f.encodeInto B m n d = some (.ok d') ∧ written d' = written d ++ out ∧
        out.length = frameHeadLen + f.encodedLen ∧ ofBE ((out.drop 4).take 4) = out.length - frameHeadLen ∧
        Decodes out (f.view m)

/-- The frames for which this holds. -/
def Encodable : Frame → Prop
  | data payload => payload.capacity = 0
  | hello addr => addr.Plain
  | start addr _ => addr.Plain
  | ack => True
  | bye => True

instance (f : Frame) : Decidable f.Encodable := by
  cases f <;> unfold Encodable <;> infer_instance

end Frame

/-! ## Heads and addresses -/

section Writes

variable {B : BufMut δ} {written : δ → List UInt8} {d : δ}

theorem FrameHead.encodeIntoBuf_spec (hB : B.Appends written) (h : FrameHead) (hl : frameHeadLen ≤ B.remainingMut d) :
    ∃ d', h.encodeIntoBuf B d = .ok d' ∧ B.Puts written d h.encode d' := by
  have hbyte : toBE 1 h.frameType.toByte.toNat = [h.frameType.toByte] := by
    cases h.frameType <;> decide
  obtain ⟨d', hd, hp⟩ := hB.fields (x := toBE 4 magicNum) (y := toBE 4 h.contentLength)
    (z := toBE 1 h.frameType.toByte.toNat) (by simp only [length_toBE]; exact hl)
  rw [hbyte] at hp
  refine ⟨d', ?_, hp⟩
  unfold encodeIntoBuf
  rw [if_neg (Nat.not_lt.mpr hl)]
  exact hd

theorem SocketAddr.length_encode (addr : SocketAddr) : addr.encode.length = addr.encodedLen := by
  cases addr with
  | v4 ip port => simp [SocketAddr.encode, encodedLen]
  | v6 ip port flowinfo scopeId => simp [SocketAddr.encode, encodedLen]

theorem SocketAddr.encodeInto_spec (hB : B.Appends written) (addr : SocketAddr)
    (hl : addr.encodedLen ≤ B.remainingMut d) :
    ∃ d', addr.encodeInto B d = .ok d' ∧ B.Puts written d addr.encode d' := by
  cases addr with
  | v4 ip port =>
    exact hB.fields (x := toBE 1 4) (y := toBE 4 ip.toNat) (z := toBE 2 port.toNat)
      (by simp only [length_toBE]; exact hl)
  | v6 ip port flowinfo scopeId =>
    exact hB.fields (x := toBE 1 6) (y := toBE 16 ip.toNat) (z := toBE 2 port.toNat)
      (by simp only [length_toBE]; exact hl)

end Writes

/-! ## Data frames -/

/-- The payload is never advanced, so that nothing ends a loop that was entered but a
panic. -/
theorem not_ok_encodeDataLoop {B : BufMut δ} {m : Mem} {payload : ChunkLease} (h : 0 < payload.remaining) (n : Nat)
    (d d' : δ) : encodeDataLoop B m payload n d ≠ some (.ok d') := by
  induction n generalizing d with
  | zero => simp [encodeDataLoop]
  | succ n ih =>
    rw [encodeDataLoop, if_pos h]
    cases payload.chunk with
    | error e => simp
    | ok chunk =>
      simp only
      cases B.putSlice d (chunk.bytes m) with
      | error e => simp
      | ok d₁ => exact ih d₁

namespace Frame

/-- The bytes that should be written: head and body. -/
theorem encodeInto_body {B : BufMut δ} {written : δ → List UInt8} {d : δ} {m : Mem} {f : Frame} {n : Nat}
    {body : List UInt8} (hB : B.Appends written) (hl : frameHeadLen + f.encodedLen ≤ B.remainingMut d)
    (hlen : body.length = f.encodedLen)
    (hbody : ∀ d, f.encodedLen ≤ B.remainingMut d →
      ∃ d', f.encodeBodyInto B m n d = some (.ok d') ∧ B.Puts written d body d') :
    ∃ d', f.encodeInto B m n d = some (.ok d') ∧
      written d' = written d ++ ((FrameHead.mk f.frameType body.length).encode ++ body) := by
  obtain ⟨d₁, h₁, hp₁⟩ := (FrameHead.mk f.frameType f.encodedLen).encodeIntoBuf_spec hB (d := d) (by omega)
  have hr := hp₁.room
  rw [length_encode_head] at hr
  obtain ⟨d₂, h₂, hp₂⟩ := hbody d₁ (by omega)
  refine ⟨d₂, ?_, ?_⟩
  · rw [encodeInto, h₁]
    exact h₂
  · rw [(hp₁.append hp₂).written, hlen]

/-- The length field of what is written. -/
theorem ofBE_length_field {t : FrameType} {body : List UInt8} (h : body.length < 2 ^ 32) :
    ofBE ((((FrameHead.mk t body.length).encode ++ body).drop 4).take 4) =
      ((FrameHead.mk t body.length).encode ++ body).length - frameHeadLen := by
  obtain ⟨-, hfield, -⟩ := take_drop_fields (toBE 4 magicNum) (toBE 4 body.length) ([t.toByte] ++ body)
  simp only [length_toBE] at hfield
  rw [List.length_append, length_encode_head, Nat.add_sub_cancel_left]
  simp only [FrameHead.encode, List.append_assoc]
  rw [hfield, ofBE_toBE_of_lt (by simpa using h)]

/-- The decoders give back a frame whose body is decoded by the decoder of its type. -/
theorem decodes_encode {w : WireFrame} (hlen : w.body.length < 2 ^ 32)
    (hbody : ∀ (m : Mem) (body : ChunkLease), body.WF → body.unread m = w.body →
      ∃ g, decodeAs m w.frameType body = .ok (.ok g) ∧ g.view m = w) : Decodes w.encode w := by
  intro m head body hhead hwf hl hout
  obtain ⟨h₁, h₂⟩ := List.append_inj hout (by rw [hl, length_encode_head])
  obtain ⟨g, hg, hview⟩ := hbody m body hwf h₂
  have hdec := decodeFrom_spec m hhead hl (by rw [h₁]; exact decodeHead_encode hlen)
  exact ⟨_, g, hdec, hg, hview⟩

/-- What is left to show of a frame that is encoded as it should be. -/
theorem encodesRight_of_body {m : Mem} {f : Frame} (n : Nat) (htype : (f.view m).frameType = f.frameType)
    (hlen : (f.view m).body.length = f.encodedLen) (hlt : (f.view m).body.length < 2 ^ 32)
    (henc : ∀ (δ : Type) (B : BufMut δ) (written : δ → List UInt8), B.Appends written → ∀ d,
      f.encodedLen ≤ B.remainingMut d →
        ∃ d', f.encodeBodyInto B m n d = some (.ok d') ∧ B.Puts written d (f.view m).body d')
    (hdec : ∀ (m' : Mem) (body : ChunkLease), body.WF → body.unread m' = (f.view m).body →
      ∃ g, decodeAs m' (f.view m).frameType body = .ok (.ok g) ∧ g.view m' = f.view m) : f.EncodesRight m := by
  intro δ B written hB d hl
  obtain ⟨d', hd, hw⟩ := encodeInto_body hB hl hlen (henc δ B written hB)
  have hdecodes := decodes_encode hlt hdec
  rw [WireFrame.encode, htype] at hdecodes
  refine ⟨n, d', _, hd, hw, ?_, ofBE_length_field hlt, hdecodes⟩
  rw [List.length_append, length_encode_head, hlen]

theorem encodesRight_of_encodable {m : Mem} {f : Frame} (hwf : ∀ l, f = .data l → l.WF) (h : f.Encodable) :
    f.EncodesRight m := by
  cases f with
  | data payload =>
    have hcap : payload.capacity = 0 := h
    have hnil : payload.unread m = [] := by
      rw [← List.length_eq_zero_iff, (hwf payload rfl).length_unread, ChunkLease.remaining, hcap, Nat.zero_sub]
    have hrem : ¬ 0 < payload.remaining := by rw [ChunkLease.remaining, hcap, Nat.zero_sub]; exact Nat.lt_irrefl 0
    refine encodesRight_of_body 1 rfl ?_ ?_ ?_ ?_
    · simp only [view, WireFrame.body, hnil, encodedLen, hcap, List.length_nil]
    · simp only [view, WireFrame.body, hnil, List.length_nil]
      decide
    · intro δ B written hB d _
      refine ⟨d, ?_, ?_⟩
      · rw [encodeBodyInto, hcap, if_neg (Nat.not_lt_zero _), encodeDataLoop, if_neg hrem]
      · simp only [view, WireFrame.body, hnil]
        exact .nil d
    · intro m' body _ hbody
      exact ⟨.data body, rfl, congrArg WireFrame.data hbody⟩
  | hello addr =>
    have hc : decodeContent .hello addr.encode = some (.hello addr) := decodeContent_body (f := .hello addr) h
    refine encodesRight_of_body 0 rfl addr.length_encode (length_body_lt (f := .hello addr) h) ?_ ?_
    · intro δ B written hB d hl
      obtain ⟨d', hd, hp⟩ := addr.encodeInto_spec hB hl
      exact ⟨d', congrArg some hd, hp⟩
    · intro m' body hbwf hbody
      obtain ⟨g, hg, hview⟩ := decodeHelloFrom_spec m' hbwf (by rw [hbody]; exact hc)
      exact ⟨g, hg, hview m'⟩
  | start addr id =>
    have hc : decodeContent .start (addr.encode ++ toBE 16 id.asU128) = some (.start addr id) :=
      decodeContent_body (f := .start addr id) h
    refine encodesRight_of_body 0 rfl ?_ (length_body_lt (f := .start addr id) h) ?_ ?_
    · simp only [view, WireFrame.body, List.length_append, length_toBE, addr.length_encode]
      rfl
    · intro δ B written hB d hl
      have hroom : addr.encodedLen + 16 ≤ B.remainingMut d := hl
      obtain ⟨d₁, h₁, hp₁⟩ := addr.encodeInto_spec hB (d := d) (by omega)
      have hr := hp₁.room
      rw [addr.length_encode] at hr
      obtain ⟨d₂, h₂, hp₂⟩ := hB d₁ (toBE 16 id.asU128) (by rw [length_toBE]; omega)
      refine ⟨d₂, ?_, hp₁.append hp₂⟩
      rw [encodeBodyInto, h₁]
      exact congrArg some h₂
    · intro m' body hbwf hbody
      obtain ⟨g, hg, hview⟩ := decodeStartFrom_spec m' hbwf (by rw [hbody]; exact hc)
      exact ⟨g, hg, hview m'⟩
  | ack =>
    exact encodesRight_of_body 0 rfl rfl (Nat.two_pow_pos 32) (fun δ B written hB d _ => ⟨d, rfl, .nil d⟩)
      fun m' body _ _ => ⟨.ack, rfl, rfl⟩
  | bye =>
    exact encodesRight_of_body 0 rfl rfl (Nat.two_pow_pos 32) (fun δ B written hB d _ => ⟨d, rfl, .nil d⟩)
      fun m' body _ _ => ⟨.bye, rfl, rfl⟩

/-- What a decoder can say about an address. -/
def PlainAddr : Frame → Prop
  | hello addr => addr.Plain
  | start addr _ => addr.Plain
  | _ => True

theorem decodeAddrFrom_plain {m : Mem} {l l' : ChunkLease} {a : SocketAddr} (h : decodeAddrFrom m l = .ok (a, l')) :
    a.Plain := by
  obtain ⟨⟨version, l₁⟩, -, h⟩ := Panics.bind_eq_ok.mp h
  by_cases h4 : version = 4
  · simp only [h4, if_true] at h
    obtain ⟨⟨ip, l₂⟩, -, h⟩ := Panics.bind_eq_ok.mp h
    obtain ⟨⟨port, l₃⟩, -, h⟩ := Panics.bind_eq_ok.mp h
    rw [← (Prod.mk.inj (Except.ok.inj h)).1]
    rfl
  simp only [h4, if_false] at h
  by_cases h6 : version = 6
  · simp only [h6, if_true] at h
    obtain ⟨⟨ip, l₂⟩, -, h⟩ := Panics.bind_eq_ok.mp h
    obtain ⟨⟨port, l₃⟩, -, h⟩ := Panics.bind_eq_ok.mp h
    rw [← (Prod.mk.inj (Except.ok.inj h)).1]
    rfl
  · simp only [h6, if_false] at h
    cases h

theorem decodeAs_plain {m : Mem} {t : FrameType} {body : ChunkLease} {g : Frame}
    (h : decodeAs m t body = .ok (.ok g)) : g.PlainAddr := by
  cases t with
  | hello =>
    obtain ⟨⟨addr, l⟩, ha, h⟩ := Panics.bind_eq_ok.mp h
    obtain rfl := Except.ok.inj (Except.ok.inj h)
    exact decodeAddrFrom_plain ha
  | start =>
    obtain ⟨⟨addr, l⟩, ha, h⟩ := Panics.bind_eq_ok.mp h
    obtain ⟨⟨id, l'⟩, -, h⟩ := Panics.bind_eq_ok.mp h
    obtain rfl := Except.ok.inj (Except.ok.inj h)
    exact decodeAddrFrom_plain ha
  | data =>
    obtain rfl := Except.ok.inj (Except.ok.inj h)
    trivial
  | ack =>
    obtain rfl := Except.ok.inj (Except.ok.inj h)
    trivial
  | bye =>
    obtain rfl := Except.ok.inj (Except.ok.inj h)
    trivial
  | unknown => cases Except.ok.inj h

/-- Any bytes can be read as a head and a body. -/
theorem exists_leases {out : List UInt8} (h : frameHeadLen ≤ out.length) :
    ∃ (m : Mem) (head body : ChunkLease), head.WF ∧ body.WF ∧ (head.unread m).length = frameHeadLen ∧
      head.unread m ++ body.unread m = out := by
  refine ⟨Mem.write (fun _ _ => 0) 1 0 out, .new ⟨1, 0, frameHeadLen⟩ 1,
    .new ⟨1, frameHeadLen, out.length - frameHeadLen⟩ 1, ChunkLease.wf_new _ _, ChunkLease.wf_new _ _, ?_, ?_⟩
  · exact Mem.length_bytes ..
  · show Mem.bytes _ 1 0 frameHeadLen ++ Mem.bytes _ 1 frameHeadLen (out.length - frameHeadLen) = out
    have hadd := Mem.bytes_add (Mem.write (fun _ _ => 0) 1 0 out) 1 0 frameHeadLen (out.length - frameHeadLen)
    rw [Nat.zero_add] at hadd
    rw [← hadd, Nat.add_sub_cancel' h, Mem.bytes_write_self]

/-- Nothing decodes to an address with a flow label or a scope. -/
theorem plainAddr_of_decodes {m : Mem} {f : Frame} {out : List UInt8} (hl : frameHeadLen ≤ out.length)
    (h : Decodes out (f.view m)) : f.PlainAddr := by
  obtain ⟨m', head, body, hhead, hbody, hlen, hout⟩ := exists_leases hl
  obtain ⟨fh, g, -, hg, hview⟩ := h m' head body hhead hbody hlen hout
  have hplain := decodeAs_plain hg
  cases f with
  | hello addr =>
    cases g with
    | hello addr' =>
      rw [← WireFrame.hello.inj hview]
      exact hplain
    | data l => cases hview
    | start a id => cases hview
    | ack => cases hview
    | bye => cases hview
  | start addr id =>
    cases g with
    | start addr' id' =>
      rw [← (WireFrame.start.inj hview).1]
      exact hplain
    | data l => cases hview
    | hello a => cases hview
    | ack => cases hview
    | bye => cases hview
  | data l => trivial
  | ack => trivial
  | bye => trivial

/-- A data frame whose payload is not empty: the loop does not end, or it is not entered and
the body is shorter than announced. -/
theorem capacity_eq_zero {B : BufMut δ} {written : δ → List UInt8} {m : Mem} {payload : ChunkLease} {n : Nat}
    {d d' : δ} {out : List UInt8} (hB : B.Appends written)
    (hl : frameHeadLen + payload.capacity ≤ B.remainingMut d)
    (hd : (data payload).encodeInto B m n d = some (.ok d')) (hw : written d' = written d ++ out)
    (hlen : out.length = frameHeadLen + payload.capacity) : payload.capacity = 0 := by
  obtain ⟨d₁, h₁, hp⟩ := (FrameHead.mk .data payload.capacity).encodeIntoBuf_spec hB (d := d) (by omega)
  have hr := hp.room
  rw [length_encode_head] at hr
  have hloop : encodeDataLoop B m payload n d₁ = some (.ok d') := by
    have hbody : (data payload).encodeBodyInto B m n d₁ = some (.ok d') := by
      rw [← hd, encodeInto]
      simp only [frameType, encodedLen, h₁]
    rw [encodeBodyInto, if_neg (by omega)] at hbody
    exact hbody
  by_cases hrem : 0 < payload.remaining
  · exact absurd hloop (not_ok_encodeDataLoop hrem n d₁ d')
  · cases n with
    | zero => cases hloop
    | succ n =>
      rw [encodeDataLoop, if_neg hrem] at hloop
      obtain rfl := Except.ok.inj (Option.some.inj hloop)
      have hout : out = (FrameHead.mk .data payload.capacity).encode :=
        List.append_cancel_left (hw.symm.trans hp.written)
      rw [hout, length_encode_head] at hlen
      omega

/-- `encode_into` is correct for exactly these frames: those without a payload, with an
address that has no flow label and no scope. -/
theorem encodesRight_iff (m : Mem) (f : Frame) (hwf : ∀ l, f = .data l → l.WF) : f.EncodesRight m ↔ f.Encodable := by
  constructor
  · intro h
    obtain ⟨n, d', out, hd, hw, hlen, -, hdec⟩ :=
      h _ .vec _ BufMut.appends_vec ([], frameHeadLen + f.encodedLen) (Nat.le_refl _)
    have hplain := plainAddr_of_decodes (by omega) hdec
    cases f with
    | data payload => exact capacity_eq_zero BufMut.appends_vec (Nat.le_refl _) hd hw hlen
    | hello addr => exact hplain
    | start addr id => exact hplain
    | ack => trivial
    | bye => trivial
  · exact encodesRight_of_encodable hwf

/-- A `Start` with an IPv6 address. -/
theorem encodesRight_iff_start : (start (.v6 1 8080 0 0) ⟨5⟩).EncodesRight fun _ _ => 0 :=
  (encodesRight_iff (fun _ _ => 0) (start (.v6 1 8080 0 0) ⟨5⟩) (fun l hl => by cases hl)).mpr (by decide)

/-- A payload of one byte is written over and over until the buffer is full. -/
theorem not_encodesRight_data :
    ¬ (data (.new ⟨1, 0, 1⟩ 1)).EncodesRight (fun _ _ => 7) ∧
      (data (.new ⟨1, 0, 1⟩ 1)).encodeInto .vec (fun _ _ => 7) 3 ([], 12) = none ∧
      (data (.new ⟨1, 0, 1⟩ 1)).encodeInto .vec (fun _ _ => 7) 4 ([], 12) =
        some (.error "advance out of bounds") := by
  refine ⟨fun h => ?_, rfl, rfl⟩
  obtain ⟨n, d', out, hd, hw, hlen, -⟩ := h _ .vec _ BufMut.appends_vec ([], 10) (by decide)
  cases capacity_eq_zero BufMut.appends_vec (by decide) hd hw hlen

end Frame

end Kompact
