import Kompact.Buffers.ChunkLease
import Kompact.Framework.FrameStream
import Kompact.Net.Address

/-!
# Frames

The frames of the transport layer, their heads and their encodings. A decoded
`Frame` keeps its payload in a lease; `WireFrame` is what it says, with the
payload's bytes, and `WireFrame.encode` the bytes on the wire.

`frameFormat` is the format of these frames on plain byte strings, and every
frame that fits the format is encoded in it (`encodes`): a payload must be
shorter than `2³²` bytes, as the head stores its length in 32 bits, and an
address must be given by its IP address and port alone. `decodeFrom_spec` and
`decodeBodyFrom_spec` connect the decoders, which read from leases, to it.
-/

namespace Kompact

/-- Identifies the start of a frame head. -/
def magicNum : Nat := 0xC0A1BA11

/-- The size of a frame head: magic number, frame length, frame type. -/
def frameHeadLen : Nat := 4 + 4 + 1

/-- Errors of encoding and decoding. -/
inductive FramingError where
  | bufferCapacity
  | unsupportedFrameType
  | invalidMagicNum (magic : Nat) (chunk : List UInt8)
  | invalidFrame
  | serialisationError
  | optionError
  | noData
  | io
  deriving DecidableEq, Repr

inductive FrameType where
  | data
  | hello
  | start
  | ack
  | bye
  | unknown
  deriving DecidableEq, Repr

namespace FrameType

/-- The byte of a frame type. -/
def toByte : FrameType → UInt8
  | data => 0x02
  | hello => 0x04
  | start => 0x05
  | ack => 0x06
  | bye => 0x07
  | unknown => 0x08

def ofByte (b : UInt8) : FrameType :=
  if b = 0x02 then data else if b = 0x04 then hello else if b = 0x05 then start
  else if b = 0x06 then ack else if b = 0x07 then bye else unknown

theorem ofByte_toByte (t : FrameType) : ofByte t.toByte = t := by
  cases t <;> decide

end FrameType

/-- The head of a frame. -/
structure FrameHead where
  frameType : FrameType
  contentLength : Nat
  deriving DecidableEq, Repr

/-- A decoded frame. -/
inductive Frame where
  | data (payload : ChunkLease)
  | hello (addr : SocketAddr)
  | start (addr : SocketAddr) (id : SessionId)
  | ack
  | bye
  deriving DecidableEq, Repr

/-! ## Encoding -/

/-- `FrameHead::encode_into`; `content_length as u32` keeps the low 32 bits. -/
def FrameHead.encode (h : FrameHead) : List UInt8 :=
  toBE 4 magicNum ++ toBE 4 h.contentLength ++ [h.frameType.toByte]

/-- What a frame says: a frame with its payload's bytes. -/
inductive WireFrame where
  | data (payload : List UInt8)
  | hello (addr : SocketAddr)
  | start (addr : SocketAddr) (id : SessionId)
  | ack
  | bye
  deriving DecidableEq, Repr

/-- The version, IP address and port of an address. -/
def SocketAddr.encode : SocketAddr → List UInt8
  | .v4 ip port => 4 :: (toBE 4 ip.toNat ++ toBE 2 port.toNat)
  | .v6 ip port _ _ => 6 :: (toBE 16 ip.toNat ++ toBE 2 port.toNat)

namespace WireFrame

def frameType : WireFrame → FrameType
  | data _ => .data
  | hello _ => .hello
  | start _ _ => .start
  | ack => .ack
  | bye => .bye

/-- The bytes after the head. -/
def body : WireFrame → List UInt8
  | data payload => payload
  | hello addr => addr.encode
  | start addr id => addr.encode ++ toBE 16 id.asU128
  | ack => []
  | bye => []

/-- The encoding of a frame: its head, with the length of its body, and its body. -/
def encode (f : WireFrame) : List UInt8 := (FrameHead.mk f.frameType f.body.length).encode ++ f.body

end WireFrame

/-! ## Decoding from leases -/

/-- `FrameHead::decode_from`. -/
def FrameHead.decodeFrom (m : Mem) (src : ChunkLease) : Panics (Except FramingError FrameHead) :=
  if src.remaining < frameHeadLen then .ok (.error .noData)
  else do
    let (magicCheck, src) ← src.getUint m 4
    if magicCheck ≠ magicNum then
      let chunk ← src.chunk
      return .error (.invalidMagicNum magicCheck (chunk.bytes m))
    let (contentLength, src) ← src.getUint m 4
    let (byte, _) ← src.getUint m 1
    return .ok ⟨.ofByte (.ofNat byte), contentLength⟩

/-- The address at the start of `Hello` and `Start` bodies. -/
def decodeAddrFrom (m : Mem) (src : ChunkLease) : Panics (SocketAddr × ChunkLease) := do
  let (version, src) ← src.getUint m 1
  if version = 4 then
    let (ip, src) ← src.getUint m 4
    let (port, src) ← src.getUint m 2
    return (.new (.v4 (.ofNat 32 ip)) (.ofNat 16 port), src)
  else if version = 6 then
    let (ip, src) ← src.getUint m 16
    let (port, src) ← src.getUint m 2
    return (.new (.v6 (.ofNat 128 ip)) (.ofNat 16 port), src)
  else throw "Faulty Hello Message!"

/-- `Hello::decode_from`. -/
def decodeHelloFrom (m : Mem) (src : ChunkLease) : Panics (Except FramingError Frame) := do
  let (addr, _) ← decodeAddrFrom m src
  return .ok (.hello addr)

/-- `Start::decode_from`. -/
def decodeStartFrom (m : Mem) (src : ChunkLease) : Panics (Except FramingError Frame) := do
  let (addr, src) ← decodeAddrFrom m src
  let (id, _) ← src.getUint m 16
  return .ok (.start addr (.fromU128 id))

/-- What a decoded frame says. -/
def Frame.view (m : Mem) : Frame → WireFrame
  | .data payload => .data (payload.unread m)
  | .hello addr => .hello addr
  | .start addr id => .start addr id
  | .ack => .ack
  | .bye => .bye

/-! ## The format on byte strings -/

/-- An address at the start of a byte string, and the bytes after it. -/
def decodeAddr (bs : List UInt8) : Option (SocketAddr × List UInt8) :=
  match bs with
  | 4 :: bs =>
    if 6 ≤ bs.length then
      some (.new (.v4 (.ofNat 32 (ofBE (bs.take 4)))) (.ofNat 16 (ofBE ((bs.drop 4).take 2))), bs.drop 6)
    else none
  | 6 :: bs =>
    if 18 ≤ bs.length then
      some (.new (.v6 (.ofNat 128 (ofBE (bs.take 16)))) (.ofNat 16 (ofBE ((bs.drop 16).take 2))), bs.drop 18)
    else none
  | _ => none

/-- The body of a frame with a non-empty one. -/
def decodeContent (t : FrameType) (bs : List UInt8) : Option WireFrame :=
  match t with
  | .data => if bs = [] then none else some (.data bs)
  | .hello => (decodeAddr bs).map fun (addr, _) => .hello addr
  | .start =>
    match decodeAddr bs with
    | some (addr, bs) =>
      if 16 ≤ bs.length then some (.start addr (.fromU128 (ofBE (bs.take 16)))) else none
    | none => none
  | _ => none

/-- The frames of the wire protocol, on byte strings. -/
def frameFormat : FrameFormat UInt8 FrameHead WireFrame Unit where
  headLen := frameHeadLen
  decodeHead bs :=
    if ofBE (bs.take 4) = magicNum then
      .ok ⟨.ofByte (.ofNat (ofBE ((bs.drop 8).take 1))), ofBE ((bs.drop 4).take 4)⟩
    else .error ()
  bodyLen := FrameHead.contentLength
  decodeBody h bs :=
    match h.frameType with
    | .ack => (.ok .ack, bs)
    | .bye => (.ok .bye, bs)
    | t =>
      match decodeContent t (bs.take h.contentLength) with
      | some f => (.ok f, bs.drop h.contentLength)
      | none => (.error (), bs.drop h.contentLength)

/-- The frames the format can carry: payloads are not empty and their length
fits in 32 bits, addresses have no flow label and no scope. -/
def WireFrame.Fits : WireFrame → Prop
  | .data payload => payload ≠ [] ∧ payload.length < 2 ^ 32
  | .hello addr => addr.Plain
  | .start addr _ => addr.Plain
  | .ack => True
  | .bye => True

instance (f : WireFrame) : Decidable f.Fits := by
  cases f <;> unfold WireFrame.Fits <;> infer_instance

theorem length_encode_head (h : FrameHead) : h.encode.length = frameHeadLen := by
  simp [FrameHead.encode, frameHeadLen]

/-- The parts of a byte string made of two fields and a rest. -/
theorem take_drop_fields (x y rest : List UInt8) :
    (x ++ (y ++ rest)).take x.length = x ∧ ((x ++ (y ++ rest)).drop x.length).take y.length = y ∧
      (x ++ (y ++ rest)).drop (x.length + y.length) = rest := by
  refine ⟨List.take_left' rfl, ?_, ?_⟩
  · rw [List.drop_left' rfl, List.take_left' rfl]
  · rw [← List.append_assoc]
    exact List.drop_left' (List.length_append ..)

theorem decodeAddr_encode {a : SocketAddr} (h : a.Plain) (rest : List UInt8) :
    decodeAddr (a.encode ++ rest) = some (a, rest) := by
  cases a with
  | v4 ip port =>
    obtain ⟨h1, h2, h3⟩ := take_drop_fields (toBE 4 ip.toNat) (toBE 2 port.toNat) rest
    simp only [length_toBE] at h1 h2 h3
    simp only [decodeAddr, SocketAddr.encode, List.cons_append, List.append_assoc, h1, h2, h3]
    rw [if_pos (by simp only [List.length_append, length_toBE]; omega), bitVec_ofBE_toBE ip rfl,
      bitVec_ofBE_toBE port rfl]
    rfl
  | v6 ip port flowinfo scopeId =>
    obtain ⟨h1, h2, h3⟩ := take_drop_fields (toBE 16 ip.toNat) (toBE 2 port.toNat) rest
    simp only [length_toBE] at h1 h2 h3
    simp only [decodeAddr, SocketAddr.encode, List.cons_append, List.append_assoc, h1, h2, h3]
    rw [if_pos (by simp only [List.length_append, length_toBE]; omega), bitVec_ofBE_toBE ip rfl,
      bitVec_ofBE_toBE port rfl]
    exact congrArg (fun a => some (a, rest)) h

theorem SessionId.fromU128_ofBE (id : SessionId) : SessionId.fromU128 (ofBE (toBE 16 id.asU128)) = id :=
  congrArg SessionId.mk (bitVec_ofBE_toBE id.uuid rfl)

theorem length_body_lt {f : WireFrame} (h : f.Fits) : f.body.length < 2 ^ 32 := by
  cases f with
  | data payload => exact h.2
  | hello addr => cases addr <;> simp [WireFrame.body, SocketAddr.encode]
  | start addr id => cases addr <;> simp [WireFrame.body, SocketAddr.encode]
  | ack => decide
  | bye => decide

/-- Of a length that does not fit only the last 32 bits are read. -/
theorem decodeHead_encode_mod (t : FrameType) (n : Nat) :
    frameFormat.decodeHead (FrameHead.mk t n).encode = .ok ⟨t, n % 2 ^ 32⟩ := by
  obtain ⟨h1, h2, h3⟩ := take_drop_fields (toBE 4 magicNum) (toBE 4 n) [t.toByte]
  simp only [length_toBE] at h1 h2 h3
  have hn : ofBE (toBE 4 n) = n % 2 ^ 32 := ofBE_toBE 4 n
  have ht : ofBE [t.toByte] = t.toByte.toNat := by simp [ofBE]
  simp only [frameFormat, FrameHead.encode, List.append_assoc, h1, h2, h3, hn]
  rw [if_pos (by decide)]
  simp [ht, FrameType.ofByte_toByte]

theorem decodeHead_encode {t : FrameType} {n : Nat} (h : n < 2 ^ 32) :
    frameFormat.decodeHead (FrameHead.mk t n).encode = .ok ⟨t, n⟩ := by
  rw [decodeHead_encode_mod, Nat.mod_eq_of_lt h]

theorem decodeContent_body {f : WireFrame} (h : f.Fits) :
    match f with
    | .ack => True
    | .bye => True
    | f => decodeContent f.frameType f.body = some f := by
  cases f with
  | data payload => simp [decodeContent, WireFrame.frameType, WireFrame.body, h.1]
  | hello addr =>
    have := decodeAddr_encode h []
    rw [List.append_nil] at this
    simp [decodeContent, WireFrame.frameType, WireFrame.body, this]
  | start addr id =>
    have ht : (toBE 16 id.asU128).take 16 = toBE 16 id.asU128 := List.take_of_length_le (by simp)
    simp only [decodeContent, WireFrame.frameType, WireFrame.body, decodeAddr_encode h, length_toBE,
      Nat.le_refl, ite_true, ht, SessionId.fromU128_ofBE]
  | ack => trivial
  | bye => trivial

/-- A frame that fits the format is encoded in it. -/
theorem encodes {f : WireFrame} (h : f.Fits) : frameFormat.Encodes f f.encode := by
  refine ⟨⟨f.frameType, f.body.length⟩, _, f.body, rfl, length_encode_head _,
    decodeHead_encode (length_body_lt h), rfl, fun rest => ?_⟩
  have hc := decodeContent_body h
  cases f with
  | ack => rfl
  | bye => rfl
  | data payload => simp_all [frameFormat, WireFrame.frameType]
  | hello addr => simp_all [frameFormat, WireFrame.frameType]
  | start addr id => simp_all [frameFormat, WireFrame.frameType]

/-! ## The decoders read this format -/

/-- Reading a big-endian number and going on with the bytes after it. -/
theorem getUint_bind {α : Type} (m : Mem) {w : Nat} {l : ChunkLease} (h : l.WF) (hn : w ≤ (l.unread m).length)
    (k : Nat × ChunkLease → Panics α) :
    (l.getUint m w >>= k) = k (ofBE ((l.unread m).take w), l.advance w) := by
  rw [ChunkLease.getUint_spec m h hn]; rfl

theorem decodeFrom_spec (m : Mem) {l : ChunkLease} (h : l.WF) {fh : FrameHead}
    (hl : (l.unread m).length = frameHeadLen) (hd : frameFormat.decodeHead (l.unread m) = .ok fh) :
    FrameHead.decodeFrom m l = .ok (.ok fh) := by
  have hlen : (l.unread m).length = 9 := hl
  simp only [frameFormat] at hd
  split at hd
  · rename_i hmagic
    have h4 : ((l.advance 4).unread m).length = 5 := by rw [ChunkLease.unread_advance, List.length_drop, hlen]
    have h8 : (((l.advance 4).advance 4).unread m).length = 1 := by
      rw [ChunkLease.unread_advance, List.length_drop, h4]
    have hr : ¬ l.remaining < frameHeadLen := by rw [← h.length_unread m, hl]; exact Nat.lt_irrefl _
    rw [FrameHead.decodeFrom, if_neg hr, getUint_bind m h (by omega)]
    simp only [hmagic, ne_eq, not_true_eq_false, ite_false]
    rw [getUint_bind m (h.advance 4) (by omega), getUint_bind m ((h.advance 4).advance 4) (by omega)]
    simp only [ChunkLease.unread_advance, List.drop_drop]
    rw [← Except.ok.inj hd]; rfl
  · cases hd

theorem decodeAddrFrom_spec (m : Mem) {l : ChunkLease} (h : l.WF) {a : SocketAddr} {rest : List UInt8}
    (hd : decodeAddr (l.unread m) = some (a, rest)) :
    ∃ k, decodeAddrFrom m l = .ok (a, l.advance k) ∧ (l.advance k).unread m = rest := by
  unfold decodeAddr at hd
  split at hd
  · rename_i bs hbs
    split at hd
    · rename_i hl
      obtain ⟨rfl, rfl⟩ := Prod.mk.inj (Option.some.inj hd)
      refine ⟨7, ?_, by rw [ChunkLease.unread_advance, hbs]; rfl⟩
      have h1 : (l.advance 1).unread m = bs := by rw [ChunkLease.unread_advance, hbs]; rfl
      have h5 : ((l.advance 1).advance 4).unread m = bs.drop 4 := by rw [ChunkLease.unread_advance, h1]
      rw [decodeAddrFrom, getUint_bind m h (by simp [hbs])]
      simp only [hbs, List.take_succ_cons, List.take_zero, show ofBE [4] = 4 from rfl, ite_true]
      rw [getUint_bind m (h.advance 1) (by rw [h1]; omega), h1,
        getUint_bind m ((h.advance 1).advance 4) (by rw [h5, List.length_drop]; omega), h5,
        ChunkLease.advance_advance, ChunkLease.advance_advance]
      rfl
    · cases hd
  · rename_i bs hbs
    split at hd
    · rename_i hl
      obtain ⟨rfl, rfl⟩ := Prod.mk.inj (Option.some.inj hd)
      refine ⟨19, ?_, by rw [ChunkLease.unread_advance, hbs]; rfl⟩
      have h1 : (l.advance 1).unread m = bs := by rw [ChunkLease.unread_advance, hbs]; rfl
      have h17 : ((l.advance 1).advance 16).unread m = bs.drop 16 := by rw [ChunkLease.unread_advance, h1]
      rw [decodeAddrFrom, getUint_bind m h (by simp [hbs])]
      simp only [hbs, List.take_succ_cons, List.take_zero, show ofBE [6] = 6 from rfl, ite_true,
        show ¬ (6 = 4) by decide, ite_false]
      rw [getUint_bind m (h.advance 1) (by rw [h1]; omega), h1,
        getUint_bind m ((h.advance 1).advance 16) (by rw [h17, List.length_drop]; omega), h17,
        ChunkLease.advance_advance, ChunkLease.advance_advance]
      rfl
    · cases hd
  · cases hd

theorem decodeHelloFrom_spec (m : Mem) {l : ChunkLease} (h : l.WF) {f : WireFrame}
    (hd : decodeContent .hello (l.unread m) = some f) :
    ∃ g, decodeHelloFrom m l = .ok (.ok g) ∧ ∀ m', g.view m' = f := by
  simp only [decodeContent, Option.map_eq_some_iff] at hd
  obtain ⟨⟨a, rest⟩, ha, rfl⟩ := hd
  obtain ⟨k, hk, -⟩ := decodeAddrFrom_spec m h ha
  exact ⟨.hello a, by rw [decodeHelloFrom, hk]; rfl, fun _ => rfl⟩

theorem decodeStartFrom_spec (m : Mem) {l : ChunkLease} (h : l.WF) {f : WireFrame}
    (hd : decodeContent .start (l.unread m) = some f) :
    ∃ g, decodeStartFrom m l = .ok (.ok g) ∧ ∀ m', g.view m' = f := by
  simp only [decodeContent] at hd
  split at hd
  · rename_i a rest ha
    split at hd
    · rename_i hl
      obtain ⟨k, hk, hrest⟩ := decodeAddrFrom_spec m h ha
      refine ⟨.start a (.fromU128 (ofBE (rest.take 16))), ?_, fun _ => Option.some.inj hd⟩
      rw [decodeStartFrom, hk, ← hrest]
      exact getUint_bind m (h.advance k) (by rw [hrest]; exact hl) _
    · cases hd
  · cases hd

end Kompact
