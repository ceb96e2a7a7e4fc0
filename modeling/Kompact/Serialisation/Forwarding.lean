import Kompact.Serialisation.Deserialise

/-!
# Forwarding a message

A message that arrived in a lease, a reference or a byte string is embedded
into an encode buffer and sent on. `forwards_iff` says when the frame that is
sent carries the message as it is, with the payload that was not read yet.

References are chained behind the header as a whole, with what was read of
them: the read pointer of a tail does not count. So a message that is read
from a reference is not forwarded as it is (its paths are sent again as part
of the payload), nor is one of whose reference some bytes were read since.
-/

namespace Kompact

/-- What a message arrives in. -/
inductive Carrier where
  | lease (l : ChunkLease)
  | ref (r : ChunkRef)
  | bytes (bs : List UInt8)

namespace Carrier

/-- The bytes of the message. -/
def unread (m : Mem) : Carrier → List UInt8
  | lease l => l.unread m
  | ref r => r.unread m
  | bytes bs => bs

def WF : Carrier → Prop
  | lease l => l.WF ∧ l.readPointer ≤ l.capacity
  | ref r => r.lease.WF ∧ r.readPointer ≤ r.capacity
  | bytes _ => True

def deserialise (debug : Bool) (m : Mem) : Carrier → Panics (Except SerError NetMessage)
  | lease l => deserialiseChunkLease debug m l
  | ref r => deserialiseChunkRef debug m r
  | bytes bs => deserialiseBytes debug bs

/-- The payload is sent from its start: it is a byte string, or comes from a
lease and nothing of it was read. -/
def Whole (k : Nat) : Carrier → Prop
  | lease _ => k = 0
  | ref _ => False
  | bytes _ => True

end Carrier

namespace HeapOrSer

/-- The payload bytes not read yet. -/
def unread (m : Mem) : HeapOrSer → List UInt8
  | boxed msg => msg.payload
  | serialised bytes => bytes
  | chunkLease lease => lease.unread m
  | chunkRef ref => ref.unread m

/-- Some bytes of the payload are read. -/
def advance (k : Nat) : HeapOrSer → HeapOrSer
  | boxed msg => boxed msg
  | serialised bytes => serialised (bytes.drop k)
  | chunkLease lease => chunkLease (lease.advance k)
  | chunkRef ref => chunkRef (ref.advance k)

/-- The lease or reference, if it is one, is live. -/
def Live (leases : List ChunkLease) : HeapOrSer → Prop
  | boxed _ => True
  | serialised _ => True
  | chunkLease lease => lease ∈ leases
  | chunkRef ref => ref.lease ∈ leases

end HeapOrSer

/-- The message after `k` more bytes of its payload were read. -/
def NetMessage.readMore (msg : NetMessage) (k : Nat) : NetMessage :=
  { msg with data := { msg.data with data := msg.data.data.advance k } }

/-- The frame announces its content, and the content is read as the message with
the given payload. -/
def Forwards (debug : Bool) (msg : NetMessage) (payload frame : List UInt8) : Prop :=
  frameFormat.decodeHead (frame.take frameHeadLen) = .ok ⟨.data, (frame.drop frameHeadLen).length⟩ ∧
    deserialiseBytes debug (frame.drop frameHeadLen) =
      .ok (.ok ⟨msg.sender, msg.receiver, msg.data.serId, .serialised payload⟩)

/-! ## What a message that was read is made of -/

/-- The envelope that was read has an encoding, and is read again from it. -/
theorem readEnvelope_encoded {debug : Bool} {bs payload : List UInt8} {env : Envelope}
    (h : readEnvelope debug Buf.bytes bs = .ok (.ok (env, payload))) :
    ∃ enc, 0 < enc.length ∧ enc.length ≤ bs.length ∧ payload = bs.drop enc.length ∧
      ∀ x, contentOf env.src env.dst env.serId x = some (enc ++ x) ∧
        readEnvelope debug Buf.bytes (enc ++ x) = .ok (.ok (env, x)) := by
  unfold readEnvelope at h
  cases h₁ : readActorPath debug Buf.bytes bs with
  | error e => rw [h₁] at h; cases h
  | ok r =>
    rw [h₁] at h
    cases r with
    | error e => cases h
    | ok x =>
      obtain ⟨src, bs₁⟩ := x
      simp only [bind, Except.bind] at h
      cases h₂ : readActorPath debug Buf.bytes bs₁ with
      | error e => rw [h₂] at h; cases h
      | ok r =>
        rw [h₂] at h
        cases r with
        | error e => cases h
        | ok x =>
          obtain ⟨dst, bs₂⟩ := x
          simp only [show Buf.bytes.getUint bs₂ 8 = ByteBuf.getUint bs₂ 8 from rfl, getUint_bytes] at h
          by_cases h8 : bs₂.length < 8
          · rw [if_pos h8] at h; cases h
          rw [if_neg h8] at h
          obtain ⟨rfl, rfl⟩ := Prod.mk.inj (Except.ok.inj (Except.ok.inj h))
          obtain ⟨s, hs, hs0, hsle, rfl, hsread⟩ := readActorPath_encoded h₁
          obtain ⟨d, hd, -, hdle, rfl, hdread⟩ := readActorPath_encoded h₂
          rw [List.length_drop] at hdle
          rw [List.length_drop, List.length_drop] at h8
          generalize hid : BitVec.ofNat 64 (ofBE _) = serId
          refine ⟨s ++ d ++ toBE 8 serId.toNat, ?_, ?_, ?_, fun x => ⟨?_, ?_⟩⟩
          · rw [List.length_append, List.length_append]; omega
          · rw [List.length_append, List.length_append, length_toBE]; omega
          · rw [List.length_append, List.length_append, length_toBE, List.drop_drop, List.drop_drop]
          · rw [contentOf, hs, hd]
            rfl
          · have hlt : serId.toNat < 256 ^ 8 := serId.isLt
            unfold readEnvelope
            rw [List.append_assoc, List.append_assoc, hsread]
            simp only [bind, Except.bind, hdread, show Buf.bytes.getUint = ByteBuf.getUint from rfl,
              ByteBuf.getUint_toBE hlt, BitVec.ofNat_toNat, BitVec.setWidth_eq]
            rfl

/-- How the payload is held by a message that came in the carrier. -/
def Carrier.Holds (m : Mem) (payload : List UInt8) : Carrier → HeapOrSer → Prop
  | lease _, data => ∃ ref, data = .chunkRef ref ∧ ref.lease.WF ∧ ref.readPointer = 0 ∧ ref.bytes m = payload
  | ref r, data => ∃ k ≤ (r.unread m).length, data = .chunkRef (r.advance k) ∧ payload = (r.unread m).drop k
  | bytes _, data => data = .serialised payload

/-- What was read from a carrier: an envelope, and the rest as the payload. -/
theorem Carrier.deserialise_spec {debug : Bool} {m : Mem} {c : Carrier} {msg : NetMessage} (hc : c.WF)
    (h : c.deserialise debug m = .ok (.ok msg)) :
    ∃ env payload, readEnvelope debug Buf.bytes (c.unread m) = .ok (.ok (env, payload)) ∧
      msg = env.withData msg.data.data ∧
      c.Holds m payload msg.data.data := by
  cases c with
  | lease l =>
    have hrel := deserialiseChunkLease_at debug m hc.1 hc.2
    rw [show deserialiseChunkLease debug m l = .ok (.ok msg) from h] at hrel
    obtain ⟨r, hr, hrel'⟩ := hrel.of_ok
    obtain ⟨⟨env, payload⟩, rfl, ref, rfl, hwf, h0, hbytes, -⟩ := hrel'.of_ok
    exact ⟨env, payload, hr, rfl, ref, rfl, hwf, h0, hbytes⟩
  | ref r =>
    simp only [deserialise, deserialiseChunkRef] at h
    have hrel := readEnvelope_at debug (shows_refBuf m) hc
    cases hx : readEnvelope debug (refBuf m) r with
    | error e => rw [hx] at h; cases h
    | ok r =>
      rw [hx] at h hrel
      cases r with
      | error e => cases h
      | ok x =>
        obtain ⟨env, l'⟩ := x
        obtain ⟨r', hr', hrel'⟩ := hrel.of_ok
        obtain ⟨⟨env', payload⟩, rfl, rfl, k, hk, rfl, hpay⟩ := hrel'.of_ok
        obtain rfl := Except.ok.inj (Except.ok.inj h)
        exact ⟨env, payload, hr', rfl, k, hk, rfl, hpay⟩
  | bytes bs =>
    simp only [deserialise, deserialiseBytes] at h
    cases hx : readEnvelope debug Buf.bytes bs with
    | error e => rw [hx] at h; cases h
    | ok r =>
      rw [hx] at h
      cases r with
      | error e => cases h
      | ok x =>
        obtain ⟨env, payload⟩ := x
        obtain rfl := Except.ok.inj (Except.ok.inj h)
        exact ⟨env, payload, hx, rfl, rfl⟩

/-! ## Forwarding -/

theorem deserialiseBytes_of_read {debug : Bool} {bs payload : List UInt8} {env : Envelope}
    (h : readEnvelope debug Buf.bytes bs = .ok (.ok (env, payload))) :
    deserialiseBytes debug bs = .ok (.ok (env.withData (.serialised payload))) := by
  rw [deserialiseBytes, h]
  rfl

/-- The payload a message is sent with, against the one it should be sent with:
all bytes of a reference, and those not read of it. -/
theorem Carrier.Holds.sent {m : Mem} {c : Carrier} {payload : List UInt8} {data : HeapOrSer} {k : Nat}
    (h : c.Holds m payload data) (hc : c.WF) (hk : k ≤ payload.length) (h0 : (c.unread m).length ≠ payload.length) :
    data.unread m = payload ∧ (data.advance k).unread m = payload.drop k ∧
      ((data.advance k).sent m = (data.advance k).unread m ↔ c.Whole k) ∧
      (∀ leases, (data.advance k).Live leases → (data.advance k).Embeddable leases) := by
  cases c with
  | lease l =>
    obtain ⟨ref, rfl, hwf, hr, rfl⟩ := h
    have hun : ref.unread m = ref.bytes m := by
      rw [ChunkRef.unread, ChunkLease.unread, show ref.lease.readPointer = 0 from hr, List.drop_zero]
      rfl
    have hadv : (ref.advance k).unread m = (ref.bytes m).drop k := by
      rw [← hun]
      exact ChunkLease.unread_advance m ref.lease k
    have hsent : (ref.advance k).bytes m = ref.bytes m := ChunkLease.bytes_advance ..
    refine ⟨hun, hadv, ?_, fun leases hl => ⟨hl, hwf.advance k⟩⟩
    show (ref.advance k).bytes m = (ref.advance k).unread m ↔ k = 0
    rw [hadv, hsent]
    constructor
    · intro he
      have := congrArg List.length he
      rw [List.length_drop] at this
      omega
    · rintro rfl
      rfl
  | ref r =>
    obtain ⟨j, hj, rfl, rfl⟩ := h
    rw [show Carrier.unread m (.ref r) = r.unread m from rfl, List.length_drop] at h0
    rw [List.length_drop] at hk
    have hun : (r.advance j).unread m = (r.unread m).drop j := ChunkLease.unread_advance m r.lease j
    have hadv : ((r.advance j).advance k).unread m = ((r.unread m).drop j).drop k := by
      rw [← hun]
      exact ChunkLease.unread_advance m (r.lease.advance j) k
    have hsent : ((r.advance j).advance k).bytes m = r.bytes m := by
      show ChunkLease.bytes m ((r.lease.advance j).advance k) = _
      rw [ChunkLease.bytes_advance, ChunkLease.bytes_advance]
      rfl
    refine ⟨hun, hadv, iff_of_false (fun he => ?_) id, fun leases hl => ⟨hl, (hc.1.advance j).advance k⟩⟩
    have he' : r.bytes m = ((r.unread m).drop j).drop k := hsent.symm.trans (he.trans hadv)
    have hlen := congrArg List.length he'
    rw [List.length_drop, List.length_drop, ChunkRef.unread, ChunkLease.unread, List.length_drop] at hlen
    rw [ChunkRef.unread, ChunkLease.unread, List.length_drop] at h0 hj
    unfold ChunkRef.bytes at hlen
    omega
  | bytes bs =>
    obtain rfl := h
    exact ⟨rfl, rfl, iff_of_true rfl trivial, fun _ _ => trivial⟩

/-- A message is forwarded as it is if and only if its payload is sent from the
start. -/
theorem forwards_iff {e : EncodeBuffer} {leases : List ChunkLease} {m : Mem} {w : BufferEncoder} (he : e.Inv leases)
    (hroom : 128 ≤ e.bufferPool.chunkSize) (hw : e.getBufferEncoder m = .ok (.ok w)) {debug : Bool} {c : Carrier}
    (hc : c.WF) (hlen : (c.unread m).length < 2 ^ 32) {msg : NetMessage} (hmsg : c.deserialise debug m = .ok (.ok msg))
    {k : Nat} (hk : k ≤ (msg.data.data.unread m).length) (hlive : (msg.readMore k).data.data.Live leases)
    {r : ChunkRef} {w' : BufferEncoder} (hrun : embedMsg (msg.readMore k) w = .ok (.ok r, w')) :
    Forwards debug msg ((msg.readMore k).data.data.unread m) (r.unread w'.mem) ↔ c.Whole k := by
  -- the encoder
  have hal : EncodeBuffer.Inv { e with readOffset := e.writeOffset } leases :=
    ⟨Nat.le_refl _, he.bound, he.active, he.sound, fun l hl =>
      ⟨(he.held l hl).locked, (he.held l hl).below.mono he.offsets⟩⟩
  obtain ⟨hb, rfl⟩ := blank_of_getBufferEncoder hal rfl hroom (getBufferEncoder_aligned hw)
  -- the message
  obtain ⟨env, payload, hread, hmsg', hholds⟩ := Carrier.deserialise_spec hc hmsg
  obtain ⟨enc, henc0, hencle, hpay, henc⟩ := readEnvelope_encoded hread
  have hpaylen : payload.length = (c.unread w.mem).length - enc.length := by rw [hpay, List.length_drop]
  generalize hdata : msg.data.data = data at hmsg' hholds hk
  subst hmsg'
  have hne : (c.unread w.mem).length ≠ payload.length := by omega
  obtain ⟨hun, -⟩ := hholds.sent (k := 0) hc (Nat.zero_le _) hne
  rw [hun] at hk
  obtain ⟨-, hadv, hiff, hemb⟩ := hholds.sent hc hk hne
  -- the frame
  obtain ⟨r₁, w₁, hrun₁, hframe⟩ := @embedMsg_spec w leases hb ((env.withData data).readMore k) (hemb leases hlive)
  rw [hrun] at hrun₁
  obtain ⟨rfl, rfl⟩ := Prod.mk.inj (Except.ok.inj hrun₁)
  have hsent : (contentOf env.src env.dst env.serId ((data.advance k).sent w.mem)).map dataFrame =
    some (r.unread w'.mem) := hframe r rfl
  rw [(henc _).1, Option.map_some] at hsent
  rw [← Option.some.inj hsent]
  show Forwards debug _ ((data.advance k).unread w.mem) _ ↔ _
  rw [← hiff]
  have hdrop : (dataFrame (enc ++ (data.advance k).sent w.mem)).drop frameHeadLen =
      enc ++ (data.advance k).sent w.mem := by
    rw [dataFrame, List.drop_left' (length_encode_head _)]
  unfold Forwards
  rw [hdrop, deserialiseBytes_of_read (henc _).2]
  constructor
  · rintro ⟨-, hdec⟩
    have hmsg := Except.ok.inj (Except.ok.inj hdec)
    simp only [Envelope.withData, NetMessage.mk.injEq, NetData.mk.injEq, HeapOrSer.serialised.injEq, true_and] at hmsg
    exact hmsg
  · intro he
    refine ⟨(dataFrame_head ?_).1, by rw [he]; rfl⟩
    rw [he, hadv, List.length_append, List.length_drop]
    omega

/-- The content of a message of three bytes, as it arrives. -/
def arrived : List UInt8 :=
  (contentOf (.unique ⟨.tcp, .v4 1, 80⟩ 7) (.unique ⟨.tcp, .v4 2, 80⟩ 8) 42 [1, 2, 3]).getD []

/-- A message of three bytes, with the given data. -/
def arrivedMessage (data : HeapOrSer) : NetMessage :=
  ⟨.unique ⟨.tcp, .v4 1, 80⟩ 7, .unique ⟨.tcp, .v4 2, 80⟩ 8, 42, data⟩

/-- The payload that is read from what was sent. -/
def forwardedPayload (r : Panics (Encoded ChunkRef)) : Option (List UInt8) :=
  match r with
  | .ok (.ok ref, w) =>
    match deserialiseBytes false ((ref.unread w.mem).drop frameHeadLen) with
    | .ok (.ok msg) => some (msg.data.data.unread w.mem)
    | _ => none
  | _ => none

/-- A message that arrives as a byte string, of which one byte was read. -/
theorem forwards_iff_bytes :
    ∃ w r w', Encoding.small.encoder.encodeBuffer.getBufferEncoder (fun _ _ => 0) = .ok (.ok w) ∧
      deserialiseBytes false arrived = .ok (.ok (arrivedMessage (.serialised [1, 2, 3]))) ∧
      embedMsg ((arrivedMessage (.serialised [1, 2, 3])).readMore 1) w = .ok (.ok r, w') ∧
      Forwards false (arrivedMessage (.serialised [1, 2, 3])) [2, 3] (r.unread w'.mem) := by
  have hinv := @Encoding.inv_withConfig ⟨⟨0⟩, 128, 1, 2⟩ (fun _ _ => 0) .small rfl
  have hpay : forwardedPayload (embedMsg ((arrivedMessage (.serialised [1, 2, 3])).readMore 1)
      ⟨fun _ _ => 0, Encoding.small.encoder.encodeBuffer, none, none⟩) = some [2, 3] := by decide +kernel
  have hmsg : deserialiseBytes false arrived = .ok (.ok (arrivedMessage (.serialised [1, 2, 3]))) := rfl
  cases hrun : embedMsg ((arrivedMessage (.serialised [1, 2, 3])).readMore 1)
      ⟨fun _ _ => 0, Encoding.small.encoder.encodeBuffer, none, none⟩ with
  | error e => rw [hrun] at hpay; cases hpay
  | ok x =>
    obtain ⟨_ | r, w'⟩ := x
    · rw [hrun] at hpay; cases hpay
    · refine ⟨_, r, w', rfl, hmsg, hrun, ?_⟩
      exact (forwards_iff (c := .bytes arrived) hinv.encoder.buffer hinv.roomy rfl trivial (by decide +kernel) hmsg
        (by decide) trivial hrun).mpr trivial

/-- Memory that holds the message, outside of the pool. -/
def arrivedMem : Mem := Mem.write (fun _ _ => 0) 0 0 arrived

/-- A reference to the message. -/
def arrivedRef : ChunkRef := ⟨.new ⟨0, 0, 57⟩ 0⟩

/-- A message that is read from a reference is sent with its paths as part of
the payload. -/
theorem not_forwards_ref :
    ∃ msg w r w', arrivedRef.unread arrivedMem = arrived ∧
      deserialiseChunkRef false arrivedMem arrivedRef = .ok (.ok msg) ∧ msg.data.data.unread arrivedMem = [1, 2, 3] ∧
      Encoding.small.encoder.encodeBuffer.Inv [arrivedRef.lease.advance 54] ∧
      msg.data.data.Live [arrivedRef.lease.advance 54] ∧
      Encoding.small.encoder.encodeBuffer.getBufferEncoder arrivedMem = .ok (.ok w) ∧
      embedMsg msg w = .ok (.ok r, w') ∧ ¬ Forwards false msg [1, 2, 3] (r.unread w'.mem) := by
  have hinv : Encoding.small.encoder.encodeBuffer.Inv [arrivedRef.lease.advance 54] := by
    refine ⟨by decide, by decide, rfl, ⟨⟨by decide, by decide, by decide, by decide, by decide⟩, by decide⟩,
      fun l hl => ?_⟩
    rw [List.mem_singleton.mp hl]
    refine ⟨by decide, ?_⟩
    show ∀ s ∈ (arrivedRef.lease.advance 54).slices, s.chunk = _ → _
    decide
  have hmsg : deserialiseChunkRef false arrivedMem arrivedRef =
      .ok (.ok (arrivedMessage (.chunkRef (arrivedRef.advance 54)))) := rfl
  have hpay : forwardedPayload (embedMsg (arrivedMessage (.chunkRef (arrivedRef.advance 54)))
      ⟨arrivedMem, Encoding.small.encoder.encodeBuffer, none, none⟩) = some arrived := by decide +kernel
  cases hrun : embedMsg (arrivedMessage (.chunkRef (arrivedRef.advance 54)))
      ⟨arrivedMem, Encoding.small.encoder.encodeBuffer, none, none⟩ with
  | error e => rw [hrun] at hpay; cases hpay
  | ok x =>
    obtain ⟨_ | r, w'⟩ := x
    · rw [hrun] at hpay; cases hpay
    · refine ⟨_, _, r, w', by decide +kernel, hmsg, by decide +kernel, hinv, List.mem_singleton_self _, rfl, hrun,
        fun hf => ?_⟩
      rw [hrun, forwardedPayload, hf.2] at hpay
      have hsame : some [1, 2, 3] = some arrived := hpay
      exact absurd hsame (by decide +kernel)

end Kompact
