import Kompact.Messaging.Serialised
import Kompact.Serialisation.Forwarding

/-!
# Local and remote delivery

Data for the dispatcher is delivered to a component of the same system as a
`NetMessage` (`intoLocal`), or serialised into a frame and decoded by another
system (`intoSerialised`). `agrees_iff` says for which data both have the same
sender, receiver and serialisation id, and the same value.

What differs is what happens to the paths. A message that is not serialised
keeps its own locally, while a peer gets those that it reads: none with an IPv6
address, and no name that is split into other segments than it has. And a peer
is told the length of a content only up to `2³²`.
-/

namespace Kompact

namespace Messaging

/-- Data sent to the dispatcher, with all that is in it. -/
inductive DispatchData where
  /-- Must still be serialised: message, source, destination. -/
  | lazy (ser : Message) (src dst : ActorPath)
  | serialised (frame : SerialisedFrame)
  /-- Used in message forwarding. -/
  | netMessage (msg : NetMessage)

namespace DispatchData

/-- `expect` on a message that was read. -/
def expectRead (r : Panics (Except SerError NetMessage)) : Panics (Except SerError NetMessage) := do
  match ← r with
  | .ok msg => return .ok msg
  | .error _ => throw "s11n errors"

/-- The message for local delivery. A frame is read behind its head. -/
def intoLocal (debug : Bool) (m : Mem) : DispatchData → Panics (Except SerError NetMessage)
  | lazy ser src dst => .ok (.ok ⟨src, dst, ser.serId, .boxed ser⟩)
  | serialised (.chunkLease lease) => expectRead (deserialiseChunkLease debug m (lease.advance frameHeadLen))
  | serialised (.chunkRef ref) => expectRead (deserialiseChunkRef debug m (ref.advance frameHeadLen))
  | serialised (.bytes bytes) =>
    if bytes.length < frameHeadLen then .error "advance out of bounds"
    else expectRead (deserialiseBytes debug (bytes.drop frameHeadLen))
  | netMessage msg => .ok (.ok msg)

/-- The frame for remote delivery. -/
def intoSerialised (d : DispatchData) (buf : BufferEncoder) : Panics (Encoded SerialisedFrame) :=
  match d with
  | lazy ser src dst => tryThen (serialiseMsg src dst ser buf) fun lease buf => return (.ok (.chunkLease lease), buf)
  | serialised frame => return (.ok frame, buf)
  | netMessage msg => tryThen (embedMsg msg buf) fun ref buf => return (.ok (.chunkRef ref), buf)

end DispatchData

end Messaging

/-! ## Unpacking -/

/-- Why the data of a message is not unpacked. -/
inductive UnpackError where
  /-- The value on the heap is of another type. -/
  | noCast
  | deserError (e : SerError)
  deriving DecidableEq, Repr

/-- A deserialiser reads from any buffer. -/
def Deserialiser (T : Type) : Type 1 := (β : Type) → Buf β → β → Panics (Except SerError T)

/-- Errors of a deserialiser, as those of unpacking. -/
def deserialised {T : Type} (r : Panics (Except SerError T)) : Panics (Except UnpackError T) :=
  r.map fun r => r.mapError .deserError

/-- `try_deserialise_unchecked`. `unbox` is what `local` returns, if it does not fail, cast to the
type if it is of it. -/
def NetData.tryDeserialiseUnchecked {T : Type} (unbox : Message → Option (Option T)) (D : Deserialiser T) (m : Mem)
    (data : NetData) : Panics (Except UnpackError T) :=
  match data.data with
  | .boxed msg =>
    match unbox msg with
    | none => .ok (.error (.deserError (.unknown
        s!"Serialisable with id={data.serId.toNat} can't be converted to local!")))
    | some none => .ok (.error .noCast)
    | some (some value) => .ok (.ok value)
  | .serialised bytes => deserialised (D _ Buf.bytes bytes)
  | .chunkLease lease => deserialised (D _ (leaseBuf m) lease)
  | .chunkRef ref => deserialised (D _ (refBuf m) ref)

/-- From any buffer that shows the payload the deserialiser reads the value. -/
def Deserialiser.Undoes {T : Type} (D : Deserialiser T) (payload : List UInt8) (value : T) : Prop :=
  ∀ (β : Type) (B : Buf β) (view : β → List UInt8) (ok : β → Prop) (b : β), B.Shows view ok → ok b →
    view b = payload → D β B b = .ok (.ok value)

/-! ## Agreement -/

/-- The frame, as what a message arrives in. -/
def SerialisedFrame.carrier : SerialisedFrame → Carrier
  | bytes bs => .bytes bs
  | chunkLease lease => .lease lease
  | chunkRef ref => .ref ref

namespace ActorPath

/-- A path is read with the segments that its name is split into. -/
def asRead : ActorPath → ActorPath
  | unique system id => .unique system id
  | named system path => .named system ((joinPath path).splitOn slash)

/-- A path can be read: its address is an IPv4 one, and with debug assertions its name can be
looked up. -/
def Legible (debug : Bool) : ActorPath → Prop
  | unique system _ => system.address.isV4 = true
  | named system path => system.address.isV4 = true ∧ (debug = true → LookupPath ((joinPath path).splitOn slash))

/-- A path is read as itself: also, a name has segments, and none has a slash. -/
def Returns (debug : Bool) : ActorPath → Prop
  | unique system _ => system.address.isV4 = true
  | named system path => system.address.isV4 = true ∧ path ≠ [] ∧ (∀ segment ∈ path, slash ∉ segment) ∧
      (debug = true → LookupPath path)

end ActorPath

namespace Messaging.DispatchData

/-- The paths a peer reads are those of the message that is delivered locally. -/
def Keeps (debug : Bool) (src dst : ActorPath) : DispatchData → Prop
  | serialised _ => src.Legible debug ∧ dst.Legible debug
  | _ => src.Returns debug ∧ dst.Returns debug

/-- The data is the message, from `src` to `dst`: still to be serialised, or boxed in a network
message, or a frame with its bytes. -/
def Carries (m : Mem) (src dst : ActorPath) (serId : BitVec 64) (msg : Message) : DispatchData → Prop
  | lazy ser s d => ser = msg ∧ s = src ∧ d = dst ∧ serId = msg.serId
  | serialised frame => frame.carrier.WF ∧ frameOf src dst serId msg.payload = some (frame.unread m)
  | netMessage n => n = ⟨src, dst, serId, .boxed msg⟩

/-- Local delivery returns a message, and every peer that holds the content the head of the frame
announces reads one with the same envelope and the same value. -/
def Agrees {T : Type} (debug : Bool) (unbox : Message → Option (Option T)) (D : Deserialiser T) (m : Mem)
    (d : DispatchData) (frame : List UInt8) : Prop :=
  ∃ near value len, d.intoLocal debug m = .ok (.ok near) ∧
    near.data.tryDeserialiseUnchecked unbox D m = .ok (.ok value) ∧
    frameFormat.decodeHead (frame.take frameHeadLen) = .ok ⟨.data, len⟩ ∧
    ∀ (m' : Mem) (c : Carrier), c.WF → c.unread m' = (frame.drop frameHeadLen).take len →
      ∃ far, c.deserialise debug m' = .ok (.ok far) ∧ far.sender = near.sender ∧ far.receiver = near.receiver ∧
        far.data.serId = near.data.serId ∧ far.data.tryDeserialiseUnchecked unbox D m' = .ok (.ok value)

end Messaging.DispatchData

/-! ## The paths of a frame -/

namespace ActorPath

variable {path : ActorPath} {enc : List UInt8}

/-- The encoding of a path, if it has one. -/
theorem encoded_inv (h : path.encoded = some enc) :
    enc = path.header :: (systemPathBytes path.system ++ path.tailBytes) ∧
      ∀ system segments, path = .named system segments → (joinPath segments).length ≤ 65535 := by
  rw [encoded_eq] at h
  cases path with
  | unique system id =>
    refine ⟨?_, fun _ _ hp => by cases hp⟩
    rw [← Option.some.inj h]
    simp [tailBytes, systemPathBytes]
  | named system segments =>
    by_cases hlen : (joinPath segments).length < 2 ^ 16
    · simp only [encodedTail, if_pos hlen, bothBytes_some] at h
      refine ⟨?_, fun _ _ hp => ?_⟩
      · rw [← Option.some.inj h]
        simp [tailBytes, systemPathBytes, List.append_assoc]
      · obtain ⟨-, rfl⟩ := ActorPath.named.inj hp
        omega
    · simp only [encodedTail, if_neg hlen] at h
      cases h

/-- What is read of an encoding, with anything behind it. -/
theorem deserialise_encoded_append (h : path.encoded = some enc) (rest : List UInt8) :
    ActorPath.deserialise (enc ++ rest) = if path.system.address.isV4 = true then .ok (.ok (path.asRead, rest))
      else .ok (.error (.invalidData "System Path Transport could not be read.")) := by
  obtain ⟨rfl, hlen⟩ := encoded_inv h
  rw [List.cons_append, List.append_assoc]
  rcases path with ⟨⟨tr, ip | ip, port⟩, id⟩ | ⟨⟨tr, ip | ip, port⟩, segments⟩
  · exact deserialise_unique tr ip port id rest
  · simp only [ActorPath.deserialise, header, ActorPath.system, AddressType.ofIp, systemPathFromBuf_v6]
    rfl
  · have hd := deserialise_named tr ip port (hlen _ _ rfl) rest
    simp only [header, ActorPath.system, pathType, tailBytes, AddressType.ofIp, List.append_assoc, hd]
    rfl
  · simp only [ActorPath.deserialise, header, ActorPath.system, AddressType.ofIp, systemPathFromBuf_v6]
    rfl

theorem checkPath_asRead (debug : Bool) (hv : path.system.address.isV4 = true) :
    (path.Legible debug ∧ checkPath debug path.asRead = .ok path.asRead) ∨
      (¬ path.Legible debug ∧ ∃ e, checkPath debug path.asRead = .error e) := by
  cases path with
  | unique system id => exact .inl ⟨hv, rfl⟩
  | named system segments =>
    by_cases hl : debug = true → LookupPath ((joinPath segments).splitOn slash)
    · refine .inl ⟨⟨hv, hl⟩, if_neg fun hn => ?_⟩
      exact hn.2 (hl hn.1)
    · refine .inr ⟨fun hn => hl hn.2, "Path contains illegal characters", if_pos ?_⟩
      exact Classical.not_imp.mp hl

/-- A path is read from its encoding if and only if it is legible. -/
theorem readActorPath_encoded_append (h : path.encoded = some enc) (debug : Bool) (rest : List UInt8) :
    (path.Legible debug ∧ readActorPath debug Buf.bytes (enc ++ rest) = .ok (.ok (path.asRead, rest))) ∨
      (¬ path.Legible debug ∧ ∀ x, readActorPath debug Buf.bytes (enc ++ rest) ≠ .ok (.ok x)) := by
  rw [readActorPath_bytes, deserialise_encoded_append h]
  by_cases hv : path.system.address.isV4 = true
  · rw [if_pos hv]
    rcases checkPath_asRead debug hv with ⟨hl, hc⟩ | ⟨hl, e, hc⟩
    · refine .inl ⟨hl, ?_⟩
      simp only [Except.bind, hc]
    · refine .inr ⟨hl, fun x hx => ?_⟩
      simp only [Except.bind, hc] at hx
      cases hx
  · rw [if_neg hv]
    refine .inr ⟨fun hl => hv ?_, fun x hx => by cases hx⟩
    cases path with
    | unique system id => exact hl
    | named system segments => exact hl.1

/-- A name is split into the segments it has. -/
theorem asRead_eq_iff (system : SystemPath) (segments : List Utf8) :
    (ActorPath.named system segments).asRead = .named system segments ↔
      segments ≠ [] ∧ ∀ segment ∈ segments, slash ∉ segment := by
  constructor
  · intro h
    have hsplit : (joinPath segments).splitOn slash = segments := (ActorPath.named.inj h).2
    have hno : ∀ segment ∈ segments, slash ∉ segment := hsplit ▸ slash_notMem_splitOn (joinPath segments)
    exact ⟨(splitOn_joinPath_iff hno).mp hsplit, hno⟩
  · rintro ⟨hne, hno⟩
    rw [asRead, (splitOn_joinPath_iff hno).mpr hne]

theorem returns_iff (debug : Bool) : path.Returns debug ↔ path.Legible debug ∧ path.asRead = path := by
  cases path with
  | unique system id => exact ⟨fun h => ⟨h, rfl⟩, fun h => h.1⟩
  | named system segments =>
    rw [asRead_eq_iff]
    constructor
    · rintro ⟨hv, hne, hno, hl⟩
      refine ⟨⟨hv, ?_⟩, hne, hno⟩
      rwa [(splitOn_joinPath_iff hno).mpr hne]
    · rintro ⟨⟨hv, hl⟩, hne, hno⟩
      rw [(splitOn_joinPath_iff hno).mpr hne] at hl
      exact ⟨hv, hne, hno, hl⟩

end ActorPath

variable {src dst : ActorPath} {serId : BitVec 64} {payload content : List UInt8} {debug : Bool}

/-- The envelope is read from a content if and only if both paths are legible. -/
theorem readEnvelope_content (h : contentOf src dst serId payload = some content) (debug : Bool)
    (x : Envelope × List UInt8) :
    readEnvelope debug Buf.bytes content = .ok (.ok x) ↔
      src.Legible debug ∧ dst.Legible debug ∧ x = (⟨src.asRead, dst.asRead, serId⟩, payload) := by
  unfold contentOf at h
  cases hs : src.encoded with
  | none => rw [hs] at h; cases h
  | some s =>
    cases hd : dst.encoded with
    | none => rw [hs, hd] at h; cases h
    | some d =>
      rw [hs, hd] at h
      have hcontent : s ++ d ++ toBE 8 serId.toNat ++ payload = content := Option.some.inj h
      rw [← hcontent, List.append_assoc, List.append_assoc]
      unfold readEnvelope
      rcases ActorPath.readActorPath_encoded_append hs debug (d ++ (toBE 8 serId.toNat ++ payload)) with
        ⟨hls, hrs⟩ | ⟨hls, hrs⟩
      swap
      · refine iff_of_false (fun hx => ?_) (fun hx => hls hx.1)
        obtain ⟨r, hr, hx⟩ := Panics.bind_eq_ok.mp hx
        cases r with
        | error e => cases hx
        | ok y => exact hrs y hr
      simp only [hrs, bind, Except.bind]
      rcases ActorPath.readActorPath_encoded_append hd debug (toBE 8 serId.toNat ++ payload) with
        ⟨hld, hrd⟩ | ⟨hld, hrd⟩
      swap
      · refine iff_of_false (fun hx => ?_) (fun hx => hld hx.2.1)
        obtain ⟨r, hr, hx⟩ := Panics.bind_eq_ok.mp hx
        cases r with
        | error e => cases hx
        | ok y => exact hrd y hr
      have hlt : serId.toNat < 256 ^ 8 := serId.isLt
      simp only [hrd, show Buf.bytes.getUint = ByteBuf.getUint from rfl, ByteBuf.getUint_toBE hlt,
        BitVec.ofNat_toNat, BitVec.setWidth_eq]
      constructor
      · intro hx
        exact ⟨hls, hld, (Except.ok.inj (Except.ok.inj hx)).symm⟩
      · rintro ⟨-, -, rfl⟩
        rfl

/-- The head of a frame announces the length of the content, as far as it fits. -/
theorem decodeHead_dataFrame (content : List UInt8) :
    frameFormat.decodeHead ((dataFrame content).take frameHeadLen) = .ok ⟨.data, content.length % 2 ^ 32⟩ ∧
      (dataFrame content).drop frameHeadLen = content := by
  rw [dataFrame, List.take_left' (length_encode_head _), List.drop_left' (length_encode_head _)]
  exact ⟨decodeHead_encode_mod .., rfl⟩

/-! ## Carriers -/

/-- A message is read from whatever shows its bytes. -/
theorem Carrier.deserialise_ok {m : Mem} {c : Carrier} {env : Envelope} (hc : c.WF)
    (h : readEnvelope debug Buf.bytes (c.unread m) = .ok (.ok (env, payload))) :
    ∃ data, c.deserialise debug m = .ok (.ok (env.withData data)) ∧ c.Holds m payload data := by
  cases c with
  | lease l =>
    have hrel := deserialiseChunkLease_at debug m hc.1 hc.2
    rw [show readEnvelope debug Buf.bytes (l.unread m) = _ from h] at hrel
    obtain ⟨r, hr, hrel'⟩ := hrel.of_ok_right
    obtain ⟨msg, rfl, ref, rfl, hwf, h0, hbytes, -⟩ := hrel'.of_ok_right
    exact ⟨.chunkRef ref, hr, ref, rfl, hwf, h0, hbytes⟩
  | ref r =>
    have hrel := readEnvelope_at debug (shows_refBuf m) hc
    rw [show readEnvelope debug Buf.bytes (r.unread m) = _ from h] at hrel
    obtain ⟨x, hx, hrel'⟩ := hrel.of_ok_right
    obtain ⟨⟨env', r'⟩, rfl, rfl, k, hk, rfl, rfl⟩ := hrel'.of_ok_right
    refine ⟨.chunkRef (r.advance k), ?_, k, hk, rfl, rfl⟩
    simp only [Carrier.deserialise, deserialiseChunkRef, hx, bind, Except.bind]
    rfl
  | bytes bs => exact ⟨.serialised payload, deserialiseBytes_of_read h, rfl⟩

/-- The payload is unpacked from what holds it. -/
theorem Carrier.Holds.unpacked {T : Type} {m : Mem} {c : Carrier} {data : HeapOrSer} {value : T}
    {unbox : Message → Option (Option T)} {D : Deserialiser T} (h : c.Holds m payload data) (hc : c.WF)
    (hD : D.Undoes payload value) (serId : BitVec 64) :
    NetData.tryDeserialiseUnchecked unbox D m ⟨serId, data⟩ = .ok (.ok value) := by
  cases c with
  | lease l =>
    obtain ⟨ref, rfl, hwf, h0, hbytes⟩ := h
    have hview : ref.unread m = payload := by
      rw [ChunkRef.unread, ChunkLease.unread, show ref.lease.readPointer = 0 from h0, List.drop_zero]
      exact hbytes
    have hok : ref.lease.WF ∧ ref.lease.readPointer ≤ ref.lease.capacity :=
      ⟨hwf, by rw [show ref.lease.readPointer = 0 from h0]; exact Nat.zero_le _⟩
    simp only [NetData.tryDeserialiseUnchecked, hD _ (refBuf m) _ _ ref (shows_refBuf m) hok hview]
    rfl
  | ref r =>
    obtain ⟨k, hk, rfl, rfl⟩ := h
    obtain ⟨hok, hview⟩ := (shows_refBuf m).advance r k hc hk
    simp only [NetData.tryDeserialiseUnchecked, hD _ (refBuf m) _ _ (r.advance k) (shows_refBuf m) hok hview]
    rfl
  | bytes bs =>
    obtain rfl := h
    simp only [NetData.tryDeserialiseUnchecked, hD _ Buf.bytes _ _ payload Buf.shows_bytes trivial rfl]
    rfl

/-- Accepts the payload and nothing else. -/
def Deserialiser.exactly {T : Type} (payload : List UInt8) (value : T) : Deserialiser T := fun _ B buf => do
  let (bs, _) ← B.copyToSlice buf (B.remaining buf)
  return if bs = payload then .ok value else .error (.invalidData "Not the payload.")

theorem Deserialiser.undoes_exactly {T : Type} (payload : List UInt8) (value : T) :
    (Deserialiser.exactly payload value).Undoes payload value := by
  intro β B view ok b hB hb hview
  have hcopy := hB.copy b (B.remaining b) hb (Nat.le_of_eq (hB.remaining b hb))
  rw [hB.remaining b hb, List.take_length, hview] at hcopy
  unfold Deserialiser.exactly
  rw [hB.remaining b hb, hview, hcopy]
  exact congrArg Except.ok (if_pos rfl)

theorem Deserialiser.exactly_bytes {T : Type} {bs : List UInt8} {value value' : T}
    (h : deserialised (Deserialiser.exactly payload value _ Buf.bytes bs) = .ok (.ok value')) : bs = payload := by
  have hcopy : Buf.bytes.copyToSlice bs (Buf.bytes.remaining bs) = .ok (bs, []) := by
    show ByteBuf.copyToSlice bs bs.length = _
    rw [ByteBuf.copyToSlice, if_neg (Nat.lt_irrefl _), List.take_length, List.drop_length]
  unfold Deserialiser.exactly at h
  by_contra hne
  rw [hcopy] at h
  simp only [bind, Except.bind, if_neg hne] at h
  cases h

/-! ## The two deliveries -/

namespace Messaging.DispatchData

variable {m : Mem} {msg : Message} {d : DispatchData}

/-- Whatever represents the frame that a producer returns carries the message. -/
theorem carries_serialiseMsg {w w' : BufferEncoder} {leases : List ChunkLease} {lease : ChunkLease}
    (hw : w.Blank leases) (h : serialiseMsg src dst msg w = .ok (.ok lease, w')) :
    ∀ frame ∈ [SerialisedFrame.chunkLease lease, .chunkRef ⟨lease⟩, .bytes (lease.unread w'.mem)],
      (serialised frame).Carries w'.mem src dst msg.serId msg := by
  obtain ⟨r, w₁, hrun, hl⟩ := serialiseMsg_spec hw src dst msg
  rw [hrun] at h
  obtain ⟨rfl, rfl⟩ := Prod.mk.inj (Except.ok.inj h)
  obtain ⟨hwf, h0, hframe⟩ := hl lease rfl
  have hread : lease.readPointer ≤ lease.capacity := by rw [h0]; exact Nat.zero_le _
  simp only [List.forall_mem_cons]
  exact ⟨⟨⟨hwf, hread⟩, hframe⟩, ⟨⟨hwf, hread⟩, hframe⟩, ⟨trivial, hframe⟩, fun f hf => by cases hf⟩

/-- The same for a message that was serialised before. -/
theorem carries_preserialised {w w₁ w' : BufferEncoder} {leases : List ChunkLease} {ref frameRef : ChunkRef}
    (hw : w.Blank leases) (hpre : preserialiseMsg msg w = .ok (.ok ref, w₁))
    (h : serialiseMsgWithPreserialised src dst ref w₁ = .ok (.ok frameRef, w')) :
    ∀ frame ∈ [SerialisedFrame.chunkRef frameRef, .bytes (frameRef.unread w'.mem)],
      (serialised frame).Carries w'.mem src dst msg.serId msg := by
  obtain ⟨r₁, w₂, hrun₁, hl₁⟩ := preserialiseMsg_spec hw msg
  rw [hrun₁] at hpre
  obtain ⟨rfl, rfl⟩ := Prod.mk.inj (Except.ok.inj hpre)
  obtain ⟨hb, hwf, h0, hbytes⟩ := hl₁ ref rfl
  obtain ⟨r, w₃, hrun, hl⟩ := serialiseMsgWithPreserialised_spec hb src dst (List.mem_cons_self ..) hwf
  rw [hrun] at h
  obtain ⟨rfl, rfl⟩ := Prod.mk.inj (Except.ok.inj h)
  obtain ⟨hwf', hread, hframe⟩ := hl frameRef rfl
  rw [hbytes, ← frameOf_eq] at hframe
  have hread : frameRef.readPointer ≤ frameRef.capacity := by rw [hread]; exact Nat.zero_le _
  simp only [List.forall_mem_cons]
  exact ⟨⟨⟨hwf' h0, hread⟩, hframe⟩, ⟨trivial, hframe⟩, fun f hf => by cases hf⟩

/-- What is sent is the frame of the message. -/
theorem intoSerialised_spec {w w' : BufferEncoder} {leases : List ChunkLease} {frame : SerialisedFrame}
    (hw : w.Blank leases) (hd : d.Carries w.mem src dst serId msg)
    (h : d.intoSerialised w = .ok (.ok frame, w')) :
    frameOf src dst serId msg.payload = some (frame.unread w'.mem) := by
  cases d with
  | lazy ser s t =>
    obtain ⟨rfl, rfl, rfl, rfl⟩ := hd
    obtain ⟨r, w₁, hrun, hl⟩ := serialiseMsg_spec hw s t ser
    simp only [intoSerialised, hrun] at h
    cases r with
    | error e => cases h
    | ok l =>
      obtain ⟨hframe, rfl⟩ := Prod.mk.inj (Except.ok.inj h)
      obtain rfl := Except.ok.inj hframe
      exact (hl l rfl).2.2
  | serialised f =>
    obtain ⟨hframe, rfl⟩ := Prod.mk.inj (Except.ok.inj h)
    obtain rfl := Except.ok.inj hframe
    exact hd.2
  | netMessage n =>
    obtain rfl := hd
    obtain ⟨r, w₁, hrun, hl⟩ := @embedMsg_spec w leases hw ⟨src, dst, serId, .boxed msg⟩ trivial
    simp only [intoSerialised, hrun] at h
    cases r with
    | error e => cases h
    | ok l =>
      obtain ⟨hframe, rfl⟩ := Prod.mk.inj (Except.ok.inj h)
      obtain rfl := Except.ok.inj hframe
      exact hl l rfl

/-- The envelope of the message that is delivered locally. -/
def nearEnvelope (src dst : ActorPath) (serId : BitVec 64) : DispatchData → Envelope
  | serialised _ => ⟨src.asRead, dst.asRead, serId⟩
  | _ => ⟨src, dst, serId⟩

theorem keeps_iff (serId : BitVec 64) : d.Keeps debug src dst ↔ src.Legible debug ∧ dst.Legible debug ∧
    d.nearEnvelope src dst serId = ⟨src.asRead, dst.asRead, serId⟩ := by
  have hkept : (src.Returns debug ∧ dst.Returns debug) ↔ src.Legible debug ∧ dst.Legible debug ∧
      (⟨src, dst, serId⟩ : Envelope) = ⟨src.asRead, dst.asRead, serId⟩ := by
    rw [ActorPath.returns_iff, ActorPath.returns_iff, Envelope.mk.injEq]
    constructor
    · rintro ⟨⟨hs, hs'⟩, hd, hd'⟩
      exact ⟨hs, hd, hs'.symm, hd'.symm, rfl⟩
    · rintro ⟨hs, hd, hs', hd', -⟩
      exact ⟨⟨hs, hs'.symm⟩, hd, hd'.symm⟩
  cases d with
  | lazy ser s t => exact hkept
  | serialised f => exact ⟨fun h => ⟨h.1, h.2, rfl⟩, fun h => ⟨h.1, h.2.1⟩⟩
  | netMessage n => exact hkept

/-- A frame is read behind its head. -/
theorem intoLocal_serialised {f : SerialisedFrame} (debug : Bool) (h : frameHeadLen ≤ (f.unread m).length) :
    (serialised f).intoLocal debug m = expectRead ((f.advance frameHeadLen).carrier.deserialise debug m) := by
  cases f with
  | bytes bs => exact if_neg (Nat.not_lt.mpr h)
  | chunkLease l => rfl
  | chunkRef r => rfl

theorem carrier_advance {f : SerialisedFrame} {n : Nat} (h : f.carrier.WF) (hn : n ≤ (f.unread m).length) :
    (f.advance n).carrier.WF ∧ (f.advance n).carrier.unread m = (f.unread m).drop n := by
  cases f with
  | bytes bs => exact ⟨trivial, rfl⟩
  | chunkLease l => exact (shows_leaseBuf m).advance l n h hn
  | chunkRef r => exact (shows_refBuf m).advance r n h hn

theorem expectRead_eq_ok {r : Panics (Except SerError NetMessage)} {near : NetMessage} :
    expectRead r = .ok (.ok near) ↔ r = .ok (.ok near) := by
  constructor
  · intro h
    obtain ⟨x, hx, h⟩ := Panics.bind_eq_ok.mp h
    cases x with
    | error e => cases h
    | ok msg => rw [hx, ← Except.ok.inj (Except.ok.inj h)]
  · rintro rfl
    rfl

/-- A message that is not serialised is delivered as it is. -/
theorem near_boxed {T : Type} {unbox : Message → Option (Option T)} {value : T} (debug : Bool)
    (hu : unbox msg = some (some value)) (D : Deserialiser T) (hd : d.Carries m src dst serId msg) (hf : ∀ f, d ≠ .serialised f) :
    d.intoLocal debug m = .ok (.ok ((d.nearEnvelope src dst serId).withData (.boxed msg))) ∧
      NetData.tryDeserialiseUnchecked unbox D m ⟨serId, .boxed msg⟩ = .ok (.ok value) := by
  refine ⟨?_, by simp only [NetData.tryDeserialiseUnchecked, hu]⟩
  cases d with
  | lazy ser s t =>
    obtain ⟨rfl, rfl, rfl, rfl⟩ := hd
    rfl
  | serialised f => exact absurd rfl (hf f)
  | netMessage n =>
    obtain rfl := hd
    rfl

/-- A frame is delivered as what it is read as, if it is legible. -/
theorem near_serialised {T : Type} (unbox : Message → Option (Option T)) {value : T} {D : Deserialiser T}
    {f : SerialisedFrame} (hD : D.Undoes msg.payload value)
    (hd : (serialised f).Carries m src dst serId msg) (hc : contentOf src dst serId msg.payload = some content) :
    (∀ near, (serialised f).intoLocal debug m = .ok (.ok near) → src.Legible debug ∧ dst.Legible debug ∧
      ∃ data, near = Envelope.withData ⟨src.asRead, dst.asRead, serId⟩ data) ∧
    (src.Legible debug → dst.Legible debug → ∃ data,
      (serialised f).intoLocal debug m = .ok (.ok (Envelope.withData ⟨src.asRead, dst.asRead, serId⟩ data)) ∧
        NetData.tryDeserialiseUnchecked unbox D m ⟨serId, data⟩ = .ok (.ok value)) := by
  obtain ⟨hwf, hframe⟩ := hd
  rw [frameOf, hc, Option.map_some] at hframe
  have hbytes : f.unread m = dataFrame content := (Option.some.inj hframe).symm
  have hlen : frameHeadLen ≤ (f.unread m).length := by
    rw [hbytes, dataFrame, List.length_append, length_encode_head]
    exact Nat.le_add_right ..
  obtain ⟨hwf', hview⟩ := carrier_advance hwf hlen
  rw [hbytes, (decodeHead_dataFrame content).2] at hview
  rw [intoLocal_serialised debug hlen]
  constructor
  · intro near hnear
    obtain ⟨env, payload, hread, hmsg, -⟩ := Carrier.deserialise_spec hwf' (expectRead_eq_ok.mp hnear)
    rw [hview, readEnvelope_content hc] at hread
    obtain ⟨hs, hd, hx⟩ := hread
    obtain ⟨rfl, -⟩ := Prod.mk.inj hx
    exact ⟨hs, hd, near.data.data, hmsg⟩
  · intro hs hd
    obtain ⟨data, hdec, hholds⟩ := Carrier.deserialise_ok (m := m) hwf'
      (by rw [hview]; exact (readEnvelope_content hc debug _).mpr ⟨hs, hd, rfl⟩)
    exact ⟨data, expectRead_eq_ok.mpr hdec, hholds.unpacked hwf' hD serId⟩

/-- The message that is delivered locally, if there is one. -/
theorem near_spec {T : Type} {unbox : Message → Option (Option T)} {value : T} {D : Deserialiser T}
    (hu : unbox msg = some (some value)) (hD : D.Undoes msg.payload value) (hd : d.Carries m src dst serId msg)
    (hc : contentOf src dst serId msg.payload = some content) {near : NetMessage}
    (hnear : d.intoLocal debug m = .ok (.ok near)) :
    (∃ data, near = (d.nearEnvelope src dst serId).withData data) ∧
      ∃ enc, content.length = enc.length + msg.payload.length ∧
        contentOf (d.nearEnvelope src dst serId).src (d.nearEnvelope src dst serId).dst serId [] = some enc := by
  have hown : ∃ enc, content.length = enc.length + msg.payload.length ∧ contentOf src dst serId [] = some enc := by
    have happ := contentOf_append src dst serId [] msg.payload
    rw [List.nil_append, hc] at happ
    obtain ⟨enc, henc, hcontent⟩ := Option.map_eq_some_iff.mp happ.symm
    exact ⟨enc, by rw [← hcontent, List.length_append], henc⟩
  cases d with
  | lazy ser s t =>
    have hlocal := (near_boxed debug hu D hd (fun f hf => by cases hf)).1
    rw [hlocal] at hnear
    exact ⟨⟨_, (Except.ok.inj (Except.ok.inj hnear)).symm⟩, hown⟩
  | netMessage n =>
    have hlocal := (near_boxed debug hu D hd (fun f hf => by cases hf)).1
    rw [hlocal] at hnear
    exact ⟨⟨_, (Except.ok.inj (Except.ok.inj hnear)).symm⟩, hown⟩
  | serialised f =>
    obtain ⟨hs, hd', data, rfl⟩ := (near_serialised unbox hD hd hc).1 near hnear
    refine ⟨⟨data, rfl⟩, ?_⟩
    -- the paths that are read have an encoding as long as those that were written
    have hread := (readEnvelope_content hc debug _).mpr ⟨hs, hd', rfl⟩
    obtain ⟨enc, -, hle, hpay, henc⟩ := readEnvelope_encoded hread
    refine ⟨enc, ?_, by rw [← List.append_nil enc]; exact (henc []).1⟩
    have := congrArg List.length hpay
    rw [List.length_drop] at this
    omega

/-- What agreement with the strictest deserialiser says. -/
theorem keeps_of_agrees {T : Type} {unbox : Message → Option (Option T)} {value : T}
    (hu : unbox msg = some (some value)) (hd : d.Carries m src dst serId msg)
    (hc : contentOf src dst serId msg.payload = some content)
    (h : d.Agrees debug unbox (.exactly msg.payload value) m (dataFrame content)) :
    d.Keeps debug src dst ∧ content.length < 2 ^ 32 := by
  obtain ⟨near, value', len, hnear, -, hhead, hfar⟩ := h
  obtain ⟨hhead', hdrop⟩ := decodeHead_dataFrame content
  rw [hhead'] at hhead
  obtain ⟨-, rfl⟩ := FrameHead.mk.inj (Except.ok.inj hhead)
  obtain ⟨⟨data, rfl⟩, enc, hlen, henc⟩ :=
    near_spec hu (Deserialiser.undoes_exactly msg.payload value) hd hc hnear
  obtain ⟨far, hdec, hsender, hreceiver, hid, hunp⟩ :=
    hfar m (.bytes (content.take (content.length % 2 ^ 32))) trivial (by rw [hdrop]; rfl)
  -- the peer reads the same envelope, and all of the payload
  have hbytes : (Carrier.bytes (content.take (content.length % 2 ^ 32))).WF := trivial
  obtain ⟨env, payload, hread, hmsg, hholds⟩ := Carrier.deserialise_spec hbytes hdec
  have hdata : far.data.data = .serialised payload := hholds
  rw [hdata] at hmsg
  subst hmsg
  obtain rfl : env = d.nearEnvelope src dst serId := by
    obtain ⟨s, t, id⟩ := env
    obtain rfl : s = _ := hsender
    obtain rfl : t = _ := hreceiver
    obtain rfl : id = _ := hid
    rfl
  obtain rfl : payload = msg.payload := Deserialiser.exactly_bytes hunp
  have hread : readEnvelope debug Buf.bytes (content.take (content.length % 2 ^ 32)) =
      .ok (.ok (d.nearEnvelope src dst serId, msg.payload)) := hread
  obtain ⟨enc', -, hle, hpay, henc'⟩ := readEnvelope_encoded hread
  have hid' : (d.nearEnvelope src dst serId).serId = serId := by cases d <;> rfl
  have hsame : enc' = enc := by
    have h₁ := (henc' []).1
    rw [hid', henc, List.append_nil] at h₁
    exact (Option.some.inj h₁).symm
  have hlt : content.length < 2 ^ 32 := by
    have hshort := congrArg List.length hpay
    rw [List.length_drop, hsame] at hshort
    rw [hsame] at hle
    rw [List.length_take] at hshort hle
    have hmod := Nat.mod_lt content.length (show 0 < 2 ^ 32 by decide)
    omega
  refine ⟨?_, hlt⟩
  rw [Nat.mod_eq_of_lt hlt, List.take_length, readEnvelope_content hc] at hread
  obtain ⟨hs, hd', hx⟩ := hread
  exact (keeps_iff serId).mpr ⟨hs, hd', (Prod.mk.inj hx).1⟩

theorem agrees_of_keeps {T : Type} {unbox : Message → Option (Option T)} {value : T} {D : Deserialiser T}
    (hu : unbox msg = some (some value)) (hD : D.Undoes msg.payload value) (hd : d.Carries m src dst serId msg)
    (hc : contentOf src dst serId msg.payload = some content) (hk : d.Keeps debug src dst)
    (hlt : content.length < 2 ^ 32) : d.Agrees debug unbox D m (dataFrame content) := by
  obtain ⟨hs, ht, henv⟩ := (keeps_iff serId).mp hk
  obtain ⟨hhead, hdrop⟩ := decodeHead_dataFrame content
  have hread := (readEnvelope_content hc debug _).mpr ⟨hs, ht, rfl⟩
  obtain ⟨data, hnear, hunp⟩ : ∃ data,
      d.intoLocal debug m = .ok (.ok (Envelope.withData ⟨src.asRead, dst.asRead, serId⟩ data)) ∧
        NetData.tryDeserialiseUnchecked unbox D m ⟨serId, data⟩ = .ok (.ok value) := by
    cases d with
    | lazy ser s t =>
      rw [← henv]
      exact ⟨_, near_boxed debug hu D hd (fun f hf => by cases hf)⟩
    | netMessage n =>
      rw [← henv]
      exact ⟨_, near_boxed debug hu D hd (fun f hf => by cases hf)⟩
    | serialised f => exact (near_serialised unbox hD hd hc).2 hs ht
  refine ⟨_, value, content.length % 2 ^ 32, hnear, hunp, hhead, fun m' c hwf hview => ?_⟩
  rw [hdrop, Nat.mod_eq_of_lt hlt, List.take_length] at hview
  obtain ⟨far, hfar, hholds⟩ := Carrier.deserialise_ok (m := m') hwf (by rw [hview]; exact hread)
  exact ⟨_, hfar, rfl, rfl, rfl, hholds.unpacked hwf hD serId⟩

/-- From any state of the encode buffer, for any data that carries a message: both deliveries
give the same, with every deserialiser that undoes the message, if and only if the paths a peer
reads are those that are delivered locally and the length of the content fits into 32 bits. -/
theorem agrees_iff {e : EncodeBuffer} {w w' : BufferEncoder} {frame : SerialisedFrame} (he : e.Ready)
    (hw : e.getBufferEncoder m = .ok (.ok w)) (debug : Bool) {T : Type} {unbox : Message → Option (Option T)}
    {value : T} (hu : unbox msg = some (some value)) (hd : d.Carries m src dst serId msg)
    (hs : d.intoSerialised w = .ok (.ok frame, w')) :
    ∃ content, contentOf src dst serId msg.payload = some content ∧
      ((∀ D : Deserialiser T, D.Undoes msg.payload value → d.Agrees debug unbox D m (frame.unread w'.mem)) ↔
        d.Keeps debug src dst ∧ content.length < 2 ^ 32) := by
  obtain ⟨leases, hi⟩ := he.inv
  obtain ⟨hb, rfl⟩ := blank_of_getBufferEncoder hi rfl he.roomy (getBufferEncoder_aligned hw)
  have hframe := intoSerialised_spec hb hd hs
  obtain ⟨content, hc, hbytes⟩ := Option.map_eq_some_iff.mp hframe
  refine ⟨content, hc, ?_⟩
  rw [← hbytes]
  constructor
  · exact fun h => keeps_of_agrees hu hd hc (h _ (Deserialiser.undoes_exactly msg.payload value))
  · rintro ⟨hk, hlt⟩ D hD
    exact agrees_of_keeps hu hD hd hc hk hlt

/-- Whether a frame was returned. -/
def sends (r : Panics (Encoded SerialisedFrame)) : Bool :=
  match r with
  | .ok (.ok _, _) => true
  | _ => false

theorem sends_iff {r : Panics (Encoded SerialisedFrame)} : sends r = true ↔ ∃ frame w', r = .ok (.ok frame, w') := by
  match r with
  | .ok (.ok frame, w') => exact iff_of_true rfl ⟨frame, w', rfl⟩
  | .ok (.error e, w') => exact iff_of_false (fun h => by cases h) (fun ⟨_, _, h⟩ => by cases h)
  | .error e => exact iff_of_false (fun h => by cases h) (fun ⟨_, _, h⟩ => by cases h)

/-- A message of three bytes to the given address, still to be serialised. -/
def threeBytesTo (addr : IpAddr) : DispatchData :=
  .lazy threeBytes (.unique ⟨.tcp, .v4 1, 80⟩ 7) (.unique ⟨.tcp, addr, 80⟩ 8)

/-- The value of such a message is its payload. -/
def unboxPayload (msg : Message) : Option (Option (List UInt8)) := some (some msg.payload)

theorem carries_threeBytesTo (m : Mem) (addr : IpAddr) :
    (threeBytesTo addr).Carries m (.unique ⟨.tcp, .v4 1, 80⟩ 7) (.unique ⟨.tcp, addr, 80⟩ 8) 42 threeBytes :=
  ⟨rfl, rfl, rfl, rfl⟩

/-- The head of the frame is over two chunks. -/
theorem agrees_iff_straddling :
    ∃ frame w', (threeBytesTo (.v4 2)).intoSerialised ⟨fun _ _ => 0, nearlyFull, none, none⟩ = .ok (.ok frame, w') ∧
      ∀ D : Deserialiser (List UInt8), D.Undoes [1, 2, 3] [1, 2, 3] →
        (threeBytesTo (.v4 2)).Agrees false unboxPayload D (fun _ _ => 0)
          (frame.unread w'.mem) := by
  have hsends : sends ((threeBytesTo (.v4 2)).intoSerialised ⟨fun _ _ => 0, nearlyFull, none, none⟩) = true := by
    decide +kernel
  obtain ⟨frame, w', hs⟩ := sends_iff.mp hsends
  have hw : nearlyFull.getBufferEncoder (fun _ _ => 0) = .ok (.ok ⟨fun _ _ => 0, nearlyFull, none, none⟩) := rfl
  have hu : unboxPayload threeBytes = some (some [1, 2, 3]) := rfl
  obtain ⟨content, hc, hiff⟩ := agrees_iff ready_nearlyFull hw false hu (carries_threeBytesTo _ (.v4 2)) hs
  have hlen : ∀ content ∈ contentOf (.unique ⟨.tcp, .v4 1, 80⟩ 7) (.unique ⟨.tcp, .v4 2, 80⟩ 8) 42 threeBytes.payload,
      content.length < 2 ^ 32 := by decide +kernel
  exact ⟨frame, w', hs, hiff.mpr ⟨⟨rfl, rfl⟩, hlen content hc⟩⟩

/-- A message to an IPv6 address: local delivery returns it, and its frame is sent, but no peer
can read it. -/
theorem not_agrees_v6 :
    nearlyFull.Ready ∧
    (threeBytesTo (.v6 2)).intoLocal false (fun _ _ => 0) =
      .ok (.ok ⟨.unique ⟨.tcp, .v4 1, 80⟩ 7, .unique ⟨.tcp, .v6 2, 80⟩ 8, 42, .boxed threeBytes⟩) ∧
    ∃ frame w', (threeBytesTo (.v6 2)).intoSerialised ⟨fun _ _ => 0, nearlyFull, none, none⟩ = .ok (.ok frame, w') ∧
      Deserialiser.Undoes (Deserialiser.exactly [1, 2, 3] [1, 2, 3]) [1, 2, 3] [1, 2, 3] ∧
      ¬ (threeBytesTo (.v6 2)).Agrees false unboxPayload (.exactly [1, 2, 3] [1, 2, 3])
        (fun _ _ => 0) (frame.unread w'.mem) := by
  have hsends : sends ((threeBytesTo (.v6 2)).intoSerialised ⟨fun _ _ => 0, nearlyFull, none, none⟩) = true := by
    decide +kernel
  obtain ⟨frame, w', hs⟩ := sends_iff.mp hsends
  have hw : nearlyFull.getBufferEncoder (fun _ _ => 0) = .ok (.ok ⟨fun _ _ => 0, nearlyFull, none, none⟩) := rfl
  have hu : unboxPayload threeBytes = some (some [1, 2, 3]) := rfl
  obtain ⟨leases, hb⟩ := ready_nearlyFull.blank hw
  refine ⟨ready_nearlyFull, rfl, frame, w', hs, Deserialiser.undoes_exactly _ _, fun hagrees => ?_⟩
  have hframe := intoSerialised_spec hb (carries_threeBytesTo _ (.v6 2)) hs
  obtain ⟨content, hc, hbytes⟩ := Option.map_eq_some_iff.mp hframe
  rw [← hbytes] at hagrees
  obtain ⟨⟨-, hdst⟩, -⟩ := keeps_of_agrees hu (carries_threeBytesTo _ (.v6 2)) hc hagrees
  have hv4 : (IpAddr.v6 2).isV4 = true := hdst
  cases hv4

end Messaging.DispatchData

end Kompact
