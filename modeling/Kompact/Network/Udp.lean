import Kompact.Buffers.BufferPool
import Kompact.Buffers.DecodeTotality
import Kompact.Serialisation.Forwarding
import Kompact.Serialisation.Untrusted

/-!
# Receiving datagrams

All datagrams are written to one decode buffer, and one frame is taken from it
after each. What a datagram leaves there is read with the next one: bytes that
are too few for a head, a head whose frame is not there, or a second frame.

`step` is one round of the loop of `try_read`; where the loop returns, the
messages that came in are delivered. `datagrams_delivered` is about whole runs:
as long as every datagram is taken from the buffer as a whole (`Clean`), exactly
the messages of the datagrams are delivered, each as if it came alone.
-/

namespace Kompact

/-- A message by its value: the envelope, and the bytes of the payload. -/
abbrev NetMessage.Value := Envelope × List UInt8

def NetMessage.value (m : Mem) (msg : NetMessage) : NetMessage.Value :=
  (⟨msg.sender, msg.receiver, msg.data.serId⟩, msg.data.data.unread m)

/-- No byte of the payload is in chunk `c` at `o` or behind. -/
def HeapOrSer.Below (c : ChunkId) (o : Nat) : HeapOrSer → Prop
  | .chunkLease lease => lease.Below c o
  | .chunkRef ref => ref.lease.Below c o
  | _ => True

namespace Udp

/-- The limit of IPv4. -/
def maxPacketSize : Nat := 65535

def maxInterrupts : Nat := 9

structure UdpState where
  inputBuffer : DecodeBuffer
  incomingMessages : List NetMessage
  maxPacketSize : Nat

/-- A new state; the size of the chunks is the limit if it is smaller. -/
def UdpState.new (chunk : BufferChunk) (cfg : PoolConfig) : UdpState where
  inputBuffer := .new chunk cfg.toBufferConfig
  incomingMessages := []
  maxPacketSize := min cfg.chunkSize Udp.maxPacketSize

/-- The state, with the memory it works on, how often the current call was
interrupted, and the messages that were delivered. -/
structure World where
  mem : Mem
  udp : UdpState
  interrupts : Nat
  delivered : List NetMessage.Value

def World.new (m : Mem) (chunk : BufferChunk) (cfg : PoolConfig) : World := ⟨m, .new chunk cfg, 0, []⟩

/-- What `recv_from` gives. -/
inductive Received where
  | datagram (bs : List UInt8)
  | wouldBlock
  | interrupted
  | failed
  deriving DecidableEq, Repr

/-- One round: what the pool gives if it is asked, and what is received. -/
structure Event where
  offer : Option BufferChunk
  received : Received
  deriving DecidableEq, Repr

inductive IoError where
  | outOfBuffers
  | interrupted
  | failed
  deriving DecidableEq, Repr

/-- How a round ends: with another one, or with the end of the call. -/
inductive Round where
  | again
  | interrupted
  | returned (r : Except IoError Unit)

namespace World

def setBuffer (w : World) (d : DecodeBuffer) : World := { w with udp := { w.udp with inputBuffer := d } }

/-- Swap the chunk if the writable bytes are too few for a datagram. -/
def prepare (w : World) (offer : Option BufferChunk) : Panics World :=
  if w.udp.inputBuffer.writeableLen < w.udp.maxPacketSize then
    match offer with
    | some buffer => do
      let (mem, d, _) ← w.udp.inputBuffer.swapBuffer w.mem buffer
      return { w.setBuffer d with mem }
    | none => .ok w
  else .ok w

/-- A datagram is written into the slice. -/
def receive (w : World) (buf : Slice) (bs : List UInt8) : World :=
  { w with
    mem := w.mem.write buf.chunk buf.off bs
    udp := { w.udp with inputBuffer := w.udp.inputBuffer.advanceWriteable bs.length } }

/-- Take one frame, and the message in it. -/
def decodeMessage (debug : Bool) (w : World) : Panics World := do
  match ← w.udp.inputBuffer.getFrame w.mem with
  | (.ok (.data payload), d) =>
    match ← deserialiseChunkLease debug w.mem payload with
    | .ok envelope =>
      return { w with udp := { w.udp with
        inputBuffer := d, incomingMessages := w.udp.incomingMessages ++ [envelope] } }
    | .error _ => return w.setBuffer d
  | (_, d) => return w.setBuffer d

/-- One round of the loop of `try_read`. -/
def round (debug : Bool) (w : World) (ev : Event) : Panics (Round × World) := do
  let w ← w.prepare ev.offer
  if w.udp.inputBuffer.writeableLen < w.udp.maxPacketSize then return (.returned (.error .outOfBuffers), w)
  match ← w.udp.inputBuffer.getWriteable with
  | none => return (.returned (.error .outOfBuffers), w)
  | some buf =>
    match ev.received with
    | .datagram [] => return (.returned (.ok ()), w)
    | .datagram bs =>
      return (.again, ← (w.receive buf bs).decodeMessage debug)
    | .wouldBlock => return (.returned (.ok ()), w)
    | .interrupted => return (.interrupted, w)
    | .failed => return (.returned (.error .failed), w)

/-- The messages that came in are delivered, and the call ends. -/
def deliver (w : World) : World :=
  { w with
    udp := { w.udp with incomingMessages := [] }
    interrupts := 0
    delivered := w.delivered ++ w.udp.incomingMessages.map (NetMessage.value w.mem) }

/-- A round, and the end of the call if it is its last one. -/
def step (debug : Bool) (w : World) (ev : Event) : Panics World := do
  match ← w.round debug ev with
  | (.again, w) => return w
  | (.interrupted, w) =>
    if maxInterrupts ≤ w.interrupts + 1 then return w.deliver
    else return { w with interrupts := w.interrupts + 1 }
  | (.returned _, w) => return w.deliver

end World

/-- A sequence of rounds, of any number of calls. -/
def run (debug : Bool) (w : World) : List Event → Panics World
  | [] => .ok w
  | ev :: evs => do
    let w ← w.step debug ev
    run debug w evs

/-! ## What is promised of the events -/

/-- The pool has a free chunk when it is asked, in which nothing is that is still
in use. A datagram is what `recv_from` gives, so that it fits in the slice it is
received into: one that is longer is received cut off there. -/
structure Event.Legal (chunkSize : Nat) (w : World) (ev : Event) : Prop where
  offer : w.udp.inputBuffer.writeableLen < w.udp.maxPacketSize →
    ∃ c, ev.offer = some c ∧ c.free.1 = true ∧ c.len = chunkSize ∧ w.udp.inputBuffer.Fresh c.chunk ∧
      ∀ msg ∈ w.udp.incomingMessages, msg.data.data.Below c.chunk 0
  fits : ∀ bs w', ev.received = .datagram bs → w.prepare ev.offer = .ok w' →
    bs.length ≤ w'.udp.inputBuffer.writeableLen

def LegalRun (debug : Bool) (chunkSize : Nat) (w : World) : List Event → Prop
  | [] => True
  | ev :: evs => ev.Legal chunkSize w ∧ ∀ w', w.step debug ev = .ok w' → LegalRun debug chunkSize w' evs

/-! ## What a datagram is on its own -/

/-- A datagram of which nothing stays behind: it is one frame and no more, with a
body that is decoded, or a head that is not one. -/
inductive Clean (debug : Bool) : List UInt8 → Prop
  | empty : Clean debug []
  | noHead {bs : List UInt8} (hlen : bs.length = frameHeadLen) (hd : frameFormat.decodeHead bs = .error ()) :
    Clean debug bs
  | data {hd content : List UInt8} (hlen : hd.length = frameHeadLen)
    (hhead : frameFormat.decodeHead hd = .ok ⟨.data, content.length⟩) (hpos : content ≠ [])
    (hread : MessageReadable debug content) : Clean debug (hd ++ content)
  | hello {hd content : List UInt8} (hlen : hd.length = frameHeadLen)
    (hhead : frameFormat.decodeHead hd = .ok ⟨.hello, content.length⟩) (haddr : AddrThere 0 content) :
    Clean debug (hd ++ content)
  | start {hd content : List UInt8} (hlen : hd.length = frameHeadLen)
    (hhead : frameFormat.decodeHead hd = .ok ⟨.start, content.length⟩) (haddr : AddrThere 16 content) :
    Clean debug (hd ++ content)
  | bare {hd : List UInt8} {t : FrameType} (hlen : hd.length = frameHeadLen)
    (hhead : frameFormat.decodeHead hd = .ok ⟨t, 0⟩) (ht : t = .ack ∨ t = .bye ∨ t = .unknown) : Clean debug hd

/-- The message of a datagram that is a data frame. -/
def messageOf (debug : Bool) (bs : List UInt8) : Option NetMessage.Value :=
  match frameFormat.decodeHead (bs.take frameHeadLen) with
  | .ok ⟨.data, _⟩ =>
    match readEnvelope debug Buf.bytes (bs.drop frameHeadLen) with
    | .ok (.ok message) => some message
    | _ => none
  | _ => none

def Event.message (debug : Bool) (ev : Event) : Option NetMessage.Value :=
  match ev.received with
  | .datagram bs => messageOf debug bs
  | _ => none

/-- A datagram that is the data frame of a message is clean, and that message is the
one it stands for. -/
theorem clean_dataFrame {debug : Bool} {content : List UInt8} {message : NetMessage.Value}
    (hlen : content.length < 2 ^ 32) (hread : readEnvelope debug Buf.bytes content = .ok (.ok message)) :
    Clean debug (dataFrame content) ∧ messageOf debug (dataFrame content) = some message := by
  have hhead : frameFormat.decodeHead (FrameHead.mk .data content.length).encode = .ok ⟨.data, content.length⟩ :=
    decodeHead_encode hlen
  have hne : content ≠ [] := by
    rintro rfl
    cases hread
  refine ⟨.data (length_encode_head _) hhead hne ((readEnvelope_ok_iff debug content).mp ⟨_, hread⟩), ?_⟩
  rw [messageOf, dataFrame, ← length_encode_head ⟨.data, content.length⟩, List.take_left, List.drop_left, hhead]
  simp only [hread]

end Udp

/-! ## One frame in the buffer -/

namespace DecodeBuffer

/-- Nothing but `bs` is in the buffer, all of it in the active chunk. -/
structure Holds (m : Mem) (d : DecodeBuffer) (bs : List UInt8) : Prop where
  inv : d.Inv
  noHead : d.nextFrameHead = none
  noChain : d.chainHead = none
  bytes : d.activeBytes m = bs

/-- The next `n` bytes of the active chunk were leased. -/
def skip (d : DecodeBuffer) (n : Nat) : DecodeBuffer :=
  { d with buffer := { d.buffer with refCount := d.buffer.refCount + 1 }, readOffset := d.readOffset + n }

variable {m : Mem} {d : DecodeBuffer} {bs hd content : List UInt8}

theorem Holds.length (h : d.Holds m bs) : d.writeOffset = d.readOffset + bs.length := by
  have hlen : (d.activeBytes m).length = bs.length := congrArg _ h.bytes
  rw [activeBytes, Mem.length_bytes] at hlen
  have := h.inv.offsets
  omega

theorem Holds.readableLen (h : d.Holds m bs) : d.readableLen = bs.length := by
  have hlen := h.length
  rw [DecodeBuffer.readableLen, h.noChain]
  show 0 + (d.writeOffset - d.readOffset) = bs.length
  omega

theorem Holds.skip (h : d.Holds m (hd ++ content)) : (d.skip hd.length).Holds m content := by
  have hlen := h.length
  rw [List.length_append] at hlen
  refine ⟨⟨?_, h.inv.bound, h.inv.unlocked, ?_, ?_⟩, h.noHead, h.noChain, ?_⟩
  · show d.readOffset + hd.length ≤ d.writeOffset
    omega
  · intro l hl
    rw [show (d.skip hd.length).chainHead = none from h.noChain] at hl
    cases hl
  · intro l hl
    rw [show (d.skip hd.length).chainHead = none from h.noChain] at hl
    cases hl
  · have hrest := (activeBytes_split m (show hd.length ≤ d.writeOffset - d.readOffset by omega)).2
    rw [h.bytes, List.drop_left] at hrest
    exact hrest

/-- A lease of the first bytes. -/
theorem Holds.readChunkLease (h : d.Holds m (hd ++ content)) (hpos : 0 < hd.length) :
    ∃ l, d.readChunkLease hd.length = .ok (l, d.skip hd.length) ∧ l.WF ∧ l.readPointer = 0 ∧ l.unread m = hd ∧
      l.Below d.buffer.chunk (d.readOffset + hd.length) := by
  have hlen := h.length
  have hbound := h.inv.bound
  rw [List.length_append] at hlen
  refine ⟨.new ⟨d.buffer.chunk, d.readOffset, hd.length⟩ d.buffer.chunk, ?_, ChunkLease.wf_new _ _, rfl, ?_, ?_⟩
  · unfold DecodeBuffer.readChunkLease
    split
    · rename_i hc
      rw [h.noChain] at hc
      cases hc
    · rw [getLease_spec (by omega) (by omega) h.inv.unlocked, Nat.add_sub_cancel_left]
      rfl
  · have hfirst := (activeBytes_split m (show hd.length ≤ d.writeOffset - d.readOffset by omega)).1
    rw [h.bytes, List.take_left] at hfirst
    exact hfirst
  · intro s hs _
    rw [ChunkLease.slices_new, List.mem_singleton] at hs
    rw [hs]

theorem Holds.decodeFrameHead_eq (h : d.Holds m (hd ++ content)) (hlen : hd.length = frameHeadLen) :
    ∃ l, d.decodeFrameHead m = (FrameHead.decodeFrom m l >>= fun r =>
        match r with
        | .error e => .ok (.error e, d.skip frameHeadLen)
        | .ok head => .ok (.ok (), { d.skip frameHeadLen with nextFrameHead := some head })) ∧
      l.WF ∧ l.readPointer = 0 ∧ l.unread m = hd := by
  obtain ⟨l, hr, hwf, h0, hu, -⟩ := h.readChunkLease (by rw [hlen]; decide)
  refine ⟨l, ?_, hwf, h0, hu⟩
  have hc : d.nextFrameHead.isNone ∧ frameHeadLen ≤ d.readableLen := by
    rw [h.noHead, h.readableLen, List.length_append, hlen]
    exact ⟨rfl, Nat.le_add_right ..⟩
  rw [decodeFrameHead, if_pos hc, ← hlen, hr]
  rfl

/-- Bytes that are no head are taken and reported. -/
theorem Holds.getFrame_noHead (h : d.Holds m (hd ++ content)) (hlen : hd.length = frameHeadLen)
    (hbad : frameFormat.decodeHead hd = .error ()) : ∃ e, d.getFrame m = .ok (.error e, d.skip frameHeadLen) := by
  obtain ⟨l, hrun, hwf, h0, hu⟩ := h.decodeFrameHead_eq hlen
  obtain ⟨e, he⟩ := decodeFrom_error m hwf h0 (by rw [hu, hlen]) (by rw [hu]; exact hbad)
  rw [he] at hrun
  exact ⟨e, by rw [getFrame, hrun]; rfl⟩

/-- A head whose body is there is taken, and then the body. -/
theorem Holds.getFrame_head (h : d.Holds m (hd ++ content)) (hlen : hd.length = frameHeadLen) {head : FrameHead}
    (hhead : frameFormat.decodeHead hd = .ok head) (hbody : head.contentLength ≤ content.length) :
    d.getFrame m = decodeBody m (d.skip frameHeadLen) head := by
  obtain ⟨l, hrun, hwf, h0, hu⟩ := h.decodeFrameHead_eq hlen
  rw [decodeFrom_spec m hwf (by rw [hu, hlen]) (by rw [hu]; exact hhead)] at hrun
  have hready : readyHead { d.skip frameHeadLen with nextFrameHead := some head } = some head := by
    have hrest := (hlen ▸ h.skip).readableLen
    refine Option.filter_eq_some_iff.mpr ⟨rfl, decide_eq_true ?_⟩
    show head.contentLength ≤ (d.skip frameHeadLen).readableLen
    rw [hrest]
    exact hbody
  rw [getFrame_eq hrun, hready]
  show decodeBody m { d.skip frameHeadLen with nextFrameHead := none } head = _
  rw [← (show (d.skip frameHeadLen).nextFrameHead = none from h.noHead)]

/-- A payload is taken as a lease of it. -/
theorem Holds.decodeData (h : d.Holds m bs) (hpos : bs ≠ []) :
    ∃ l, decodeBody m d ⟨.data, bs.length⟩ = .ok (.ok (.data l), d.skip bs.length) ∧ l.WF ∧ l.readPointer = 0 ∧
      l.unread m = bs ∧ l.Below d.buffer.chunk (d.readOffset + bs.length) := by
  obtain ⟨l, hr, hl⟩ :=
    (show d.Holds m (bs ++ []) by rwa [List.append_nil]).readChunkLease (List.length_pos_of_ne_nil hpos)
  refine ⟨l, ?_, hl⟩
  simp only [decodeBody, hr, bind, Except.bind]
  rfl

/-- A body with an address is taken as a whole, and is no data. -/
theorem Holds.decodeAddrBody (h : d.Holds m bs) {t : FrameType} {extra : Nat} (haddr : AddrThere extra bs)
    (ht : t = .hello ∧ extra = 0 ∨ t = .start ∧ extra = 16) :
    ∃ f, decodeBody m d ⟨t, bs.length⟩ = .ok (.ok f, d.skip bs.length) ∧ ∀ l, f ≠ .data l := by
  have hpos : 0 < bs.length := by
    obtain ⟨n, hn, hle⟩ := haddr
    cases bs with
    | nil => cases hn
    | cons b bs => exact Nat.succ_pos _
  obtain ⟨l, hr, hwf, -, hu, -⟩ := (show d.Holds m (bs ++ []) by rwa [List.append_nil]).readChunkLease hpos
  rcases ht with ⟨rfl, rfl⟩ | ⟨rfl, rfl⟩
  · obtain ⟨r, hdec⟩ := (decodeHelloFrom_ok_iff m hwf).mpr (by rw [hu]; exact haddr)
    unfold decodeHelloFrom at hdec
    cases ha : decodeAddrFrom m l with
    | error e => rw [ha] at hdec; cases hdec
    | ok x =>
      refine ⟨.hello x.1, ?_, (fun l hl => by cases hl)⟩
      simp only [decodeBody, hr, bind, Except.bind, decodeHelloFrom, ha]
      rfl
  · obtain ⟨r, hdec⟩ := (decodeStartFrom_ok_iff m hwf).mpr (by rw [hu]; exact haddr)
    unfold decodeStartFrom at hdec
    cases ha : decodeAddrFrom m l with
    | error e => rw [ha] at hdec; cases hdec
    | ok x =>
      rw [ha] at hdec
      simp only [bind, Except.bind] at hdec
      cases hid : x.2.getUint m 16 with
      | error e => rw [hid] at hdec; cases hdec
      | ok y =>
        refine ⟨.start x.1 (.fromU128 y.1), ?_, (fun l hl => by cases hl)⟩
        simp only [decodeBody, hr, bind, Except.bind, decodeStartFrom, ha, hid]
        rfl

end DecodeBuffer

namespace HeapOrSer

/-- A write behind the bytes of a payload does not change it. -/
theorem unread_write {data : HeapOrSer} {c : ChunkId} {o : Nat} (h : data.Below c o) (m : Mem) (bs : List UInt8) :
    data.unread (m.write c o bs) = data.unread m := by
  have hlease : ∀ l : ChunkLease, l.Below c o → l.unread (m.write c o bs) = l.unread m := by
    intro l hl
    unfold ChunkLease.unread
    rw [ChunkLease.bytes_congr fun s hs => Mem.bytes_write_of_sep fun hc => .inl (hl s hs hc)]
  cases data with
  | boxed msg => rfl
  | serialised bytes => rfl
  | chunkLease lease => exact hlease lease h
  | chunkRef ref => exact hlease ref.lease h

theorem Below.mono {data : HeapOrSer} {c : ChunkId} {o o' : Nat} (h : data.Below c o) (ho : o ≤ o') :
    data.Below c o' := by
  cases data with
  | boxed msg => trivial
  | serialised bytes => trivial
  | chunkLease lease => exact ChunkLease.Below.mono h ho
  | chunkRef ref => exact ChunkLease.Below.mono h ho

end HeapOrSer

namespace Udp

/-! ## The rounds -/

/-- The buffer holds `bs`, and the queue nothing that will be written over. -/
structure World.Holding (chunkSize : Nat) (w : World) (bs : List UInt8) : Prop where
  buffer : w.udp.inputBuffer.Holds w.mem bs
  len : w.udp.inputBuffer.buffer.len = chunkSize
  size : w.udp.maxPacketSize = min chunkSize maxPacketSize
  queue : ∀ msg ∈ w.udp.incomingMessages,
    msg.data.data.Below w.udp.inputBuffer.buffer.chunk w.udp.inputBuffer.readOffset

/-- The values of the messages that were delivered and of those in the queue. -/
def World.values (w : World) : List NetMessage.Value :=
  w.delivered ++ w.udp.incomingMessages.map (NetMessage.value w.mem)

variable {debug : Bool} {chunkSize : Nat} {w : World} {ev : Event} {bs : List UInt8}

/-- The buffer after `n` bytes were taken from it. -/
theorem World.Holding.setBuffer {hd content : List UInt8} (h : w.Holding chunkSize (hd ++ content)) :
    (w.setBuffer (w.udp.inputBuffer.skip hd.length)).Holding chunkSize content :=
  ⟨h.buffer.skip, h.len, h.size, fun msg hm => (h.queue msg hm).mono (Nat.le_add_right ..)⟩

theorem World.Holding.nil (h : w.Holding chunkSize bs) : w.Holding chunkSize (bs ++ []) := by
  rwa [List.append_nil]

/-- The message of a frame is put on the queue, if it is one. -/
theorem decodeMessage_data {hd content : List UInt8} (h : w.Holding chunkSize (hd ++ content))
    (hlen : hd.length = frameHeadLen) (hhead : frameFormat.decodeHead hd = .ok ⟨.data, content.length⟩)
    (hpos : content ≠ []) (hread : MessageReadable debug content) :
    ∃ w', w.decodeMessage debug = .ok w' ∧ w'.Holding chunkSize [] ∧
      w'.values = w.values ++ (messageOf debug (hd ++ content)).toList := by
  have hrest := h.setBuffer
  obtain ⟨l, hbody, hwf, h0, hu, hbelow⟩ := h.buffer.skip.decodeData hpos
  have hframe := h.buffer.getFrame_head hlen hhead (Nat.le_refl _)
  rw [← hlen, hbody] at hframe
  have hmessage : messageOf debug (hd ++ content) =
      match readEnvelope debug Buf.bytes content with
      | .ok (.ok message) => some message
      | _ => none := by
    rw [messageOf, ← hlen, List.take_left, List.drop_left, hhead]
  obtain ⟨r, hr'⟩ := (readEnvelope_ok_iff debug content).mpr hread
  have hrel := deserialiseChunkLease_at debug w.mem hwf (by rw [h0]; exact Nat.zero_le _)
  rw [hu, hr'] at hrel
  have hdone := hrest.nil.setBuffer
  generalize hrun : deserialiseChunkLease debug w.mem l = run at hrel
  rw [hmessage, hr']
  cases hrel with
  | ok hrel =>
    cases hrel with
    | error e =>
      refine ⟨_, ?_, hdone, by simp [World.values, World.setBuffer]⟩
      simp only [World.decodeMessage, hframe, bind, Except.bind, hrun]
      rfl
    | @ok msg x hx =>
      obtain ⟨ref, rfl, hrwf, hr0, hbytes, hb⟩ := hx
      refine ⟨{ w with udp := { w.udp with
        inputBuffer := (w.udp.inputBuffer.skip hd.length).skip content.length
        incomingMessages := w.udp.incomingMessages ++ [x.1.withData (.chunkRef ref)] } }, ?_, ?_, ?_⟩
      · simp only [World.decodeMessage, hframe, bind, Except.bind, hrun]
        rfl
      · refine ⟨hdone.buffer, hdone.len, hdone.size, fun msg hm => ?_⟩
        rcases List.mem_append.mp hm with hm | hm
        · exact hdone.queue msg hm
        · rw [List.mem_singleton.mp hm]
          exact hb _ _ hbelow
      · have hvalue : NetMessage.value w.mem (x.1.withData (.chunkRef ref)) = x := by
          have hun : ref.unread w.mem = x.2 := by
            rw [ChunkRef.unread, ChunkLease.unread, show ref.lease.readPointer = 0 from hr0, List.drop_zero]
            exact hbytes
          show (x.1, ref.unread w.mem) = x
          rw [hun]
        simp [World.values, hvalue]

theorem decodeMessage_other {r : Except FramingError Frame} {d : DecodeBuffer}
    (h : w.udp.inputBuffer.getFrame w.mem = .ok (r, d)) (hr : ∀ l, r ≠ .ok (.data l)) :
    w.decodeMessage debug = .ok (w.setBuffer d) := by
  simp only [World.decodeMessage, h, bind, Except.bind]
  rfl

theorem messageOf_other {hd content : List UInt8} {head : FrameHead} (hlen : hd.length = frameHeadLen)
    (hhead : frameFormat.decodeHead hd = .ok head) (ht : head.frameType ≠ .data) :
    messageOf debug (hd ++ content) = none := by
  rw [messageOf, ← hlen, List.take_left, hhead]
  split
  · rename_i heq
    rw [Except.ok.inj heq] at ht
    exact absurd rfl ht
  · rfl

/-- A frame that is no data leaves the queue as it is. -/
theorem decodeMessage_frame {hd content : List UInt8} (h : w.Holding chunkSize (hd ++ content))
    (hlen : hd.length = frameHeadLen) {t : FrameType}
    (hhead : frameFormat.decodeHead hd = .ok ⟨t, content.length⟩) (ht : t ≠ .data) {r : Except FramingError Frame}
    (hbody : DecodeBuffer.decodeBody w.mem (w.udp.inputBuffer.skip hd.length) ⟨t, content.length⟩ =
      .ok (r, (w.udp.inputBuffer.skip hd.length).skip content.length)) (hr : ∀ l, r ≠ .ok (.data l)) :
    ∃ w', w.decodeMessage debug = .ok w' ∧ w'.Holding chunkSize [] ∧
      w'.values = w.values ++ (messageOf debug (hd ++ content)).toList := by
  have hframe := h.buffer.getFrame_head hlen hhead (Nat.le_refl _)
  rw [← hlen, hbody] at hframe
  refine ⟨_, decodeMessage_other hframe hr, h.setBuffer.nil.setBuffer, ?_⟩
  rw [messageOf_other hlen hhead ht, Option.toList_none, List.append_nil]
  rfl

/-- A clean datagram is taken from the buffer, and its message put on the queue. -/
theorem decodeMessage_clean (h : w.Holding chunkSize bs) (hc : Clean debug bs) (hne : bs ≠ []) :
    ∃ w', w.decodeMessage debug = .ok w' ∧ w'.Holding chunkSize [] ∧
      w'.values = w.values ++ (messageOf debug bs).toList := by
  cases hc with
  | empty => exact absurd rfl hne
  | noHead hlen hd =>
    obtain ⟨e, hframe⟩ := h.nil.buffer.getFrame_noHead hlen hd
    rw [← hlen] at hframe
    refine ⟨_, decodeMessage_other hframe (fun l hl => by cases hl), h.nil.setBuffer, ?_⟩
    have hmessage : messageOf debug bs = none := by
      rw [messageOf, List.take_of_length_le (Nat.le_of_eq hlen), hd]
    rw [hmessage, Option.toList_none, List.append_nil]
    rfl
  | data hlen hhead hpos hread => exact decodeMessage_data h hlen hhead hpos hread
  | hello hlen hhead haddr =>
    obtain ⟨f, hbody, hf⟩ := h.buffer.skip.decodeAddrBody haddr (.inl ⟨rfl, rfl⟩)
    exact decodeMessage_frame h hlen hhead (by decide) hbody fun l hl => hf l (Except.ok.inj hl)
  | start hlen hhead haddr =>
    obtain ⟨f, hbody, hf⟩ := h.buffer.skip.decodeAddrBody haddr (.inr ⟨rfl, rfl⟩)
    exact decodeMessage_frame h hlen hhead (by decide) hbody fun l hl => hf l (Except.ok.inj hl)
  | @bare _ t hlen hhead ht =>
    have hframe := h.nil.buffer.getFrame_head hlen hhead (Nat.le_refl _)
    rw [← hlen] at hframe
    obtain ⟨r, hbody, hr⟩ : ∃ r, DecodeBuffer.decodeBody w.mem (w.udp.inputBuffer.skip bs.length) ⟨t, 0⟩ =
        .ok (r, w.udp.inputBuffer.skip bs.length) ∧ ∀ l, r ≠ .ok (.data l) := by
      rcases ht with rfl | rfl | rfl
      · exact ⟨_, rfl, (fun l hl => by cases hl)⟩
      · exact ⟨_, rfl, (fun l hl => by cases hl)⟩
      · exact ⟨_, rfl, (fun l hl => by cases hl)⟩
    rw [hbody] at hframe
    refine ⟨_, decodeMessage_other hframe hr, h.nil.setBuffer, ?_⟩
    have hmessage : messageOf debug bs = none := by
      rw [← List.append_nil bs]
      refine messageOf_other hlen hhead ?_
      rcases ht with rfl | rfl | rfl <;> decide
    rw [hmessage, Option.toList_none, List.append_nil]
    rfl

/-- Swapping an empty buffer. -/
theorem swapBuffer_empty {m : Mem} {d : DecodeBuffer} (h : d.Holds m []) {other : BufferChunk}
    (hfree : other.free.1 = true) :
    d.swapBuffer m other =
      .ok (m, { d with buffer := other.free.2, readOffset := 0, writeOffset := 0 }, d.buffer.lock) := by
  have hlen := h.length
  rw [List.length_nil, Nat.add_zero] at hlen
  have hov : d.getOverflow = .ok (none, d) := by rw [DecodeBuffer.getOverflow, if_neg (by omega)]
  simp only [DecodeBuffer.swapBuffer, hfree, hov, bind, Except.bind]
  rfl

/-- There is room for a datagram after the chunk was swapped, if it had to be. -/
theorem prepare_spec (h : w.Holding chunkSize []) (hl : ev.Legal chunkSize w) :
    ∃ w', w.prepare ev.offer = .ok w' ∧ w'.Holding chunkSize [] ∧ w'.values = w.values ∧
      w'.udp.maxPacketSize ≤ w'.udp.inputBuffer.writeableLen := by
  unfold World.prepare
  by_cases hw : w.udp.inputBuffer.writeableLen < w.udp.maxPacketSize
  · obtain ⟨c, hoffer, hfree, hlen, -, hqueue⟩ := hl.offer hw
    obtain ⟨hu, hchunk, hclen⟩ := BufferChunk.free_unlocked hfree
    rw [if_pos hw, hoffer]
    simp only [swapBuffer_empty h.buffer hfree, bind, Except.bind]
    refine ⟨_, rfl,
      ⟨⟨⟨Nat.le_refl _, Nat.zero_le _, hu, ?_, ?_⟩, h.buffer.noHead, h.buffer.noChain, ?_⟩, ?_, h.size, ?_⟩,
      rfl, ?_⟩
    · intro l hl
      exact absurd (h.buffer.noChain.symm.trans hl) (by simp)
    · intro l hl
      exact absurd (h.buffer.noChain.symm.trans hl) (by simp)
    · show w.mem.bytes _ 0 (0 - 0) = []
      rfl
    · exact hclen.trans hlen
    · intro msg hm
      show msg.data.data.Below c.free.2.chunk 0
      rw [hchunk]
      exact hqueue msg hm
    · show w.udp.maxPacketSize ≤ c.free.2.len - 0
      rw [h.size, hclen, hlen]
      exact Nat.min_le_left ..
  · rw [if_neg hw]
    exact ⟨w, rfl, h, rfl, by omega⟩

theorem deliver_spec (h : w.Holding chunkSize bs) :
    w.deliver.Holding chunkSize bs ∧ w.deliver.values = w.values := by
  refine ⟨⟨h.buffer, h.len, h.size, (fun msg hm => by cases hm)⟩, ?_⟩
  simp [World.deliver, World.values]

/-- A datagram is written to the buffer. -/
theorem receive_spec (h : w.Holding chunkSize []) (hfits : bs.length ≤ w.udp.inputBuffer.writeableLen) :
    (w.receive ⟨w.udp.inputBuffer.buffer.chunk, w.udp.inputBuffer.writeOffset, w.udp.inputBuffer.writeableLen⟩
      bs).Holding chunkSize bs ∧
    (w.receive ⟨w.udp.inputBuffer.buffer.chunk, w.udp.inputBuffer.writeOffset, w.udp.inputBuffer.writeableLen⟩
      bs).values = w.values := by
  obtain ⟨hinv, -⟩ := w.udp.inputBuffer.view_write h.buffer.inv w.mem hfits
  have hoff := h.buffer.length
  rw [List.length_nil, Nat.add_zero] at hoff
  refine ⟨⟨⟨hinv, h.buffer.noHead, h.buffer.noChain, ?_⟩, h.len, h.size, h.queue⟩, ?_⟩
  · show (w.mem.write w.udp.inputBuffer.buffer.chunk w.udp.inputBuffer.writeOffset bs).bytes
      w.udp.inputBuffer.buffer.chunk w.udp.inputBuffer.readOffset
      (w.udp.inputBuffer.writeOffset + bs.length - w.udp.inputBuffer.readOffset) = bs
    rw [hoff, Nat.add_sub_cancel_left]
    exact Mem.bytes_write_self ..
  · refine congrArg (w.delivered ++ ·) (List.map_congr_left fun msg hm => ?_)
    have hsame := HeapOrSer.unread_write (h.queue msg hm) w.mem bs
    rw [← hoff] at hsame
    exact congrArg (Prod.mk _) hsame

/-- One round of a clean datagram delivers its message, and leaves nothing behind. -/
theorem round_spec (hcs : 128 ≤ chunkSize) (h : w.Holding chunkSize []) (hl : ev.Legal chunkSize w)
    (hc : ∀ bs, ev.received = .datagram bs → Clean debug bs) :
    ∃ r w', w.round debug ev = .ok (r, w') ∧ w'.Holding chunkSize [] ∧
      w'.values = w.values ++ (ev.message debug).toList := by
  obtain ⟨w₁, hprep, h₁, hv₁, hroom⟩ := prepare_spec h hl
  have hwrite : w₁.udp.inputBuffer.isWriteable = true := by
    refine decide_eq_true ?_
    have hsize := h₁.size
    unfold maxPacketSize at hsize
    omega
  have hbuf := w₁.udp.inputBuffer.getWriteable_spec h₁.buffer.inv
  rw [if_pos hwrite] at hbuf
  unfold World.round
  simp only [hprep, bind, Except.bind, if_neg (Nat.not_lt.mpr hroom), hbuf]
  cases hrecv : ev.received with
  | datagram bs =>
    have hmsg : ev.message debug = messageOf debug bs := by rw [Event.message, hrecv]
    cases bs with
    | nil =>
      refine ⟨_, w₁, rfl, h₁, ?_⟩
      rw [hmsg, hv₁]
      exact (List.append_nil _).symm
    | cons b bs =>
      have hfits := hl.fits _ _ hrecv hprep
      obtain ⟨hold, hvals⟩ := receive_spec h₁ hfits
      obtain ⟨w', hdec, hdone, hvals'⟩ := decodeMessage_clean hold (hc _ hrecv) (List.cons_ne_nil _ _)
      refine ⟨.again, w', ?_, hdone, ?_⟩
      · simp only [hdec]
        rfl
      · rw [hvals', hvals, hv₁, hmsg]
  | wouldBlock => exact ⟨_, w₁, rfl, h₁, by rw [Event.message, hrecv, hv₁]; simp⟩
  | interrupted => exact ⟨_, w₁, rfl, h₁, by rw [Event.message, hrecv, hv₁]; simp⟩
  | failed => exact ⟨_, w₁, rfl, h₁, by rw [Event.message, hrecv, hv₁]; simp⟩

theorem step_spec (hcs : 128 ≤ chunkSize) (h : w.Holding chunkSize []) (hl : ev.Legal chunkSize w)
    (hc : ∀ bs, ev.received = .datagram bs → Clean debug bs) :
    ∃ w', w.step debug ev = .ok w' ∧ w'.Holding chunkSize [] ∧
      w'.values = w.values ++ (ev.message debug).toList := by
  obtain ⟨r, w', hround, hold, hvals⟩ := round_spec hcs h hl hc
  obtain ⟨hdel, hdvals⟩ := deliver_spec hold
  unfold World.step
  simp only [hround, bind, Except.bind]
  cases r with
  | again => exact ⟨w', rfl, hold, hvals⟩
  | interrupted =>
    simp only
    by_cases hmax : maxInterrupts ≤ w'.interrupts + 1
    · exact ⟨w'.deliver, by rw [if_pos hmax]; rfl, hdel, hdvals.trans hvals⟩
    · exact ⟨{ w' with interrupts := w'.interrupts + 1 }, by rw [if_neg hmax]; rfl,
        ⟨hold.buffer, hold.len, hold.size, hold.queue⟩, hvals⟩
  | returned r => exact ⟨w'.deliver, rfl, hdel, hdvals.trans hvals⟩

/-- A run of clean datagrams, by induction on its rounds. -/
theorem run_spec (hcs : 128 ≤ chunkSize) {events : List Event} (h : w.Holding chunkSize [])
    (hl : LegalRun debug chunkSize w events)
    (hc : ∀ ev ∈ events, ∀ bs, ev.received = .datagram bs → Clean debug bs) :
    ∃ w', run debug w events = .ok w' ∧ w'.values = w.values ++ events.filterMap (Event.message debug) := by
  induction events generalizing w with
  | nil => exact ⟨w, rfl, (List.append_nil _).symm⟩
  | cons ev events ih =>
    obtain ⟨hev, hrest⟩ := hl
    obtain ⟨w₁, hstep, hold, hvals⟩ := step_spec hcs h hev (hc ev (List.mem_cons_self ..))
    obtain ⟨w', hrun, hvals'⟩ := ih hold (hrest w₁ hstep) fun ev' hm => hc ev' (List.mem_cons_of_mem _ hm)
    refine ⟨w', ?_, ?_⟩
    · simp only [run, hstep, bind, Except.bind, hrun]
    · rw [hvals', hvals, List.append_assoc, List.filterMap_cons]
      cases ev.message debug <;> rfl

/-- In every run of datagrams that are taken from the buffer as a whole, exactly the
messages of the datagrams come in, in their order: each as if it were alone. -/
theorem datagrams_delivered {cfg : PoolConfig} (hcfg : cfg.validate = .ok ()) {chunk : BufferChunk}
    (hu : chunk.locked = false) (hlen : chunk.len = cfg.chunkSize) (m : Mem) {events : List Event}
    (hl : LegalRun debug cfg.chunkSize (.new m chunk cfg) events)
    (hc : ∀ ev ∈ events, ∀ bs, ev.received = .datagram bs → Clean debug bs) :
    ∃ w, run debug (.new m chunk cfg) events = .ok w ∧
      w.delivered ++ w.udp.incomingMessages.map (NetMessage.value w.mem) =
        events.filterMap (Event.message debug) := by
  obtain ⟨w, hrun, hvals⟩ := run_spec (PoolConfig.of_validate hcfg).2 (w := .new m chunk cfg)
    ⟨⟨DecodeBuffer.inv_new hu _, rfl, rfl, rfl⟩, hlen, rfl, (fun msg hm => by cases hm)⟩ hl hc
  exact ⟨w, hrun, hvals⟩

/-- The configuration with the smallest chunks. -/
def smallConfig : PoolConfig := ⟨⟨0⟩, 128, 1, 2⟩

/-- The chunk is swapped after the first datagram, and that is the second one. -/
def twoDatagrams (first : List UInt8) : List Event :=
  [⟨none, .datagram first⟩, ⟨some ⟨2, 128, 1, false⟩, .datagram (dataFrame arrived)⟩]

/-- The run is possible if the chunk is swapped when nothing is in the queue. -/
theorem legalRun_twoDatagrams {first : List UInt8} {w₁ w₂ : World} (hfits : first.length ≤ 128)
    (hstep : World.step false (.new (fun _ _ => 0) ⟨1, 128, 1, false⟩ smallConfig) ⟨none, .datagram first⟩ = .ok w₁)
    (hfresh : w₁.udp.inputBuffer.Fresh 2) (hqueue : w₁.udp.incomingMessages = [])
    (hprep : w₁.prepare (some ⟨2, 128, 1, false⟩) = .ok w₂)
    (hroom : (dataFrame arrived).length ≤ w₂.udp.inputBuffer.writeableLen) :
    LegalRun false 128 (.new (fun _ _ => 0) ⟨1, 128, 1, false⟩ smallConfig) (twoDatagrams first) := by
  refine ⟨⟨fun h => absurd h (by decide), fun bs w' hbs hw => ?_⟩, fun w' hw' => ?_⟩
  · obtain rfl := Received.datagram.inj hbs
    obtain rfl := Except.ok.inj hw
    exact hfits
  · obtain rfl := Except.ok.inj (hstep.symm.trans hw')
    refine ⟨⟨fun _ => ⟨_, rfl, rfl, rfl, hfresh, fun msg hm => ?_⟩, fun bs w' hbs hw => ?_⟩, fun _ _ => trivial⟩
    · rw [hqueue] at hm
      cases hm
    · obtain rfl := Received.datagram.inj hbs
      obtain rfl := Except.ok.inj (hprep.symm.trans hw)
      exact hroom

/-- The envelope of the message in the second one. -/
def arrivedEnvelope : Envelope := ⟨.unique ⟨.tcp, .v4 1, 80⟩ 7, .unique ⟨.tcp, .v4 2, 80⟩ 8, 42⟩

/-- After a datagram with an `Ack`, a message is delivered. -/
theorem datagrams_delivered_ack :
    ∃ w, run false (.new (fun _ _ => 0) ⟨1, 128, 1, false⟩ smallConfig)
        (twoDatagrams [0xC0, 0xA1, 0xBA, 0x11, 0, 0, 0, 0, 6]) = .ok w ∧
      w.delivered ++ w.udp.incomingMessages.map (NetMessage.value w.mem) = [(arrivedEnvelope, [1, 2, 3])] := by
  have hclean := @clean_dataFrame false arrived (arrivedEnvelope, [1, 2, 3]) (by decide +kernel) (by decide +kernel)
  have hlegal : LegalRun false 128 (.new (fun _ _ => 0) ⟨1, 128, 1, false⟩ smallConfig)
      (twoDatagrams [0xC0, 0xA1, 0xBA, 0x11, 0, 0, 0, 0, 6]) :=
    legalRun_twoDatagrams (by decide) rfl (by decide) rfl rfl (by decide +kernel)
  have hall : ∀ ev ∈ twoDatagrams [0xC0, 0xA1, 0xBA, 0x11, 0, 0, 0, 0, 6], ∀ bs, ev.received = .datagram bs →
      Clean false bs := by
    intro ev hev bs hbs
    rcases List.mem_cons.mp hev with rfl | hev
    · obtain rfl := Received.datagram.inj hbs
      exact .bare rfl (by decide +kernel) (.inl rfl)
    · obtain rfl := List.mem_singleton.mp hev
      obtain rfl := Received.datagram.inj hbs
      exact hclean.1
  obtain ⟨w, hrun, hvals⟩ :=
    @datagrams_delivered false smallConfig rfl ⟨1, 128, 1, false⟩ rfl rfl (fun _ _ => 0) _ hlegal hall
  have hmsg : Event.message false ⟨some ⟨2, 128, 1, false⟩, .datagram (dataFrame arrived)⟩ =
      some (arrivedEnvelope, [1, 2, 3]) := hclean.2
  refine ⟨w, hrun, hvals.trans ?_⟩
  rw [twoDatagrams, List.filterMap_cons_none (by decide +kernel), List.filterMap_cons_some hmsg, List.filterMap_nil]

/-- After a datagram with the head of a frame that is not in it, the same message is
not delivered: it is taken for a part of that frame. -/
theorem not_delivered_head :
    LegalRun false 128 (.new (fun _ _ => 0) ⟨1, 128, 1, false⟩ smallConfig)
        (twoDatagrams [0xC0, 0xA1, 0xBA, 0x11, 0, 0, 0xFF, 0xFF, 2]) ∧
      messageOf false (dataFrame arrived) = some (arrivedEnvelope, [1, 2, 3]) ∧
      ∃ w, run false (.new (fun _ _ => 0) ⟨1, 128, 1, false⟩ smallConfig)
          (twoDatagrams [0xC0, 0xA1, 0xBA, 0x11, 0, 0, 0xFF, 0xFF, 2]) = .ok w ∧
        w.delivered = [] ∧ w.udp.incomingMessages = [] := by
  exact ⟨legalRun_twoDatagrams (by decide) rfl (by decide) rfl rfl (by decide +kernel), by decide +kernel, _, rfl, rfl,
    rfl⟩

end Udp

end Kompact
