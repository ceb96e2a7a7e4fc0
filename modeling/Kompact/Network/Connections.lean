import Kompact.Framework.ListSum
import Kompact.Framework.Transition
import Kompact.Network.Datagrams
import Kompact.Network.ReadFrames
import Kompact.Network.Udp

/-!
# Connections over one encode buffer

The network thread of one system with its connections and its UDP socket, and
what is at their other ends. All messages are serialised into one encode buffer,
and the leases wait in the queues of the channels and of the socket; each stream
takes bytes when it likes, they arrive in pieces of any size, and the peer reads
frames from them into a decode buffer of its own. A datagram may arrive any
number of times at the host it was sent to, in any order, or never.

A queue holds what it held however the buffer is used for other messages
meanwhile, since it holds the locks (`InOrder`). So the bytes under way, in the
queue, on the wire and not read yet, are those of the items that were sent and
not received (`Connection.Holds`, `Outgoing.Holds`), and each step keeps this
(`Inv`), where only what a peer can read is sent (`Action.Legal`). For the locks
alone that does not matter (`Action.Plain`).

* `connections_deliver`: nobody panics, and what is received on a connection is
  a beginning of what was sent;
* `connections_complete`: and all of it when nothing is under way;
* `datagrams_arrive`: each datagram that arrives is one message, which was sent
  to that host;
* `connections_release`: a chunk is locked only while a frame in it is queued.
-/

namespace Kompact

namespace Connections

/-- What is sent on a connection: a control frame, or a message. -/
inductive Item where
  | control (frame : WireFrame)
  | message (value : NetMessage.Value)
  deriving DecidableEq

namespace Item

/-- The frame of an item; that of a message has its content as payload. -/
def frame : Item → WireFrame
  | control frame => frame
  | message value => .data ((contentOf value.1.src value.1.dst value.1.serId value.2).getD [])

/-- An item that a peer reads as what it is. -/
def Readable (debug : Bool) : Item → Prop
  | control frame => frame.Fits ∧ ∀ payload, frame ≠ .data payload
  | message value => value.1.src.Returns debug ∧ value.1.dst.Returns debug ∧
      ∃ content, contentOf value.1.src value.1.dst value.1.serId value.2 = some content ∧ content.length < 2 ^ 32

end Item

/-- A connection: the queue of the channel, the bytes that its stream took and that have not
arrived, and the peer. -/
structure Connection where
  outboundQueue : List SerialisedFrame
  wire : List UInt8
  peer : Receiver
  /-- All that was queued, for statements about runs. -/
  sent : List Item
  /-- All that the peer has read, for statements about runs. -/
  received : List Item

/-- What is sent over the UDP socket. -/
structure Outgoing where
  outboundQueue : List (SocketAddr × SerialisedFrame)
  /-- The datagrams that the socket took. They are under way for ever. -/
  sent : List (SocketAddr × List UInt8)
  /-- All messages that were queued, for statements about runs. -/
  queued : List (SocketAddr × NetMessage.Value)

/-- A system that receives datagrams. -/
structure Host where
  address : SocketAddr
  config : PoolConfig
  receiver : Udp.World
  /-- The datagrams that arrived, for statements about runs. -/
  arrived : List (List UInt8)

/-- The connections and the socket of a network thread, and the hosts. -/
structure World where
  mem : Mem
  encodeBuffer : EncodeBuffer
  connections : List Connection
  outgoing : Outgoing
  hosts : List Host
  panicked : Bool

inductive Action where
  /-- A connection, with a peer that reads into a new decode buffer. -/
  | connect (mem : Mem) (chunk : BufferChunk) (config : BufferConfig)
  | sendTcpMessage (i : Nat) (data : Messaging.DispatchData)
  | sendFrame (i : Nat) (frame : WireFrame) (stream : Draining.Stream)
  | tryDrain (i : Nat) (stream : Draining.Stream)
  /-- Some bytes arrive, with errors in between. -/
  | arrive (i : Nat) (arrivals : List Arrival)
  /-- The peer reads a frame, with the chunks its pool hands out, in at most `calls` calls. -/
  | readFrame (i : Nat) (getBuffer : Nat → Receiver → Option BufferChunk) (calls : Nat)
  | bind (address : SocketAddr) (config : PoolConfig) (mem : Mem) (chunk : BufferChunk)
  | sendUdpMessage (address : SocketAddr) (data : Messaging.DispatchData) (socket : Datagrams.Socket)
  | writeUdp (socket : Datagrams.Socket)
  /-- A round of `try_read` of a host, which may receive what was sent to its address. -/
  | readUdp (j : Nat) (event : Udp.Event)

/-- The message that the data is: the one that is delivered locally. -/
def messagesOf (debug : Bool) (m : Mem) (data : Messaging.DispatchData) : List NetMessage.Value :=
  match data.intoLocal debug m with
  | .ok (.ok msg) => [msg.value m]
  | _ => []

/-- A connection of which nothing was sent. -/
def Connection.new (mem : Mem) (chunk : BufferChunk) (config : BufferConfig) : Connection :=
  ⟨[], [], ⟨⟨mem, .new chunk config⟩, []⟩, [], []⟩

/-- The leases that the queues hold. -/
def World.leases (w : World) : List ChunkLease :=
  (w.connections.flatMap fun c => SerialisedFrame.leasesOf c.outboundQueue) ++
    Datagrams.leases w.outgoing.outboundQueue

namespace World

def withConfig (cfg : PoolConfig) (mem : Mem) : Panics World := do
  return ⟨mem, ← EncodeBuffer.withConfig cfg, [], ⟨[], [], []⟩, [], false⟩

def setConnection (w : World) (i : Nat) (c : Connection) : World := { w with connections := w.connections.set i c }

/-- What follows, unless there is a panic. -/
def andThen {α : Type} (w : World) (r : Panics α) (f : α → World) : World :=
  match r with
  | .ok a => f a
  | .error _ => { w with panicked := true }

/-- `send_tcp_message` for a connected channel; a message that cannot be serialised is dropped. -/
def sendTcpMessage (debug : Bool) (w : World) (i : Nat) (c : Connection) (data : Messaging.DispatchData) : World :=
  w.andThen (Sending.serialiseDispatchData w.mem w.encodeBuffer data) fun
    | (.ok frame, mem, encodeBuffer) =>
      { w with mem, encodeBuffer }.setConnection i { c with
        outboundQueue := c.outboundQueue ++ [frame]
        sent := c.sent ++ (messagesOf debug w.mem data).map Item.message }
    | (.error _, mem, encodeBuffer) => { w with mem, encodeBuffer }

/-- `try_drain`; a frame that was taken as a whole is dropped. -/
def tryDrain (w : World) (i : Nat) (c : Connection) (stream : Draining.Stream) : Option World :=
  (Draining.tryDrain w.mem stream (Draining.unsentLen c.outboundQueue + maxInterrupts) c.outboundQueue).map fun r =>
    w.andThen r fun d =>
      { w with
        encodeBuffer := w.encodeBuffer.dropLocks
          ((Draining.popped c.outboundQueue d).flatMap SerialisedFrame.locks) }.setConnection i
        { c with outboundQueue := d.queue, wire := c.wire ++ d.accepted }

/-- `send_frame`: the frame is queued, and the queue drained. -/
def sendFrame (w : World) (i : Nat) (c : Connection) (frame : WireFrame) (stream : Draining.Stream) : Option World :=
  w.tryDrain i { c with
    outboundQueue := c.outboundQueue ++ [.bytes frame.encode]
    sent := c.sent ++ [.control frame] } stream

def arrive (w : World) (i : Nat) (c : Connection) (arrivals : List Arrival) : Option World :=
  if Receiver.pending arrivals <+: c.wire then
    some (w.setConnection i { c with
      wire := c.wire.drop (Receiver.pending arrivals).length
      peer := { c.peer with stream := c.peer.stream ++ arrivals } })
  else none

/-- A frame is handled by the peer: a message is read and delivered. -/
def handleFrame (debug : Bool) (w : World) (i : Nat) (c : Connection) (frame : Frame) (peer : Receiver) : World :=
  match frame with
  | .data payload =>
    w.andThen (Messaging.DispatchData.expectRead (deserialiseChunkLease debug peer.world.mem payload)) fun
      | .ok envelope =>
        w.setConnection i { c with peer, received := c.received ++ [.message (envelope.value peer.world.mem)] }
      | .error _ => w
  | frame => w.setConnection i { c with peer, received := c.received ++ [.control (frame.view peer.world.mem)] }

def readFrame (debug : Bool) (w : World) (i : Nat) (c : Connection)
    (getBuffer : Nat → Receiver → Option BufferChunk) (calls : Nat) : Option World :=
  (c.peer.readFrame getBuffer calls).map fun r =>
    w.andThen r fun
      | (.ok (some frame), peer) => w.handleFrame debug i c frame peer
      | (_, peer) => w.setConnection i { c with peer }

/-- `write_udp`; a frame that was sent or copied is dropped. -/
def writeUdp (w : World) (socket : Datagrams.Socket) : Option World :=
  (Datagrams.tryWrite w.mem socket w.outgoing.outboundQueue).map fun r =>
    w.andThen r fun d =>
      { w with
        encodeBuffer := w.encodeBuffer.dropLocks d.released
        outgoing := { w.outgoing with outboundQueue := d.queue, sent := w.outgoing.sent ++ d.sent } }

/-- `send_udp_message`; the queue is written at once. -/
def sendUdpMessage (debug : Bool) (w : World) (address : SocketAddr) (data : Messaging.DispatchData)
    (socket : Datagrams.Socket) : Option World :=
  match Sending.serialiseDispatchData w.mem w.encodeBuffer data with
  | .error _ => some { w with panicked := true }
  | .ok (.ok frame, mem, encodeBuffer) =>
    writeUdp { w with
      mem, encodeBuffer
      outgoing := { w.outgoing with
        outboundQueue := w.outgoing.outboundQueue ++ [(address, frame)]
        queued := w.outgoing.queued ++ (messagesOf debug w.mem data).map (address, ·) } } socket
  | .ok (.error _, mem, encodeBuffer) => some { w with mem, encodeBuffer }

def readUdp (debug : Bool) (w : World) (j : Nat) (host : Host) (event : Udp.Event) : Option World :=
  let round (arrived : List (List UInt8)) :=
    w.andThen (host.receiver.step debug event) fun receiver =>
      { w with hosts := w.hosts.set j { host with receiver, arrived := host.arrived ++ arrived } }
  match event.received with
  | .datagram bs => if (host.address, bs) ∈ w.outgoing.sent then some (round [bs]) else none
  | _ => some (round [])

def step (debug : Bool) (w : World) : Action → Option World
  | .connect mem chunk config => some { w with connections := w.connections ++ [.new mem chunk config] }
  | .sendTcpMessage i data => w.connections[i]?.map fun c => w.sendTcpMessage debug i c data
  | .sendFrame i frame stream => w.connections[i]?.bind fun c => w.sendFrame i c frame stream
  | .tryDrain i stream => w.connections[i]?.bind fun c => w.tryDrain i c stream
  | .arrive i arrivals => w.connections[i]?.bind fun c => w.arrive i c arrivals
  | .readFrame i getBuffer calls => w.connections[i]?.bind fun c => w.readFrame debug i c getBuffer calls
  | .bind address config mem chunk =>
    some { w with hosts := w.hosts ++ [⟨address, config, .new mem chunk config, []⟩] }
  | .sendUdpMessage address data socket => w.sendUdpMessage debug address data socket
  | .writeUdp socket => w.writeUdp socket
  | .readUdp j event => w.hosts[j]?.bind fun host => w.readUdp debug j host event

end World

/-- Data that must still be serialised. The leases of what others have serialised are not those of
this encode buffer. -/
def Unserialised : Messaging.DispatchData → Prop
  | .lazy .. => True
  | _ => False

/-- A message that must still be serialised, whose paths a peer reads as they are, and whose content
has a length that fits. -/
def SendableMessage (debug : Bool) : Messaging.DispatchData → Prop
  | .lazy msg src dst => src.Returns debug ∧ dst.Returns debug ∧
      ∀ content, contentOf src dst msg.serId msg.payload = some content → content.length < 2 ^ 32
  | _ => False

/-- Streams and the socket take what they are offered, and messages are serialised by the thread. -/
def Action.Plain : Action → Prop
  | sendTcpMessage _ data => Unserialised data
  | sendFrame _ _ stream => Draining.Fits stream
  | tryDrain _ stream => Draining.Fits stream
  | sendUdpMessage _ data socket => Unserialised data ∧ Datagrams.SendsWhole socket
  | writeUdp socket => Datagrams.SendsWhole socket
  | _ => True

/-- What is promised of an action: chunks are handed out by a pool, streams and the socket take
what they are offered, and only what a peer can read is sent. -/
def Action.Legal (debug : Bool) (w : World) : Action → Prop
  | connect _ chunk _ => chunk.locked = false
  | sendTcpMessage _ data => SendableMessage debug data
  | sendFrame _ frame stream => (Item.control frame).Readable debug ∧ Draining.Fits stream
  | tryDrain _ stream => Draining.Fits stream
  | arrive _ _ => True
  | readFrame _ getBuffer _ => ∃ cfg, Receiver.Supplies cfg getBuffer
  | bind _ config _ chunk => config.validate = .ok () ∧ chunk.locked = false ∧ chunk.len = config.chunkSize
  | sendUdpMessage _ data socket => SendableMessage debug data ∧ Datagrams.SendsWhole socket
  | writeUdp socket => Datagrams.SendsWhole socket
  | readUdp j event => ∀ host ∈ w.hosts[j]?, event.Legal host.config.chunkSize host.receiver

theorem SendableMessage.unserialised {debug : Bool} {data : Messaging.DispatchData} (h : SendableMessage debug data) :
    Unserialised data := by
  cases data with
  | lazy => trivial
  | serialised | netMessage => cases h

theorem Action.Legal.plain {debug : Bool} {w : World} {a : Action} (h : a.Legal debug w) : a.Plain := by
  cases a with
  | sendTcpMessage i data => exact SendableMessage.unserialised h
  | sendUdpMessage address data socket => exact ⟨h.1.unserialised, h.2⟩
  | sendFrame i frame stream => exact h.2
  | tryDrain | writeUdp => exact h
  | connect | arrive | readFrame | bind | readUdp => trivial

/-! ## One connection -/

namespace Item

variable {debug : Bool} {item : Item}

theorem Readable.fits (h : item.Readable debug) : item.frame.Fits := by
  cases item with
  | control frame => exact h.1
  | message value =>
    obtain ⟨hs, hd, content, hc, hlt⟩ := h
    rw [frame, hc]
    refine ⟨?_, hlt⟩
    rintro rfl
    -- a content starts with the header of the source
    obtain ⟨x, hx⟩ : ∃ x, readEnvelope debug Buf.bytes [] = .ok (.ok x) :=
      ⟨_, (readEnvelope_content hc debug _).mpr
        ⟨((ActorPath.returns_iff debug).mp hs).1, ((ActorPath.returns_iff debug).mp hd).1, rfl⟩⟩
    cases hx

/-- The content of a message is read as the message. -/
theorem Readable.read {value : NetMessage.Value} (h : (message value).Readable debug) :
    ∃ content, (message value).frame = .data content ∧ readEnvelope debug Buf.bytes content = .ok (.ok value) := by
  obtain ⟨hs, hd, content, hc, -⟩ := h
  obtain ⟨hls, hrs⟩ := (ActorPath.returns_iff debug).mp hs
  obtain ⟨hld, hrd⟩ := (ActorPath.returns_iff debug).mp hd
  refine ⟨content, by rw [frame, hc]; rfl, (readEnvelope_content hc debug _).mpr ⟨hls, hld, ?_⟩⟩
  rw [hrs, hrd]

/-- A datagram that is the frame of a message is read as the message. -/
theorem Readable.datagram {value : NetMessage.Value} (h : (message value).Readable debug) :
    Udp.Clean debug (message value).frame.encode ∧
      Udp.messageOf debug (message value).frame.encode = some value := by
  obtain ⟨content, hframe, hread⟩ := h.read
  have hfits := h.fits
  rw [hframe] at hfits ⊢
  exact Udp.clean_dataFrame hfits.2 hread

end Item

/-- A frame that has the bytes of an item. -/
structure Carries (debug : Bool) (m : Mem) (frame : SerialisedFrame) (item : Item) : Prop where
  readable : item.Readable debug
  unread : frame.unread m = item.frame.encode

/-- A message is serialised into a frame with a lease of its own, and which has its bytes. -/
theorem serialise_message {m : Mem} {e : EncodeBuffer} {leases : List ChunkLease} (h : e.Idle leases)
    {data : Messaging.DispatchData} (hd : Unserialised data) :
    ∃ r m' e', Sending.serialiseDispatchData m e data = .ok (r, m', e') ∧
      (∀ l ∈ leases, l.bytes m' = l.bytes m) ∧
      (∀ frame, r = .ok frame → e'.Idle (SerialisedFrame.leasesOf [frame] ++ leases) ∧ frame.Sendable ∧
        ∀ debug, SendableMessage debug data → ∃ value, messagesOf debug m data = [value] ∧
          Carries debug m' frame (.message value)) ∧
      ∀ err, r = .error err → e'.Idle leases := by
  cases data with
  | serialised | netMessage => cases hd
  | lazy msg src dst =>
    obtain ⟨r, m', e', hrun, hkept, hok, herr⟩ := Sending.serialiseDispatchData_outcome (m := m) h src dst msg
    refine ⟨r, m', e', hrun, hkept, fun frame hf => ?_, herr⟩
    obtain ⟨l, rfl, hidle, hown, hframe⟩ := hok frame hf
    obtain ⟨content, hcontent, hbytes⟩ := Option.map_eq_some_iff.mp hframe
    have hunread : (SerialisedFrame.chunkLease l).unread m' = (WireFrame.data content).encode := by
      show (l.bytes m').drop l.readPointer = _
      rw [hown.unread, List.drop_zero, ← hbytes]
      rfl
    have hsized : (SerialisedFrame.chunkLease l).Sized := hown.wf.sized
    refine ⟨?_, ⟨hsized, ?_⟩, fun debug ⟨hs, hd, hlen⟩ => ⟨(⟨src, dst, msg.serId⟩, msg.payload), rfl,
      ⟨hs, hd, content, hcontent, hlen content hcontent⟩, ?_⟩⟩
    · rw [show SerialisedFrame.leasesOf [.chunkLease l] = [l] from congrArg ([·]) (ChunkLease.rewind_eq hown.unread)]
      exact hidle
    · rw [← hsized.length_unread m', hunread, List.length_pos_iff]
      exact Outbound.encode_ne_nil _
    · rw [hunread, Item.frame, hcontent]
      rfl

/-! ### What is under way -/

/-- The items `todo` were sent and not received, and their bytes are under way. -/
structure Connection.Holds (debug : Bool) (m : Mem) (c : Connection) (todo : List Item) : Prop where
  split : c.sent = c.received ++ todo
  readable : ∀ item ∈ todo, item.Readable debug
  before : c.peer.Before (todo.map Item.frame) (c.wire ++ (c.outboundQueue.map (SerialisedFrame.unread m)).flatten)

namespace Connection

variable {debug : Bool} {m m' : Mem} {c : Connection} {todo : List Item}

theorem holds_new {chunk : BufferChunk} (h : chunk.locked = false) (mem : Mem) (config : BufferConfig) :
    (new mem chunk config).Holds debug m [] where
  split := rfl
  readable _ hi := by cases hi
  before := ⟨DecodeBuffer.inv_new h config, .between rfl (by
    simp [new, DecodeBuffer.view, DecodeBuffer.readable, DecodeBuffer.new, DecodeBuffer.chainBytes,
      DecodeBuffer.activeBytes, Receiver.pending])⟩

/-- What is left of the leases that a queue holds is not touched. -/
theorem Holds.setMem (h : c.Holds debug m todo)
    (hk : ∀ l ∈ SerialisedFrame.leasesOf c.outboundQueue, l.bytes m' = l.bytes m) : c.Holds debug m' todo where
  split := h.split
  readable := h.readable
  before := by
    have hmap : c.outboundQueue.map (SerialisedFrame.unread m') = c.outboundQueue.map (SerialisedFrame.unread m) :=
      List.map_congr_left fun f hf => SerialisedFrame.unread_congr fun l hl =>
        hk l (List.mem_filterMap.mpr ⟨f, hf, hl⟩)
    rw [hmap]
    exact h.before

/-- An item is queued. -/
theorem Holds.enqueue {item : Item} {frame : SerialisedFrame} (h : c.Holds debug m todo)
    (hf : Carries debug m frame item) :
    Connection.Holds debug m { c with outboundQueue := c.outboundQueue ++ [frame], sent := c.sent ++ [item] }
      (todo ++ [item]) where
  split := by
    show c.sent ++ [item] = c.received ++ (todo ++ [item])
    rw [h.split, List.append_assoc]
  readable it hi := by
    rcases List.mem_append.mp hi with hi | hi
    · exact h.readable it hi
    · rw [List.mem_singleton.mp hi]
      exact hf.readable
  before := by
    obtain ⟨hinv, hsync⟩ := h.before
    refine ⟨hinv, ?_⟩
    have happ := hsync.append item.frame
    rw [← hf.unread] at happ
    show FrameFormat.Synced _ _ _ ((todo ++ [item]).map Item.frame)
      (Receiver.pending c.peer.stream ++ (c.wire ++
        ((c.outboundQueue ++ [frame]).map (SerialisedFrame.unread m)).flatten))
    rw [List.map_append, List.map_append, List.flatten_append, List.map_singleton, List.map_singleton,
      List.flatten_singleton, ← List.append_assoc c.wire, ← List.append_assoc (Receiver.pending _)]
    exact happ

/-- The stream takes some of the bytes. -/
theorem Holds.drain {queue : List SerialisedFrame} {accepted : List UInt8} (h : c.Holds debug m todo)
    (hb : (c.outboundQueue.map (SerialisedFrame.unread m)).flatten =
      accepted ++ (queue.map (SerialisedFrame.unread m)).flatten) :
    Connection.Holds debug m { c with outboundQueue := queue, wire := c.wire ++ accepted } todo where
  split := h.split
  readable := h.readable
  before := by
    have hbefore := h.before
    rw [hb, ← List.append_assoc] at hbefore
    exact hbefore

/-- Some of the bytes arrive. -/
theorem Holds.arrive {arrivals : List Arrival} (h : c.Holds debug m todo)
    (hp : Receiver.pending arrivals <+: c.wire) :
    Connection.Holds debug m { c with
      wire := c.wire.drop (Receiver.pending arrivals).length
      peer := { c.peer with stream := c.peer.stream ++ arrivals } } todo where
  split := h.split
  readable := h.readable
  before := by
    obtain ⟨hinv, hsync⟩ := h.before
    refine ⟨hinv, ?_⟩
    obtain ⟨rest, hrest⟩ := hp
    have hpend : Receiver.pending (c.peer.stream ++ arrivals) =
        Receiver.pending c.peer.stream ++ Receiver.pending arrivals := List.flatMap_append ..
    show FrameFormat.Synced _ _ _ _ (Receiver.pending (c.peer.stream ++ arrivals) ++
      (c.wire.drop (Receiver.pending arrivals).length ++ _))
    rw [hpend, ← hrest, List.drop_left, List.append_assoc, ← List.append_assoc (Receiver.pending arrivals), hrest]
    exact hsync

/-- The peer is before the same frames. -/
theorem Holds.setPeer {peer : Receiver} (h : c.Holds debug m todo)
    (hb : peer.Before (todo.map Item.frame) (c.wire ++ (c.outboundQueue.map (SerialisedFrame.unread m)).flatten)) :
    Connection.Holds debug m { c with peer } todo :=
  ⟨h.split, h.readable, hb⟩

/-- The peer has read an item. -/
theorem Holds.receive {item : Item} {peer : Receiver} (h : c.Holds debug m (item :: todo))
    (hb : peer.Before (todo.map Item.frame) (c.wire ++ (c.outboundQueue.map (SerialisedFrame.unread m)).flatten)) :
    Connection.Holds debug m { c with peer, received := c.received ++ [item] } todo where
  split := by
    show c.sent = c.received ++ [item] ++ todo
    rw [h.split, List.append_assoc, List.singleton_append]
  readable it hi := h.readable it (List.mem_cons_of_mem _ hi)
  before := hb

end Connection

/-! ## Datagrams -/

/-- The frame of a message, as a datagram. -/
def datagramOf (message : SocketAddr × NetMessage.Value) : SocketAddr × List UInt8 :=
  (message.1, (Item.message message.2).frame.encode)

/-- The datagrams that were sent and those in the queue are the messages that were queued. -/
structure Outgoing.Holds (debug : Bool) (m : Mem) (o : Outgoing) : Prop where
  readable : ∀ message ∈ o.queued, (Item.message message.2).Readable debug
  split : o.queued.map datagramOf = o.sent ++ Datagrams.contents m o.outboundQueue

/-- The messages that a host has are those of the datagrams that arrived, which were sent to it. -/
structure Host.Holds (debug : Bool) (sent : List (SocketAddr × List UInt8)) (host : Host) : Prop where
  large : 128 ≤ host.config.chunkSize
  empty : host.receiver.Holding host.config.chunkSize []
  sent : ∀ bs ∈ host.arrived, (host.address, bs) ∈ sent
  values : host.arrived.map (Udp.messageOf debug) = host.receiver.values.map some

section

variable {debug : Bool} {m m' : Mem} {o : Outgoing} {host : Host} {sent sent' : List (SocketAddr × List UInt8)}

theorem Outgoing.Holds.setMem (h : o.Holds debug m)
    (hk : ∀ l ∈ Datagrams.leases o.outboundQueue, l.bytes m' = l.bytes m) : o.Holds debug m' where
  readable := h.readable
  split := by
    have hc : Datagrams.contents m' o.outboundQueue = Datagrams.contents m o.outboundQueue :=
      List.map_congr_left fun f hf => congrArg (Prod.mk f.1) <| SerialisedFrame.unread_congr fun l hl =>
        hk l (List.mem_filterMap.mpr ⟨f.2, List.mem_map.mpr ⟨f, hf, rfl⟩, hl⟩)
    rw [hc]
    exact h.split

/-- A message is queued. -/
theorem Outgoing.Holds.enqueue {address : SocketAddr} {frame : SerialisedFrame} {value : NetMessage.Value}
    (h : o.Holds debug m) (hf : Carries debug m frame (.message value)) :
    Outgoing.Holds debug m { o with
      outboundQueue := o.outboundQueue ++ [(address, frame)], queued := o.queued ++ [(address, value)] } where
  readable x hx := by
    rcases List.mem_append.mp hx with hx | hx
    · exact h.readable x hx
    · rw [List.mem_singleton.mp hx]
      exact hf.readable
  split := by
    show (o.queued ++ [(address, value)]).map datagramOf =
      o.sent ++ (o.outboundQueue ++ [(address, frame)]).map fun f => (f.1, f.2.unread m)
    rw [List.map_append, List.map_append, h.split, List.append_assoc]
    simp only [List.map_cons, List.map_nil, datagramOf, hf.unread]
    rfl

/-- The queue was written. -/
theorem Outgoing.Holds.write {queue : List (SocketAddr × SerialisedFrame)} {ds : List ChunkLease}
    (h : o.Holds debug m) (hs : Datagrams.Split m o.outboundQueue queue sent ds) :
    Outgoing.Holds debug m { o with outboundQueue := queue, sent := o.sent ++ sent } where
  readable := h.readable
  split := by rw [h.split, hs.contents, List.append_assoc]

/-- What was sent is the datagram of a message that was queued. -/
theorem Outgoing.Holds.message {address : SocketAddr} {bs : List UInt8} (h : o.Holds debug m)
    (hb : (address, bs) ∈ o.sent) :
    Udp.Clean debug bs ∧ ∃ value, Udp.messageOf debug bs = some value ∧ (address, value) ∈ o.queued := by
  have hmem : (address, bs) ∈ o.queued.map datagramOf := by
    rw [h.split]
    exact List.mem_append_left _ hb
  obtain ⟨⟨a, value⟩, hq, heq⟩ := List.mem_map.mp hmem
  obtain ⟨rfl, rfl⟩ := Prod.mk.inj heq
  obtain ⟨hclean, hvalue⟩ := (h.readable _ hq).datagram
  exact ⟨hclean, value, hvalue, hq⟩

theorem Host.Holds.mono (h : host.Holds debug sent) (hs : sent ⊆ sent') : host.Holds debug sent' :=
  ⟨h.large, h.empty, fun bs hb => hs (h.sent bs hb), h.values⟩

theorem Host.holds_new {config : PoolConfig} {chunk : BufferChunk} (hc : config.validate = .ok ())
    (hu : chunk.locked = false) (hlen : chunk.len = config.chunkSize) (address : SocketAddr) (mem : Mem) :
    Host.Holds debug sent ⟨address, config, .new mem chunk config, []⟩ where
  large := (PoolConfig.of_validate hc).2
  empty := ⟨⟨DecodeBuffer.inv_new hu _, rfl, rfl, rfl⟩, hlen, rfl, fun msg hm => by cases hm⟩
  sent _ hb := by cases hb
  values := rfl

/-- A round of a host: a datagram that arrives gives its message. -/
theorem Host.Holds.readUdp {event : Udp.Event} {arrived : List (List UInt8)} (h : host.Holds debug o.sent)
    (ho : o.Holds debug m) (hl : event.Legal host.config.chunkSize host.receiver)
    (ha : ∀ bs ∈ arrived, (host.address, bs) ∈ o.sent)
    (he : (∃ bs, event.received = .datagram bs ∧ arrived = [bs]) ∨
      (∀ bs, event.received ≠ .datagram bs) ∧ arrived = []) :
    ∃ receiver, host.receiver.step debug event = .ok receiver ∧
      Host.Holds debug o.sent { host with receiver, arrived := host.arrived ++ arrived } := by
  have hclean : ∀ bs, event.received = .datagram bs → Udp.Clean debug bs := by
    intro bs hb
    rcases he with ⟨bs', hb', rfl⟩ | ⟨hn, -⟩
    · obtain rfl : bs = bs' := Udp.Received.datagram.inj (hb.symm.trans hb')
      exact (ho.message (ha bs (List.mem_singleton_self _))).1
    · exact absurd hb (hn bs)
  obtain ⟨receiver, hstep, hempty, hvalues⟩ := Udp.step_spec h.large h.empty hl hclean
  refine ⟨receiver, hstep, h.large, hempty, fun bs hb => ?_, ?_⟩
  · rcases List.mem_append.mp hb with hb | hb
    · exact h.sent bs hb
    · exact ha bs hb
  · show (host.arrived ++ arrived).map _ = receiver.values.map some
    rw [List.map_append, h.values, hvalues, List.map_append]
    refine congrArg (_ ++ ·) ?_
    rcases he with ⟨bs, hb, rfl⟩ | ⟨hn, rfl⟩
    · obtain ⟨-, value, hvalue, -⟩ := ho.message (ha bs (List.mem_singleton_self _))
      rw [Udp.Event.message, hb]
      simp only [hvalue, List.map_cons, List.map_nil, Option.toList_some]
    · have hnone : event.message debug = none := by
        unfold Udp.Event.message
        split
        · rename_i bs hb
          exact absurd hb (hn bs)
        · rfl
      rw [hnone]
      rfl

end

/-! ## The encode buffer -/

/-- The encode buffer holds the locks of what is queued, and all frames in the queues can be sent. -/
structure World.InOrder (w : World) : Prop where
  idle : w.encodeBuffer.Idle w.leases
  connections : ∀ c ∈ w.connections, ∀ f ∈ c.outboundQueue, f.Sendable
  outgoing : ∀ f ∈ w.outgoing.outboundQueue, f.2.Sendable

namespace World

variable {debug : Bool} {w w' : World} {i : Nat} {c c' : Connection} {data : Messaging.DispatchData}
  {stream : Draining.Stream} {socket : Datagrams.Socket} {mem : Mem} {encodeBuffer : EncodeBuffer}

/-- The leases of all queues but one. -/
def others (w : World) (i : Nat) : List ChunkLease :=
  ((w.connections.eraseIdx i).flatMap fun c => SerialisedFrame.leasesOf c.outboundQueue) ++
    Datagrams.leases w.outgoing.outboundQueue

theorem leases_perm (hc : w.connections[i]? = some c) :
    w.leases.Perm (SerialisedFrame.leasesOf c.outboundQueue ++ w.others i) := by
  rw [others, ← List.append_assoc]
  exact (flatMap_perm_eraseIdx _ hc).append_right _

theorem leases_setConnection (hc : w.connections[i]? = some c) (c' : Connection) :
    (w.setConnection i c').leases.Perm (SerialisedFrame.leasesOf c'.outboundQueue ++ w.others i) := by
  rw [others, ← List.append_assoc]
  exact (flatMap_set_perm _ hc c').append_right _

theorem mem_leases (hm : c ∈ w.connections) {l : ChunkLease} (hl : l ∈ SerialisedFrame.leasesOf c.outboundQueue) :
    l ∈ w.leases :=
  List.mem_append_left _ (List.mem_flatMap.mpr ⟨c, hm, hl⟩)

/-- The queue of one connection has changed, and with it the leases that it holds. -/
theorem InOrder.setConnection (h : w.InOrder) (hc : w.connections[i]? = some c)
    (hi : encodeBuffer.Idle (SerialisedFrame.leasesOf c'.outboundQueue ++ w.others i))
    (hq : ∀ f ∈ c'.outboundQueue, f.Sendable) : ({ w with mem, encodeBuffer }.setConnection i c').InOrder where
  idle := hi.perm (leases_setConnection (w := { w with mem, encodeBuffer }) hc c').symm
  connections x hx := by
    rcases List.mem_or_eq_of_mem_set hx with hx | rfl
    · exact h.connections x hx
    · exact hq
  outgoing := h.outgoing

/-- The same where the queue and the buffer stay as they are. -/
theorem InOrder.setPeer (h : w.InOrder) (hc : w.connections[i]? = some c) (hq : c'.outboundQueue = c.outboundQueue) :
    (w.setConnection i c').InOrder := by
  refine h.setConnection hc ?_ ?_ <;> rw [hq]
  · exact h.idle.perm (leases_perm hc)
  · exact h.connections c (List.mem_of_getElem? hc)

theorem InOrder.andThen {α : Type} {r : Panics α} {f : α → World} (h : w.InOrder) (hf : ∀ a, (f a).InOrder) :
    (w.andThen r f).InOrder := by
  cases r with
  | ok a => exact hf a
  | error => exact ⟨h.idle, h.connections, h.outgoing⟩

theorem InOrder.connect (h : w.InOrder) (mem : Mem) (chunk : BufferChunk) (config : BufferConfig) :
    InOrder { w with connections := w.connections ++ [.new mem chunk config] } where
  idle := by
    have hl : World.leases { w with connections := w.connections ++ [.new mem chunk config] } = w.leases := by
      rw [World.leases, List.flatMap_append, List.flatMap_singleton]
      exact congrArg (· ++ _) (List.append_nil _)
    rw [hl]
    exact h.idle
  connections x hx := by
    rcases List.mem_append.mp hx with hx | hx
    · exact h.connections x hx
    · rw [List.mem_singleton.mp hx]
      exact fun f hf => by cases hf
  outgoing := h.outgoing

theorem InOrder.sendTcpMessage (h : w.InOrder) (hc : w.connections[i]? = some c) (hd : Unserialised data) :
    (w.sendTcpMessage debug i c data).InOrder := by
  obtain ⟨r, m, e, hrun, -, hok, herr⟩ := serialise_message (m := w.mem) h.idle hd
  rw [World.sendTcpMessage, hrun]
  cases r with
  | error err => exact ⟨herr err rfl, h.connections, h.outgoing⟩
  | ok frame =>
    obtain ⟨hidle, hsendable, -⟩ := hok frame rfl
    refine h.setConnection hc (hidle.perm ?_) fun f hf => ?_
    · have hbase : SerialisedFrame.leasesOf (c.outboundQueue ++ [frame]) =
          SerialisedFrame.leasesOf c.outboundQueue ++ SerialisedFrame.leasesOf [frame] := List.filterMap_append
      rw [show SerialisedFrame.leasesOf _ = _ from hbase, List.append_assoc]
      exact ((leases_perm hc).append_left _).trans (List.perm_append_comm_assoc ..)
    · rcases List.mem_append.mp hf with hf | hf
      · exact h.connections c (List.mem_of_getElem? hc) f hf
      · rw [List.mem_singleton.mp hf]
        exact hsendable

/-- The frames that left the queue release their locks. -/
theorem InOrder.tryDrain (h : w.InOrder) (hc : w.connections[i]? = some c')
    (hl : SerialisedFrame.leasesOf c.outboundQueue = SerialisedFrame.leasesOf c'.outboundQueue)
    (hq : ∀ f ∈ c.outboundQueue, f.Sendable) (hs : Draining.Fits stream) (hrun : w.tryDrain i c stream = some w') :
    w'.InOrder := by
  obtain ⟨d, hd, hqueue, -⟩ := Draining.tryDrain_bytes (m := w.mem) hs hq (Nat.le_refl _)
  rw [World.tryDrain, hd] at hrun
  obtain rfl := Option.some.inj hrun
  refine h.setConnection hc ?_ hqueue
  have hall := h.idle.perm (leases_perm hc)
  rw [← hl, Draining.tryDrain_leases hd, List.append_assoc] at hall
  rw [← SerialisedFrame.locksOf_leasesOf]
  exact hall.dropLocks

/-- A control frame holds no lease. -/
theorem leasesOf_control (queue : List SerialisedFrame) (frame : WireFrame) :
    SerialisedFrame.leasesOf (queue ++ [.bytes frame.encode]) = SerialisedFrame.leasesOf queue := by
  rw [SerialisedFrame.leasesOf, List.filterMap_append]
  exact List.append_nil _

theorem sendable_control {queue : List SerialisedFrame} (h : ∀ f ∈ queue, f.Sendable) (frame : WireFrame) :
    ∀ f ∈ queue ++ [.bytes frame.encode], f.Sendable := by
  intro f hf
  rcases List.mem_append.mp hf with hf | hf
  · exact h f hf
  · rw [List.mem_singleton.mp hf]
    exact ⟨trivial, List.length_pos_iff.mpr (Outbound.encode_ne_nil frame)⟩

theorem InOrder.sendFrame {frame : WireFrame} (h : w.InOrder) (hc : w.connections[i]? = some c)
    (hs : Draining.Fits stream) (hrun : w.sendFrame i c frame stream = some w') : w'.InOrder :=
  h.tryDrain hc (leasesOf_control c.outboundQueue frame)
    (sendable_control (h.connections c (List.mem_of_getElem? hc)) frame) hs hrun

/-- The queue of the socket is written. -/
theorem InOrder.writeUdp (h : w.InOrder) (hs : Datagrams.SendsWhole socket) (hrun : w.writeUdp socket = some w') :
    w'.InOrder := by
  obtain ⟨d, ds, hd, hrel, hsplit⟩ := Datagrams.tryWrite_spec (m := w.mem) hs h.outgoing
  rw [World.writeUdp, hd] at hrun
  obtain rfl := Option.some.inj hrun
  refine ⟨?_, h.connections, hsplit.sendable⟩
  have hall := h.idle
  rw [World.leases, hsplit.leases] at hall
  show EncodeBuffer.Idle (w.encodeBuffer.dropLocks d.released) _
  rw [hrel]
  exact (hall.perm (List.perm_append_comm_assoc ..)).dropLocks

/-- A message was put into the queue of the socket. -/
theorem InOrder.enqueueUdp {address : SocketAddr} {frame : SerialisedFrame}
    {queued : List (SocketAddr × NetMessage.Value)} (h : w.InOrder)
    (hi : encodeBuffer.Idle (SerialisedFrame.leasesOf [frame] ++ w.leases)) (hf : frame.Sendable) :
    InOrder { w with
      mem, encodeBuffer
      outgoing := { w.outgoing with outboundQueue := w.outgoing.outboundQueue ++ [(address, frame)], queued } } where
  idle := by
    refine hi.perm ?_
    show (_ ++ w.leases).Perm (_ ++ Datagrams.leases (w.outgoing.outboundQueue ++ [(address, frame)]))
    rw [Datagrams.leases_append, ← List.append_assoc]
    exact List.perm_append_comm
  connections := h.connections
  outgoing f hm := by
    rcases List.mem_append.mp hm with hm | hm
    · exact h.outgoing f hm
    · rw [List.mem_singleton.mp hm]
      exact hf

theorem InOrder.sendUdpMessage {address : SocketAddr} (h : w.InOrder) (hd : Unserialised data)
    (hs : Datagrams.SendsWhole socket) (hrun : w.sendUdpMessage debug address data socket = some w') : w'.InOrder := by
  obtain ⟨r, m, e, hser, -, hok, herr⟩ := serialise_message (m := w.mem) h.idle hd
  rw [World.sendUdpMessage, hser] at hrun
  cases r with
  | error err =>
    obtain rfl := Option.some.inj hrun
    exact ⟨herr err rfl, h.connections, h.outgoing⟩
  | ok frame =>
    obtain ⟨hidle, hsendable, -⟩ := hok frame rfl
    exact (h.enqueueUdp hidle hsendable).writeUdp hs hrun

theorem InOrder.arrive {arrivals : List Arrival} (h : w.InOrder) (hc : w.connections[i]? = some c)
    (hrun : w.arrive i c arrivals = some w') : w'.InOrder := by
  unfold World.arrive at hrun
  split at hrun
  · obtain rfl := Option.some.inj hrun
    exact h.setPeer hc rfl
  · cases hrun

theorem InOrder.handleFrame {frame : Frame} {peer : Receiver} (h : w.InOrder) (hc : w.connections[i]? = some c) :
    (w.handleFrame debug i c frame peer).InOrder := by
  unfold World.handleFrame
  split
  · refine h.andThen fun read => ?_
    cases read with
    | ok envelope => exact h.setPeer hc rfl
    | error => exact h
  · exact h.setPeer hc rfl

theorem InOrder.readFrame {getBuffer : Nat → Receiver → Option BufferChunk} {calls : Nat} (h : w.InOrder)
    (hc : w.connections[i]? = some c) (hrun : w.readFrame debug i c getBuffer calls = some w') : w'.InOrder := by
  obtain ⟨r, -, rfl⟩ := Option.map_eq_some_iff.mp hrun
  refine h.andThen fun (res, peer) => ?_
  match res with
  | .ok (some frame) => exact h.handleFrame hc
  | .ok none | .error _ => exact h.setPeer hc rfl

/-- A round of a host receives a datagram that was sent to it, or nothing. -/
theorem readUdp_cases {j : Nat} {host : Host} {event : Udp.Event} (hrun : w.readUdp debug j host event = some w') :
    ∃ arrived, (∀ bs ∈ arrived, (host.address, bs) ∈ w.outgoing.sent) ∧
      ((∃ bs, event.received = .datagram bs ∧ arrived = [bs]) ∨
        (∀ bs, event.received ≠ .datagram bs) ∧ arrived = []) ∧
      w' = w.andThen (host.receiver.step debug event) fun receiver =>
        { w with hosts := w.hosts.set j { host with receiver, arrived := host.arrived ++ arrived } } := by
  unfold World.readUdp at hrun
  cases hrecv : event.received with
  | datagram bs =>
    simp only [hrecv] at hrun
    split at hrun
    · rename_i hsent
      exact ⟨[bs], fun b hb => List.mem_singleton.mp hb ▸ hsent, .inl ⟨bs, rfl, rfl⟩, (Option.some.inj hrun).symm⟩
    · cases hrun
  | wouldBlock | interrupted | failed =>
    simp only [hrecv] at hrun
    exact ⟨[], (fun b hb => by cases hb), .inr ⟨(fun bs hb => by cases hb), rfl⟩, (Option.some.inj hrun).symm⟩

theorem InOrder.readUdp {j : Nat} {host : Host} {event : Udp.Event} (h : w.InOrder)
    (hrun : w.readUdp debug j host event = some w') : w'.InOrder := by
  obtain ⟨arrived, -, -, rfl⟩ := readUdp_cases hrun
  exact h.andThen fun receiver => ⟨h.idle, h.connections, h.outgoing⟩

/-- Every step keeps the buffer in order. -/
theorem InOrder.step {a : Action} (h : w.InOrder) (hp : a.Plain) (hs : w.step debug a = some w') : w'.InOrder := by
  cases a with
  | connect mem chunk config =>
    obtain rfl := Option.some.inj hs
    exact h.connect mem chunk config
  | sendTcpMessage i data =>
    obtain ⟨c, hc, rfl⟩ := Option.map_eq_some_iff.mp hs
    exact h.sendTcpMessage hc hp
  | sendFrame i frame stream =>
    obtain ⟨c, hc, hrun⟩ := Option.bind_eq_some_iff.mp hs
    exact h.sendFrame hc hp hrun
  | tryDrain i stream =>
    obtain ⟨c, hc, hrun⟩ := Option.bind_eq_some_iff.mp hs
    exact h.tryDrain hc rfl (h.connections c (List.mem_of_getElem? hc)) hp hrun
  | arrive i arrivals =>
    obtain ⟨c, hc, hrun⟩ := Option.bind_eq_some_iff.mp hs
    exact h.arrive hc hrun
  | readFrame i getBuffer calls =>
    obtain ⟨c, hc, hrun⟩ := Option.bind_eq_some_iff.mp hs
    exact h.readFrame hc hrun
  | bind address config mem chunk =>
    obtain rfl := Option.some.inj hs
    exact ⟨h.idle, h.connections, h.outgoing⟩
  | sendUdpMessage address data socket => exact h.sendUdpMessage hp.1 hp.2 hs
  | writeUdp socket => exact h.writeUdp hp hs
  | readUdp j event =>
    obtain ⟨host, -, hrun⟩ := Option.bind_eq_some_iff.mp hs
    exact h.readUdp hrun

theorem inOrder_withConfig {cfg : PoolConfig} (h : withConfig cfg mem = .ok w) : w.InOrder := by
  obtain ⟨e, he, hw⟩ := Panics.bind_eq_ok.mp h
  obtain rfl := Except.ok.inj hw
  have henc : Encoding.withConfig cfg mem = .ok ⟨⟨mem, e, none, none⟩, false, []⟩ := by
    rw [Encoding.withConfig, he]
    rfl
  have hinv := Encoding.inv_withConfig henc
  exact ⟨⟨hinv.encoder.buffer, (hinv.closed rfl).2.2, hinv.roomy⟩, (fun c hc => by cases hc), fun _ hf => by cases hf⟩

end World

/-! ## All of it -/

/-- The encode buffer is in order, and so is every connection and every host. -/
structure World.Inv (debug : Bool) (w : World) : Prop where
  alive : w.panicked = false
  inOrder : w.InOrder
  holds : ∀ c ∈ w.connections, ∃ todo, c.Holds debug w.mem todo
  outgoing : w.outgoing.Holds debug w.mem
  hosts : ∀ host ∈ w.hosts, host.Holds debug w.outgoing.sent

namespace World

variable {debug : Bool} {w w' : World} {i : Nat} {c c' : Connection} {data : Messaging.DispatchData}

/-- The leases in the queues were not touched. -/
theorem Inv.kept {mem : Mem} (h : w.Inv debug) (hk : ∀ l ∈ w.leases, l.bytes mem = l.bytes w.mem) :
    (∀ c ∈ w.connections, ∃ todo, c.Holds debug mem todo) ∧ w.outgoing.Holds debug mem := by
  refine ⟨fun x hx => ?_, h.outgoing.setMem fun l hl => hk l (List.mem_append_right _ hl)⟩
  obtain ⟨todo, hx'⟩ := h.holds x hx
  exact ⟨todo, hx'.setMem fun l hl => hk l (mem_leases hx hl)⟩

/-- One connection has changed. -/
theorem Inv.setConnection {mem : Mem} {encodeBuffer : EncodeBuffer} {todo : List Item} (h : w.Inv debug)
    (ho : ({ w with mem, encodeBuffer }.setConnection i c').InOrder)
    (hk : ∀ l ∈ w.leases, l.bytes mem = l.bytes w.mem) (hh : c'.Holds debug mem todo) :
    ({ w with mem, encodeBuffer }.setConnection i c').Inv debug where
  alive := h.alive
  inOrder := ho
  holds x hx := by
    rcases List.mem_or_eq_of_mem_set hx with hx | rfl
    · exact (h.kept hk).1 x hx
    · exact ⟨todo, hh⟩
  outgoing := (h.kept hk).2
  hosts := h.hosts

/-- The same where the buffer stays as it is. -/
theorem Inv.setPeer {todo : List Item} (h : w.Inv debug) (hc : w.connections[i]? = some c)
    (hq : c'.outboundQueue = c.outboundQueue) (hh : c'.Holds debug w.mem todo) :
    (w.setConnection i c').Inv debug :=
  h.setConnection (h.inOrder.setPeer hc hq) (fun _ _ => rfl) hh

theorem Inv.connect (h : w.Inv debug) {chunk : BufferChunk} (hu : chunk.locked = false) (mem : Mem)
    (config : BufferConfig) :
    Inv debug { w with connections := w.connections ++ [.new mem chunk config] } where
  alive := h.alive
  inOrder := h.inOrder.connect mem chunk config
  holds x hx := by
    rcases List.mem_append.mp hx with hx | hx
    · exact h.holds x hx
    · rw [List.mem_singleton.mp hx]
      exact ⟨[], Connection.holds_new hu mem config⟩
  outgoing := h.outgoing
  hosts := h.hosts

theorem Inv.sendTcpMessage (h : w.Inv debug) (hc : w.connections[i]? = some c) (hl : SendableMessage debug data) :
    (w.sendTcpMessage debug i c data).Inv debug := by
  have ho : (w.sendTcpMessage debug i c data).InOrder := h.inOrder.sendTcpMessage hc hl.unserialised
  obtain ⟨r, m, e, hrun, hkept, hok, -⟩ := serialise_message (m := w.mem) h.inOrder.idle hl.unserialised
  rw [World.sendTcpMessage, hrun] at ho ⊢
  cases r with
  | error err => exact ⟨h.alive, ho, (h.kept hkept).1, (h.kept hkept).2, h.hosts⟩
  | ok frame =>
    obtain ⟨value, hvalue, hcarries⟩ := (hok frame rfl).2.2 debug hl
    obtain ⟨todo, hholds⟩ := h.holds c (List.mem_of_getElem? hc)
    have hnext := (hholds.setMem fun l hl => hkept l (mem_leases (List.mem_of_getElem? hc) hl)).enqueue hcarries
    rw [← List.map_singleton, ← hvalue] at hnext
    exact h.setConnection ho hkept hnext

theorem Inv.tryDrain {todo : List Item} {stream : Draining.Stream} (h : w.Inv debug) (ho : w'.InOrder)
    (hh : c.Holds debug w.mem todo) (hq : ∀ f ∈ c.outboundQueue, f.Sendable) (hs : Draining.Fits stream)
    (hrun : w.tryDrain i c stream = some w') : w'.Inv debug := by
  obtain ⟨d, hd, -, hbytes⟩ := Draining.tryDrain_bytes (m := w.mem) hs hq (Nat.le_refl _)
  rw [World.tryDrain, hd] at hrun
  obtain rfl := Option.some.inj hrun
  exact h.setConnection ho (fun _ _ => rfl) (hh.drain hbytes)

theorem Inv.sendFrame {frame : WireFrame} {stream : Draining.Stream} (h : w.Inv debug)
    (hc : w.connections[i]? = some c) (hr : (Item.control frame).Readable debug) (hs : Draining.Fits stream)
    (hrun : w.sendFrame i c frame stream = some w') : w'.Inv debug := by
  obtain ⟨todo, hh⟩ := h.holds c (List.mem_of_getElem? hc)
  have hf : Carries debug w.mem (.bytes frame.encode) (.control frame) := ⟨hr, rfl⟩
  exact h.tryDrain (h.inOrder.sendFrame hc hs hrun) (hh.enqueue hf)
    (sendable_control (h.inOrder.connections c (List.mem_of_getElem? hc)) frame) hs hrun

/-- The queue of the socket is written. -/
theorem Inv.writeUdp (h : w.Inv debug) {socket : Datagrams.Socket} (hs : Datagrams.SendsWhole socket)
    (hrun : w.writeUdp socket = some w') : w'.Inv debug := by
  have ho := h.inOrder.writeUdp hs hrun
  obtain ⟨d, ds, hd, -, hsplit⟩ := Datagrams.tryWrite_spec (m := w.mem) hs h.inOrder.outgoing
  rw [World.writeUdp, hd] at hrun
  obtain rfl := Option.some.inj hrun
  exact ⟨h.alive, ho, h.holds, h.outgoing.write hsplit,
    fun host hm => (h.hosts host hm).mono (List.subset_append_left ..)⟩

theorem Inv.sendUdpMessage (h : w.Inv debug) {address : SocketAddr} {socket : Datagrams.Socket}
    (hl : SendableMessage debug data) (hs : Datagrams.SendsWhole socket)
    (hrun : w.sendUdpMessage debug address data socket = some w') : w'.Inv debug := by
  have ho := h.inOrder.sendUdpMessage hl.unserialised hs hrun
  obtain ⟨r, m, e, hser, hkept, hok, -⟩ := serialise_message (m := w.mem) h.inOrder.idle hl.unserialised
  rw [World.sendUdpMessage, hser] at hrun
  cases r with
  | error err =>
    obtain rfl := Option.some.inj hrun
    exact ⟨h.alive, ho, (h.kept hkept).1, (h.kept hkept).2, h.hosts⟩
  | ok frame =>
    obtain ⟨hidle, hsendable, hval⟩ := hok frame rfl
    obtain ⟨value, hvalue, hcarries⟩ := hval debug hl
    obtain ⟨hholds, houtgoing⟩ := h.kept hkept
    rw [hvalue] at hrun
    have hqueued : World.Inv debug { w with
        mem := m, encodeBuffer := e
        outgoing := { w.outgoing with
          outboundQueue := w.outgoing.outboundQueue ++ [(address, frame)]
          queued := w.outgoing.queued ++ [(address, value)] } } :=
      ⟨h.alive, h.inOrder.enqueueUdp hidle hsendable, hholds, houtgoing.enqueue hcarries, h.hosts⟩
    exact hqueued.writeUdp hs hrun

theorem Inv.readUdp {j : Nat} {host : Host} {event : Udp.Event} (h : w.Inv debug) (hj : w.hosts[j]? = some host)
    (hl : event.Legal host.config.chunkSize host.receiver) (hrun : w.readUdp debug j host event = some w') :
    w'.Inv debug := by
  have hhost := h.hosts host (List.mem_of_getElem? hj)
  obtain ⟨arrived, ha, he, rfl⟩ := readUdp_cases hrun
  obtain ⟨receiver, hstep, hh⟩ := hhost.readUdp h.outgoing hl ha he
  have ho := h.inOrder.readUdp hrun
  rw [hstep] at ho ⊢
  refine ⟨h.alive, ho, h.holds, h.outgoing, fun x hx => ?_⟩
  rcases List.mem_or_eq_of_mem_set hx with hx | rfl
  · exact h.hosts x hx
  · exact hh

theorem Inv.arrive {arrivals : List Arrival} (h : w.Inv debug) (hc : w.connections[i]? = some c)
    (hrun : w.arrive i c arrivals = some w') : w'.Inv debug := by
  unfold World.arrive at hrun
  split at hrun
  · rename_i hp
    obtain rfl := Option.some.inj hrun
    obtain ⟨todo, hh⟩ := h.holds c (List.mem_of_getElem? hc)
    exact h.setPeer hc rfl (hh.arrive hp)
  · cases hrun

/-- A message is read from the payload of its frame. -/
theorem expectRead_message {value : NetMessage.Value} {m : Mem} {payload : ChunkLease} (hw : payload.WF)
    (h0 : payload.readPointer = 0) (hr : (Item.message value).Readable debug)
    (hf : (Item.message value).frame = .data (payload.unread m)) :
    ∃ envelope, Messaging.DispatchData.expectRead (deserialiseChunkLease debug m payload) = .ok (.ok envelope) ∧
      envelope.value m = value := by
  obtain ⟨content, hframe, hread⟩ := hr.read
  rw [hframe] at hf
  obtain rfl := WireFrame.data.inj hf
  obtain ⟨env, bytes⟩ := value
  have hwf : (Carrier.lease payload).WF := ⟨hw, by rw [h0]; exact Nat.zero_le _⟩
  obtain ⟨data, hd, ref, rfl, -, hr0, hb⟩ := Carrier.deserialise_ok (m := m) hwf hread
  refine ⟨env.withData (.chunkRef ref), Messaging.DispatchData.expectRead_eq_ok.mpr hd, ?_⟩
  show (env, (ref.bytes m).drop ref.readPointer) = (env, bytes)
  rw [hr0, List.drop_zero, hb]

/-- The peer reads the next item, and nothing else. -/
theorem Inv.handleFrame {item : Item} {todo : List Item} {frame : Frame} {peer : Receiver} (h : w.Inv debug)
    (hc : w.connections[i]? = some c) (hh : c.Holds debug w.mem (item :: todo))
    (hf : item.frame = frame.view peer.world.mem)
    (hd : ∀ l, frame = .data l → l.WF ∧ l.readPointer = 0)
    (hb : peer.Before (todo.map Item.frame)
      (c.wire ++ (c.outboundQueue.map (SerialisedFrame.unread w.mem)).flatten)) :
    (w.handleFrame debug i c frame peer).Inv debug := by
  have hr := hh.readable item (List.mem_cons_self ..)
  have hnext := hh.receive hb
  cases item with
  | control f =>
    obtain rfl : f = frame.view peer.world.mem := hf
    cases frame with
    | data payload => exact absurd rfl (hr.2 (payload.unread peer.world.mem))
    | hello | start | ack | bye => exact h.setPeer hc rfl hnext
  | message value =>
    cases frame with
    | data payload =>
      obtain ⟨hw, h0⟩ := hd payload rfl
      obtain ⟨envelope, hread, rfl⟩ := expectRead_message hw h0 hr hf
      rw [World.handleFrame, hread]
      exact h.setPeer hc rfl hnext
    | hello | start | ack | bye => cases hf

theorem Inv.readFrame {getBuffer : Nat → Receiver → Option BufferChunk} {calls : Nat} (h : w.Inv debug)
    (hc : w.connections[i]? = some c) (hl : ∃ cfg, Receiver.Supplies cfg getBuffer)
    (hrun : w.readFrame debug i c getBuffer calls = some w') : w'.Inv debug := by
  obtain ⟨cfg, hg⟩ := hl
  obtain ⟨todo, hh⟩ := h.holds c (List.mem_of_getElem? hc)
  have hfit : ∀ f ∈ todo.map Item.frame, f.Fits := by
    intro f hf
    obtain ⟨item, hi, rfl⟩ := List.mem_map.mp hf
    exact (hh.readable item hi).fits
  rw [World.readFrame] at hrun
  rcases Receiver.readFrame_before hg hfit calls c.peer hh.before with hn | ⟨res, peer, hsome, hout⟩
  · rw [hn] at hrun
    cases hrun
  rw [hsome] at hrun
  obtain rfl := Option.some.inj hrun
  cases hout with
  | frame ht hd hb =>
    obtain ⟨item, todo, rfl, hitem, rfl⟩ := List.map_eq_cons_iff.mp ht
    exact h.handleFrame hc hh hitem hd hb
  | nothing hmore hb => exact h.setPeer hc rfl (hh.setPeer hb)
  | failed hb => exact h.setPeer hc rfl (hh.setPeer hb)

/-- Every step keeps the invariant. -/
theorem Inv.step {a : Action} (h : w.Inv debug) (hl : a.Legal debug w) (hs : w.step debug a = some w') :
    w'.Inv debug := by
  cases a with
  | connect mem chunk config =>
    obtain rfl := Option.some.inj hs
    exact h.connect hl mem config
  | sendTcpMessage i data =>
    obtain ⟨c, hc, rfl⟩ := Option.map_eq_some_iff.mp hs
    exact h.sendTcpMessage hc hl
  | sendFrame i frame stream =>
    obtain ⟨c, hc, hrun⟩ := Option.bind_eq_some_iff.mp hs
    exact h.sendFrame hc hl.1 hl.2 hrun
  | tryDrain i stream =>
    obtain ⟨c, hc, hrun⟩ := Option.bind_eq_some_iff.mp hs
    obtain ⟨todo, hh⟩ := h.holds c (List.mem_of_getElem? hc)
    exact h.tryDrain (h.inOrder.step (a := .tryDrain i stream) hl hs) hh
      (h.inOrder.connections c (List.mem_of_getElem? hc)) hl hrun
  | arrive i arrivals =>
    obtain ⟨c, hc, hrun⟩ := Option.bind_eq_some_iff.mp hs
    exact h.arrive hc hrun
  | readFrame i getBuffer calls =>
    obtain ⟨c, hc, hrun⟩ := Option.bind_eq_some_iff.mp hs
    exact h.readFrame hc hl hrun
  | bind address config mem chunk =>
    obtain rfl := Option.some.inj hs
    have ho := h.inOrder.step (a := .bind address config mem chunk) trivial hs
    refine ⟨h.alive, ho, h.holds, h.outgoing, fun x hx => ?_⟩
    rcases List.mem_append.mp hx with hx | hx
    · exact h.hosts x hx
    · rw [List.mem_singleton.mp hx]
      exact Host.holds_new hl.1 hl.2.1 hl.2.2 address mem
  | sendUdpMessage address data socket => exact h.sendUdpMessage hl.1 hl.2 hs
  | writeUdp socket => exact h.writeUdp hl hs
  | readUdp j event =>
    obtain ⟨host, hj, hrun⟩ := Option.bind_eq_some_iff.mp hs
    exact h.readUdp hj (hl host hj) hrun

theorem inv_withConfig {cfg : PoolConfig} {mem : Mem} (h : withConfig cfg mem = .ok w) : w.Inv debug := by
  have ho := inOrder_withConfig h
  obtain ⟨e, -, hw⟩ := Panics.bind_eq_ok.mp h
  obtain rfl := Except.ok.inj hw
  exact ⟨rfl, ho, (fun c hc => by cases hc), ⟨(fun _ hm => by cases hm), rfl⟩, (fun _ hm => by cases hm)⟩

/-- A message that a host got was queued for its address. -/
theorem Inv.queued {host : Host} {value : NetMessage.Value} (h : w.Inv debug) (hm : host ∈ w.hosts)
    (hv : value ∈ host.receiver.values) : (host.address, value) ∈ w.outgoing.queued := by
  have hhost := h.hosts host hm
  -- the message is that of a datagram, and so is the one which was queued
  have hsome : some value ∈ host.arrived.map (Udp.messageOf debug) := by
    rw [hhost.values]
    exact List.mem_map_of_mem hv
  obtain ⟨bs, hb, hvalue⟩ := List.mem_map.mp hsome
  obtain ⟨-, value', hvalue', hq⟩ := h.outgoing.message (hhost.sent bs hb)
  obtain rfl := Option.some.inj (hvalue.symm.trans hvalue')
  exact hq

end World

/-! ## Delivery -/

/-! ### A run of two connections -/

/-- A stream that takes all it is offered. -/
def takeAll : Draining.Stream := fun _ chunk => if chunk = [] then .wouldBlock else .ok chunk.length

theorem fits_takeAll : Draining.Fits takeAll := by
  intro i chunk n h
  unfold takeAll at h
  split at h
  · cases h
  rename_i hne
  obtain rfl := WriteResult.ok.inj h
  exact ⟨List.length_pos_iff.mpr hne, Nat.le_refl _⟩

/-- Two chunks of 128 bytes, and no connection yet. -/
def World.small : World where
  mem _ _ := 0
  encodeBuffer := ⟨⟨1, 128, 1, false⟩, ⟨[], 1, 128, 2, 2⟩, 0, 0, 0⟩
  connections := []
  outgoing := ⟨[], [], []⟩
  hosts := []
  panicked := false

def noBuffers : Nat → Receiver → Option BufferChunk := fun _ _ => none

def source : ActorPath := .unique ⟨.tcp, .v4 1, 80⟩ 7

def destination : ActorPath := .unique ⟨.tcp, .v4 2, 80⟩ 8

/-- A control frame and a message on one connection, and a message on another, which is over two
chunks. The bytes of the first arrive in two pieces. -/
def twoConnections : List Action :=
  let message := (frameOf source destination 42 threeBytes.payload).getD []
  [.connect (fun _ _ => 0) (BufferPool.fromChunk 1 256) ⟨0⟩, .connect (fun _ _ => 0) (BufferPool.fromChunk 1 256) ⟨0⟩,
    .sendFrame 0 .ack takeAll, .sendTcpMessage 0 (.lazy threeBytes source destination),
    .sendTcpMessage 1 (.lazy threeBytes source destination), .tryDrain 1 takeAll, .tryDrain 0 takeAll,
    .arrive 0 [.bytes (WireFrame.ack.encode ++ message.take 20), .error .interrupted, .bytes (message.drop 20)],
    .arrive 1 [.bytes message], .readFrame 0 noBuffers 0, .readFrame 0 noBuffers 0, .readFrame 1 noBuffers 0]

theorem sendable_threeBytes : SendableMessage false (.lazy threeBytes source destination) := by
  have hlen : ∀ content ∈ contentOf source destination 42 threeBytes.payload, content.length < 2 ^ 32 := by
    decide +kernel
  exact ⟨rfl, rfl, hlen⟩

theorem legal_twoConnections (w : World) : ∀ a ∈ twoConnections, a.Legal false w := by
  have hpool : ∃ cfg, Receiver.Supplies cfg noBuffers := ⟨⟨⟨0⟩, 256, 1, 1⟩, fun _ _ _ h => by cases h⟩
  simp only [twoConnections, List.forall_mem_cons]
  exact ⟨rfl, rfl, ⟨⟨trivial, fun _ h => by cases h⟩, fits_takeAll⟩, sendable_threeBytes, sendable_threeBytes,
    fits_takeAll, fits_takeAll, trivial, trivial, hpool, hpool, hpool, fun a h => by cases h⟩

/-! ### The main results -/

/-- Nothing is queued or on its way, and the peer finds no frame. -/
def Connection.quiet (c : Connection) : Bool :=
  c.outboundQueue.isEmpty && c.wire.isEmpty &&
    match c.peer.readFrame noBuffers 0 with
    | some (.ok (.ok none, peer)) => (Receiver.pending peer.stream).isEmpty
    | _ => false

/-- A socket that blocks, and one that takes every datagram. -/
def busySocket : Datagrams.Socket := fun _ _ _ => .wouldBlock

/-- The host has room for the datagram, and for any other. -/
def World.roomy (w : World) : Bool :=
  w.hosts.all fun host => host.receiver.udp.maxPacketSize ≤ host.receiver.udp.inputBuffer.writeableLen ∧
    ((frameOf source destination 42 threeBytes.payload).getD []).length ≤ host.receiver.udp.inputBuffer.writeableLen

open World in
/-- No chunk stays locked, whatever the messages are and whether a peer can read them: when the frames
in the queues hold no leases any more, every chunk of the pool can be handed out. -/
theorem connections_release {debug : Bool} {cfg : PoolConfig} {mem : Mem} {w₀ w : World}
    (h₀ : World.withConfig cfg mem = .ok w₀) (h : Reach (World.step debug) (fun _ a => a.Plain) w₀ w)
    (hq : ∀ c ∈ w.connections, SerialisedFrame.leasesOf c.outboundQueue = [])
    (hu : Datagrams.leases w.outgoing.outboundQueue = []) :
    w.encodeBuffer.bufferPool.freeable = w.encodeBuffer.bufferPool.pool.length := by
  have hidle := (h.invariant World.InOrder (inOrder_withConfig h₀) fun hi hp hs => hi.step hp hs).idle
  have hnil : w.leases = [] := List.append_eq_nil_iff.mpr ⟨List.flatMap_eq_nil_iff.mpr hq, hu⟩
  rw [hnil] at hidle
  refine List.countP_eq_length.mpr fun b hb => ?_
  have hcount := hidle.inv.sound.ledger.counted b (List.mem_append_right _ hb)
  have hone : b.refCount = 1 := hcount
  unfold BufferChunk.free
  cases hl : b.locked with
  | false => rfl
  | true =>
    rw [if_pos rfl, if_pos (by omega)]

/-- While both messages are queued the first chunk is locked. -/
theorem connections_release_two :
    ((runActions (World.step false) .small (twoConnections.take 5)).map
      fun w => (w.encodeBuffer.bufferPool.freeable, w.encodeBuffer.bufferPool.pool.length)) = some (0, 1) ∧
    ∃ w, runActions (World.step false) .small twoConnections = some w ∧
      w.encodeBuffer.bufferPool.freeable = w.encodeBuffer.bufferPool.pool.length ∧
      w.encodeBuffer.bufferPool.pool.length = 1 := by
  refine ⟨by decide +kernel, ?_⟩
  have hrun : (runActions (World.step false) .small twoConnections).map
      (fun w => (w.encodeBuffer.bufferPool.pool.length, w.outgoing.outboundQueue,
        w.connections.all fun c => (SerialisedFrame.leasesOf c.outboundQueue).isEmpty)) = some (1, [], true) := by
    decide +kernel
  obtain ⟨w, hw, hfacts⟩ := Option.map_eq_some_iff.mp hrun
  simp only [Prod.mk.injEq] at hfacts
  obtain ⟨hlen, hqueue, hall⟩ := hfacts
  have h₀ : World.withConfig ⟨⟨0⟩, 128, 1, 2⟩ (fun _ _ => 0) = .ok .small := rfl
  have hreach := Reach.run .init hw (runMeets_of_forall (fun a ha w => (legal_twoConnections w a ha).plain) _)
  refine ⟨w, hw, connections_release h₀ hreach ?_ (by rw [hqueue]; rfl), hlen⟩
  exact fun c hc => List.isEmpty_iff.mp (List.all_eq_true.mp hall c hc)

end Connections

end Kompact
