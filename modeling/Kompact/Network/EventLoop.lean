import Kompact.Network.Connections

/-!
# The event loop of the network thread

The thread polls for events, handles them one by one, and polls again; a poll
may sleep until there is an event. Other threads put events into the input queue
and then wake it.

A frame that is queued while the thread does something else is written later: an
event for its channel is put into `retryQueue`, or the stream did not take all of
it and the poll will report when it can take more. `Covered` says that for every
queue there is such a reason for which it is going to be looked at, and each
handler keeps it.

`sleeps_when_idle`: so where a poll sleeps, what is queued waits for a stream
that blocked or failed, and nothing that was sent to the thread is forgotten.
This needs nothing of the messages, the streams or the other ends.

The thread is not stopped, and connections are neither lost nor closed.
-/

namespace Kompact

namespace EventLoop

open Connections (Connection)

inductive Token where
  | tcpServer
  | udpSocket
  | dispatcher
  | channel (i : Nat)
  deriving DecidableEq, Repr

structure EventWithRetries where
  token : Token
  readable : Bool
  writeable : Bool
  retries : Nat
  deriving DecidableEq, Repr

def EventWithRetries.writeableWithToken (token : Token) : EventWithRetries := ⟨token, false, true, 0⟩

/-- The counter has 8 bits; where overflow is checked it panics. -/
def EventWithRetries.getRetryEvent (debug : Bool) (e : EventWithRetries) : Option EventWithRetries :=
  if debug = true ∧ e.retries = 255 then none else some { e with retries := (e.retries + 1) % 256 }

/-- What the dispatcher asks for: to send a message, or something for which control frames are sent. -/
inductive DispatchEvent where
  | sendTcp (i : Nat) (data : Messaging.DispatchData)
  | sendUdp (address : SocketAddr) (data : Messaging.DispatchData)
  | other

/-- How the last write to a stream or socket ended. -/
inductive LastWrite where
  | done
  | blocked
  | failed
  deriving DecidableEq, Repr

/-- How a read ends: with all that has arrived, with a connection that was started, or with no buffer
to read into. -/
inductive ReadEnd where
  | read
  | started
  | noBufferSpace
  deriving DecidableEq, Repr

/-- A control frame that is sent on a channel, and how the stream takes it. -/
structure Reply where
  channel : Nat
  frame : WireFrame
  stream : Draining.Stream

/-- What the handling of an event changes. -/
structure Queues where
  net : Connections.World
  channelWrite : Nat → LastWrite
  udpWrite : LastWrite
  retryQueue : List EventWithRetries
  outOfBuffers : Bool

structure NetworkThread extends Queues where
  inputQueue : List DispatchEvent
  /-- How many threads have sent an event and not woken the network thread yet. -/
  toWake : Nat
  /-- The poll will report the waker. -/
  woken : Bool
  /-- The events that are left to handle before the next poll. -/
  batch : List EventWithRetries
  /-- The thread takes events from the input queue. -/
  receiving : Bool

inductive Action where
  /-- Another thread sends an event. -/
  | send (event : DispatchEvent)
  | wake
  | poll (events : List EventWithRetries)
  /-- The next event is handled. What is read makes the thread reply. -/
  | handle (stream : Draining.Stream) (socket : Datagrams.Socket) (replies : List Reply) (ends : ReadEnd)
  | receive (socket : Datagrams.Socket) (replies : List Reply) (noBufferSpace : Bool)
  /-- Something happens at the other ends, or there is a new connection. -/
  | elsewhere (a : Connections.Action)

/-- How a write ended that left `queue`, with this result. -/
def writeEnd {α : Type} (queue : List α) (result : Option Nat) : LastWrite :=
  if queue = [] then .done else if result.isSome then .blocked else .failed

/-- How a drain of the queue ends. -/
def drainEnd (m : Mem) (queue : List SerialisedFrame) (stream : Draining.Stream) : LastWrite :=
  match Draining.tryDrain m stream (Draining.unsentLen queue + maxInterrupts) queue with
  | some (.ok d) => writeEnd d.queue d.result
  | _ => .failed

/-- How a write of the queue of the socket ends. -/
def socketEnd (m : Mem) (queue : List (SocketAddr × SerialisedFrame)) (socket : Datagrams.Socket) : LastWrite :=
  match Datagrams.tryWrite m socket queue with
  | some (.ok d) => writeEnd d.queue d.result
  | _ => .failed

/-- What happens at the other ends, and a new connection. -/
def isElsewhere : Connections.Action → Bool
  | .connect .. | .arrive .. | .readFrame .. | .bind .. | .readUdp .. => true
  | _ => false

namespace Queues

variable (debug : Bool)

def writeTcp (q : Queues) (i : Nat) (stream : Draining.Stream) : Option Queues :=
  match q.net.connections[i]? with
  | none => some q
  | some c => (q.net.step debug (.tryDrain i stream)).map fun net =>
    { q with net, channelWrite := Function.update q.channelWrite i (drainEnd q.net.mem c.outboundQueue stream) }

/-- A control frame is queued and the queue drained. -/
def sendFrame (q : Queues) (r : Reply) : Option Queues :=
  match q.net.connections[r.channel]? with
  | none => some q
  | some c => (q.net.step debug (.sendFrame r.channel r.frame r.stream)).map fun net =>
    { q with
      net
      channelWrite := Function.update q.channelWrite r.channel
        (drainEnd q.net.mem (c.outboundQueue ++ [.bytes r.frame.encode]) r.stream) }

def sendFrames (q : Queues) : List Reply → Option Queues
  | [] => some q
  | r :: rs => (q.sendFrame debug r).bind fun q => q.sendFrames rs

def writeUdp (q : Queues) (socket : Datagrams.Socket) : Option Queues :=
  (q.net.step debug (.writeUdp socket)).map fun net =>
    { q with net, udpWrite := socketEnd q.net.mem q.net.outgoing.outboundQueue socket }

/-- An error of the serialiser is logged; buffers may have been used up. -/
def serialiserFailed (q : Queues) (e : SerError) : Queues :=
  { q with outOfBuffers := q.outOfBuffers || e matches .noBuffersAvailable _ }

/-- `send_tcp_message`; the message is queued, to be written with the next events. For a channel that
is not there it is rejected. -/
def sendTcpMessage (q : Queues) (i : Nat) (data : Messaging.DispatchData) : Option Queues :=
  match q.net.connections[i]? with
  | none => some q
  | some _ => (q.net.step debug (.sendTcpMessage i data)).map fun net =>
    match Sending.serialiseDispatchData q.net.mem q.net.encodeBuffer data with
    | .ok (.error e, _, _) => { q with net }.serialiserFailed e
    | _ => { q with net, retryQueue := q.retryQueue ++ [.writeableWithToken (.channel i)] }

/-- `send_udp_message`; the queue is written at once. -/
def sendUdpMessage (q : Queues) (address : SocketAddr) (data : Messaging.DispatchData)
    (socket : Datagrams.Socket) : Option Queues :=
  (q.net.step debug (.sendUdpMessage address data socket)).map fun net =>
    match Sending.serialiseDispatchData q.net.mem q.net.encodeBuffer data with
    | .ok (.error e, _, _) => { q with net }.serialiserFailed e
    | .ok (.ok frame, mem, _) =>
      { q with net, udpWrite := socketEnd mem (q.net.outgoing.outboundQueue ++ [(address, frame)]) socket }
    | .error _ => { q with net, udpWrite := .failed }

/-- `retry_event`. After too many retries a connection is lost, where this is undefined. -/
def retryEvent (maxRetries : Nat) (q : Queues) (e : EventWithRetries) : Option Queues :=
  if e.retries ≤ maxRetries then
    (e.getRetryEvent debug).map fun e => { q with retryQueue := q.retryQueue ++ [e] }
  else match e.token with
    | .channel _ => none
    | _ => some q

/-- What `read_tcp` does to the queues. What has arrived behind the start of a connection is read when
the event is retried. -/
def readTcp (maxRetries : Nat) (q : Queues) (e : EventWithRetries) (replies : List Reply) (ends : ReadEnd) :
    Option Queues :=
  (q.sendFrames debug replies).bind fun q =>
    match ends with
    | .read => some q
    | .started => q.retryEvent debug maxRetries e
    | .noBufferSpace => { q with outOfBuffers := true }.retryEvent debug maxRetries e

/-- `read_udp`, over which no connection is started. -/
def readUdp (maxRetries : Nat) (q : Queues) (e : EventWithRetries) (ends : ReadEnd) : Option Queues :=
  if ends = .noBufferSpace then { q with outOfBuffers := true }.retryEvent debug maxRetries e else some q

/-- `handle_event`. What the dispatcher has sent is taken from the input queue afterwards, one by one. -/
def handleEvent (maxRetries : Nat) (q : Queues) (e : EventWithRetries) (stream : Draining.Stream)
    (socket : Datagrams.Socket) (replies : List Reply) (ends : ReadEnd) : Option Queues :=
  match e.token with
  | .tcpServer => q.sendFrames debug replies
  | .dispatcher => some q
  | .udpSocket =>
    (if e.writeable then q.writeUdp debug socket else some q).bind fun q =>
      if e.readable then q.readUdp debug maxRetries e ends else some q
  | .channel i =>
    (if e.writeable then q.writeTcp debug i stream else some q).bind fun q =>
      if e.readable then q.readTcp debug maxRetries e replies ends else some q

def handleDispatchEvent (q : Queues) (socket : Datagrams.Socket) (replies : List Reply) (noBufferSpace : Bool) :
    DispatchEvent → Option Queues
  | .sendTcp i data => q.sendTcpMessage debug i data
  | .sendUdp address data => q.sendUdpMessage debug address data socket
  | .other => (q.sendFrames debug replies).map fun q => { q with outOfBuffers := q.outOfBuffers || noBufferSpace }

/-- A poll has reported events; a stream that can take more is not reported again before the next write. -/
def reported (q : Queues) (events : List EventWithRetries) : Queues :=
  { q with
    retryQueue := []
    channelWrite := fun i =>
      if events.any (fun e => e.token = .channel i ∧ e.writeable) then .done else q.channelWrite i
    udpWrite := if events.any (fun e => e.token = .udpSocket ∧ e.writeable) then .done else q.udpWrite }

end Queues

/-- Whether a poll waits for no time, for some time, or until there is an event. -/
inductive PollTimeout where
  | zero
  | retryInterval
  | none
  deriving DecidableEq, Repr

namespace NetworkThread

def new (net : Connections.World) : NetworkThread :=
  ⟨⟨net, fun _ => .done, .done, [], false⟩, [], 0, false, [], false⟩

def getPollTimeout (s : NetworkThread) : PollTimeout :=
  if s.outOfBuffers then .retryInterval else if s.retryQueue = [] then .none else .zero

/-- All events of the poll are handled. -/
def Polls (s : NetworkThread) : Prop := s.batch = [] ∧ s.receiving = false

instance (s : NetworkThread) : Decidable s.Polls := inferInstanceAs (Decidable (_ ∧ _))

def send (s : NetworkThread) (event : DispatchEvent) : NetworkThread :=
  { s with inputQueue := s.inputQueue ++ [event], toWake := s.toWake + 1 }

def wake (s : NetworkThread) : Option NetworkThread :=
  if s.toWake = 0 then none else some { s with toWake := s.toWake - 1, woken := true }

/-- The thread polls; without a timeout some event is reported. -/
def poll (s : NetworkThread) (events : List EventWithRetries) : Option NetworkThread :=
  if s.Polls ∧ (s.getPollTimeout = .none → events ≠ []) then
    some { s with
      toQueues := s.toQueues.reported events
      batch := events ++ s.retryQueue
      woken := s.woken && events.all fun e => e.token ≠ .dispatcher }
  else none

/-- The next event of the batch is handled; where it is that of the waker, the thread receives afterwards. -/
def handleNext (debug : Bool) (maxRetries : Nat) (s : NetworkThread) (stream : Draining.Stream)
    (socket : Datagrams.Socket) (replies : List Reply) (ends : ReadEnd) : Option NetworkThread :=
  match s.receiving, s.batch with
  | false, e :: batch =>
    (s.toQueues.handleEvent debug maxRetries e stream socket replies ends).map fun q =>
      { s with toQueues := q, batch, receiving := e.token = .dispatcher }
  | _, _ => none

/-- One round of the loop of `receive_dispatch`. -/
def receiveDispatch (debug : Bool) (s : NetworkThread) (socket : Datagrams.Socket) (replies : List Reply)
    (noBufferSpace : Bool) : Option NetworkThread :=
  match s.receiving, s.inputQueue with
  | true, [] => some { s with receiving := false }
  | true, event :: inputQueue =>
    (s.toQueues.handleDispatchEvent debug socket replies noBufferSpace event).map fun q =>
      { s with toQueues := q, inputQueue }
  | false, _ => none

def step (debug : Bool) (maxRetries : Nat) (s : NetworkThread) : Action → Option NetworkThread
  | .send event => some (s.send event)
  | .wake => s.wake
  | .poll events => s.poll events
  | .handle stream socket replies ends => s.handleNext debug maxRetries stream socket replies ends
  | .receive socket replies noBufferSpace => s.receiveDispatch debug socket replies noBufferSpace
  | .elsewhere a => if isElsewhere a then (s.net.step debug a).map fun net => { s with net } else none

end NetworkThread

/-! ## What a write leaves -/

theorem writeEnd_done {α : Type} {queue : List α} {result : Option Nat} (h : writeEnd queue result = .done) :
    queue = [] := by
  unfold writeEnd at h
  split at h
  · assumption
  · split at h <;> cases h

section Writes

variable {debug : Bool} {net net' : Connections.World} {i : Nat} {c₀ c : Connection} {stream : Draining.Stream}
  {socket : Datagrams.Socket}

/-- A drain leaves nothing in the queue, or did not get through; other queues are not touched. -/
theorem queue_tryDrain (hc : net.connections[i]? = some c₀) (h : net.tryDrain i c stream = some net') :
    net'.outgoing = net.outgoing ∧ (∀ k, k ≠ i → net'.connections[k]? = net.connections[k]?) ∧
      ∀ c', net'.connections[i]? = some c' →
        c'.outboundQueue = [] ∨ drainEnd net.mem c.outboundQueue stream ≠ .done := by
  obtain ⟨r, hr, rfl⟩ := Option.map_eq_some_iff.mp h
  unfold drainEnd
  rw [hr]
  cases r with
  | error => exact ⟨rfl, fun _ _ => rfl, fun _ _ => .inr nofun⟩
  | ok d =>
    refine ⟨rfl, fun k hk => List.getElem?_set_ne (Ne.symm hk), fun c' hc' => ?_⟩
    have hlt : i < net.connections.length := (List.getElem?_eq_some_iff.mp hc).1
    obtain rfl := Option.some.inj ((List.getElem?_set_self hlt).symm.trans hc')
    exact or_iff_not_imp_right.mpr fun hd => writeEnd_done (not_not.mp hd)

/-- A message is put into one queue, if it can be serialised. -/
theorem queue_sendTcpMessage {data : Messaging.DispatchData}
    (h : net.step debug (.sendTcpMessage i data) = some net') :
    net'.outgoing = net.outgoing ∧ (∀ k, k ≠ i → net'.connections[k]? = net.connections[k]?) ∧
      ∀ e r, Sending.serialiseDispatchData net.mem net.encodeBuffer data = .ok (.error e, r) →
        net'.connections = net.connections := by
  obtain ⟨c, hc, rfl⟩ := Option.map_eq_some_iff.mp h
  unfold Connections.World.sendTcpMessage
  cases hser : Sending.serialiseDispatchData net.mem net.encodeBuffer data with
  | error => exact ⟨rfl, fun _ _ => rfl, fun _ _ _ => rfl⟩
  | ok r =>
    obtain ⟨res, mem, encodeBuffer⟩ := r
    cases res with
    | error => exact ⟨rfl, fun _ _ => rfl, fun _ _ _ => rfl⟩
    | ok frame =>
      refine ⟨rfl, fun k hk => List.getElem?_set_ne (Ne.symm hk), fun e r he => ?_⟩
      cases he

theorem queue_writeUdp (h : net.writeUdp socket = some net') :
    net'.connections = net.connections ∧
      (net'.outgoing.outboundQueue = [] ∨ socketEnd net.mem net.outgoing.outboundQueue socket ≠ .done) := by
  obtain ⟨r, hr, rfl⟩ := Option.map_eq_some_iff.mp h
  unfold socketEnd
  rw [hr]
  cases r with
  | error => exact ⟨rfl, .inr nofun⟩
  | ok d => exact ⟨rfl, or_iff_not_imp_right.mpr fun hd => writeEnd_done (not_not.mp hd)⟩

/-- Nothing is put into a queue. -/
def SameQueues (net net' : Connections.World) : Prop :=
  net'.outgoing = net.outgoing ∧ ∀ (i : Nat) (c' : Connection), net'.connections[i]? = some c' →
    c'.outboundQueue = [] ∨ ∃ c : Connection, net.connections[i]? = some c ∧ c'.outboundQueue = c.outboundQueue

theorem SameQueues.same (ho : net'.outgoing = net.outgoing) (hc : net'.connections = net.connections) :
    SameQueues net net' :=
  ⟨ho, fun _ c' hc' => .inr ⟨c', hc ▸ hc', rfl⟩⟩

theorem SameQueues.setConnection (hc : net.connections[i]? = some c₀) (hq : c.outboundQueue = c₀.outboundQueue) :
    SameQueues net (net.setConnection i c) := by
  refine ⟨rfl, fun k c' hc' => .inr ?_⟩
  have hlt : i < net.connections.length := (List.getElem?_eq_some_iff.mp hc).1
  by_cases hk : k = i
  · subst hk
    obtain rfl := Option.some.inj ((List.getElem?_set_self hlt).symm.trans hc')
    exact ⟨c₀, hc, hq⟩
  · exact ⟨c', (List.getElem?_set_ne (Ne.symm hk)).symm.trans hc', rfl⟩

theorem SameQueues.andThen {α : Type} {r : Panics α} {f : α → Connections.World} (h : ∀ a, SameQueues net (f a)) :
    SameQueues net (net.andThen r f) := by
  cases r with
  | ok a => exact h a
  | error => exact .same rfl rfl

theorem sameQueues_elsewhere {a : Connections.Action} (ha : isElsewhere a = true) (h : net.step debug a = some net') :
    SameQueues net net' := by
  cases a with
  | sendTcpMessage | sendFrame | tryDrain | sendUdpMessage | writeUdp => cases ha
  | connect mem chunk config =>
    obtain rfl := Option.some.inj h
    refine ⟨rfl, fun k c' hc' => ?_⟩
    rw [List.getElem?_append] at hc'
    split at hc'
    · exact .inr ⟨c', hc', rfl⟩
    · have hmem := List.mem_of_getElem? hc'
      rw [List.mem_singleton.mp hmem]
      exact .inl rfl
  | arrive i arrivals =>
    obtain ⟨c, hc, h⟩ := Option.bind_eq_some_iff.mp h
    unfold Connections.World.arrive at h
    split at h
    · obtain rfl := Option.some.inj h
      exact .setConnection hc rfl
    · cases h
  | readFrame i getBuffer calls =>
    obtain ⟨c, hc, h⟩ := Option.bind_eq_some_iff.mp h
    obtain ⟨r, -, rfl⟩ := Option.map_eq_some_iff.mp h
    refine .andThen fun (res, peer) => ?_
    match res with
    | .ok (some (.data payload)) =>
      refine .andThen fun read => ?_
      cases read with
      | ok envelope => exact .setConnection hc rfl
      | error => exact .same rfl rfl
    | .ok (some (.hello _)) | .ok (some (.start _ _)) | .ok (some .ack) | .ok (some .bye) =>
      exact .setConnection hc rfl
    | .ok none | .error _ => exact .setConnection hc rfl
  | bind address config mem chunk =>
    obtain rfl := Option.some.inj h
    exact .same rfl rfl
  | readUdp j event =>
    obtain ⟨host, -, h⟩ := Option.bind_eq_some_iff.mp h
    obtain ⟨arrived, -, -, rfl⟩ := Connections.World.readUdp_cases h
    exact .andThen fun receiver => .same rfl rfl

end Writes

/-! ## Why a queue is looked at again -/

/-- There is an event to write for a token. -/
def Expected (events : List EventWithRetries) (token : Token) : Prop :=
  ∃ e ∈ events, e.token = token ∧ e.writeable = true

/-- Each queue is empty, or its last write did not get through, or there is an event for it, of those which
are left to handle or among the retries. -/
structure Covered (batch : List EventWithRetries) (q : Queues) : Prop where
  channel : ∀ (i : Nat) (c : Connection), q.net.connections[i]? = some c →
    c.outboundQueue = [] ∨ q.channelWrite i ≠ .done ∨ Expected (batch ++ q.retryQueue) (.channel i)
  udp : q.net.outgoing.outboundQueue = [] ∨ q.udpWrite ≠ .done ∨ Expected (batch ++ q.retryQueue) .udpSocket

section Covered

variable {debug : Bool} {events events' batch batch' : List EventWithRetries} {e : EventWithRetries} {q q' : Queues}
  {maxRetries : Nat}

theorem Expected.mono {token : Token} (h : Expected events token) (hs : events ⊆ events') : Expected events' token := by
  obtain ⟨e, he, hw⟩ := h
  exact ⟨e, hs he, hw⟩

/-- An event for something else was not meant. -/
theorem Expected.drop {token : Token} (h : Expected (e :: events) token) (he : e.token ≠ token ∨ e.writeable = false) :
    Expected events token := by
  obtain ⟨e', hm, ht, hw⟩ := h
  rcases List.mem_cons.mp hm with rfl | hm
  · rcases he with he | he
    · exact absurd ht he
    · cases hw.symm.trans he
  · exact ⟨e', hm, ht, hw⟩

theorem Expected.retry {token : Token} {retryQueue : List EventWithRetries} (h : Expected (batch ++ retryQueue) token)
    (events : List EventWithRetries) : Expected (batch ++ (retryQueue ++ events)) token := by
  rw [← List.append_assoc]
  exact h.mono (List.subset_append_left ..)

/-- What is covered stays so where no event for a channel or the socket goes missing. -/
theorem Covered.imp {retryQueue : List EventWithRetries} (h : Covered batch q)
    (hx : ∀ token, token ≠ .tcpServer → token ≠ .dispatcher → Expected (batch ++ q.retryQueue) token →
      Expected (batch' ++ retryQueue) token) : Covered batch' { q with retryQueue } :=
  ⟨fun i c hc => (h.channel i c hc).imp_right (Or.imp_right (hx _ nofun nofun)),
    h.udp.imp_right (Or.imp_right (hx _ nofun nofun))⟩

theorem Covered.mono (h : Covered batch q) (hs : batch ⊆ batch') : Covered batch' q := by
  have hmore : batch ++ q.retryQueue ⊆ batch' ++ q.retryQueue :=
    List.append_subset.mpr ⟨List.subset_append_of_subset_left _ hs, List.subset_append_right ..⟩
  exact h.imp fun _ _ _ hx => hx.mono hmore

/-- Nothing waits for an event that is not one to write. -/
theorem Covered.drop (h : Covered (e :: batch) q)
    (he : e.writeable = false ∨ e.token = .tcpServer ∨ e.token = .dispatcher) : Covered batch q := by
  refine h.imp fun token h₁ h₂ hx => Expected.drop hx ?_
  rcases he with he | he | he
  · exact .inr he
  · exact .inl fun ht => h₁ (ht.symm.trans he)
  · exact .inl fun ht => h₂ (ht.symm.trans he)

/-- After a write to channel `i` nothing waits for the event. -/
theorem Covered.written {i : Nat} {net : Connections.World} {last : LastWrite} (h : Covered (e :: batch) q)
    (he : e.token = .channel i) (hout : net.outgoing = q.net.outgoing)
    (hother : ∀ k, k ≠ i → net.connections[k]? = q.net.connections[k]?)
    (hself : ∀ c, net.connections[i]? = some c → c.outboundQueue = [] ∨ last ≠ .done) :
    Covered batch { q with net, channelWrite := Function.update q.channelWrite i last } := by
  have hdrop : ∀ token, token ≠ .channel i → Expected (e :: batch ++ q.retryQueue) token →
      Expected (batch ++ q.retryQueue) token :=
    fun token hne hx => hx.drop (.inl fun ht => hne (ht.symm.trans he))
  refine ⟨fun k c hc => ?_, ?_⟩
  · show c.outboundQueue = [] ∨ Function.update q.channelWrite i last k ≠ .done ∨ _
    by_cases hk : k = i
    · subst hk
      rw [Function.update_self]
      exact (hself c hc).imp_right .inl
    · rw [Function.update_of_ne hk]
      exact (h.channel k c ((hother k hk).symm.trans hc)).imp_right
        (Or.imp_right (hdrop _ fun heq => hk (Token.channel.inj heq)))
  · show net.outgoing.outboundQueue = [] ∨ _
    rw [hout]
    exact h.udp.imp_right (Or.imp_right (hdrop _ nofun))

/-- A write to a channel, for which the event was. -/
theorem Covered.writeTcp {i : Nat} {stream : Draining.Stream} (h : Covered (e :: batch) q)
    (he : e.token = .channel i) (hs : q.writeTcp debug i stream = some q') :
    Covered batch q' := by
  unfold Queues.writeTcp at hs
  split at hs
  · rename_i hnone
    obtain rfl := Option.some.inj hs
    have hself : ∀ c, q.net.connections[i]? = some c → c.outboundQueue = [] ∨ q.channelWrite i ≠ .done := by
      intro c hc
      rw [hnone] at hc
      cases hc
    have hcov := h.written he rfl (fun _ _ => rfl) hself
    rwa [Function.update_eq_self] at hcov
  · rename_i c hc
    obtain ⟨net, hnet, rfl⟩ := Option.map_eq_some_iff.mp hs
    obtain ⟨c', hc', hrun⟩ := Option.bind_eq_some_iff.mp hnet
    obtain rfl := Option.some.inj (hc.symm.trans hc')
    obtain ⟨hout, hother, hself⟩ := queue_tryDrain hc hrun
    exact h.written he hout hother hself

theorem Covered.writeUdp {socket : Datagrams.Socket} (h : Covered (e :: batch) q)
    (he : e.token = .udpSocket) (hs : q.writeUdp debug socket = some q') : Covered batch q' := by
  obtain ⟨net, hnet, rfl⟩ := Option.map_eq_some_iff.mp hs
  obtain ⟨hconn, hout⟩ := queue_writeUdp hnet
  refine ⟨fun k c hc => ?_, hout.imp_right .inl⟩
  refine (h.channel k c ((congrArg (·[k]?) hconn).symm.trans hc)).imp_right (Or.imp_right (·.drop (.inl ?_)))
  rw [he]
  nofun

/-- Control frames are written at once. -/
theorem Covered.sendFrame {r : Reply} (h : Covered batch q) (hs : q.sendFrame debug r = some q') :
    Covered batch q' := by
  unfold Queues.sendFrame at hs
  split at hs
  · exact Option.some.inj hs ▸ h
  · rename_i c hc
    obtain ⟨net, hnet, rfl⟩ := Option.map_eq_some_iff.mp hs
    obtain ⟨c', hc', hrun⟩ := Option.bind_eq_some_iff.mp hnet
    obtain rfl := Option.some.inj (hc.symm.trans hc')
    obtain ⟨hout, hother, hself⟩ := queue_tryDrain hc hrun
    have hmore : Covered (.writeableWithToken (.channel r.channel) :: batch) q :=
      h.mono (List.subset_cons_self ..)
    exact hmore.written rfl hout hother hself

theorem Covered.sendFrames {rs : List Reply} (h : Covered batch q) (hs : q.sendFrames debug rs = some q') :
    Covered batch q' := by
  induction rs generalizing q with
  | nil => exact Option.some.inj hs ▸ h
  | cons r rs ih =>
    obtain ⟨q₁, hs₁, hs⟩ := Option.bind_eq_some_iff.mp hs
    exact ih (h.sendFrame hs₁) hs

/-- More may be retried. -/
theorem Covered.retry (h : Covered batch q) (events : List EventWithRetries) :
    Covered batch { q with retryQueue := q.retryQueue ++ events } :=
  h.imp fun _ _ _ hx => hx.retry events

theorem Covered.setOutOfBuffers (h : Covered batch q) (outOfBuffers : Bool) :
    Covered batch { q with outOfBuffers } := ⟨h.channel, h.udp⟩

theorem Covered.retryEvent (h : Covered batch q) (hs : q.retryEvent debug maxRetries e = some q') :
    Covered batch q' := by
  unfold Queues.retryEvent at hs
  split at hs
  · obtain ⟨e', -, rfl⟩ := Option.map_eq_some_iff.mp hs
    exact h.retry [e']
  · split at hs
    · cases hs
    · exact Option.some.inj hs ▸ h

theorem Covered.readTcp {replies : List Reply} {ends : ReadEnd} (h : Covered batch q)
    (hs : q.readTcp debug maxRetries e replies ends = some q') : Covered batch q' := by
  obtain ⟨q₁, hs₁, hs⟩ := Option.bind_eq_some_iff.mp hs
  have h₁ := h.sendFrames hs₁
  cases ends with
  | read => exact Option.some.inj hs ▸ h₁
  | started => exact h₁.retryEvent hs
  | noBufferSpace => exact (h₁.setOutOfBuffers true).retryEvent hs

theorem Covered.readUdp {ends : ReadEnd} (h : Covered batch q)
    (hs : q.readUdp debug maxRetries e ends = some q') : Covered batch q' := by
  unfold Queues.readUdp at hs
  split at hs
  · exact (h.setOutOfBuffers true).retryEvent hs
  · exact Option.some.inj hs ▸ h

/-- An event is handled: what was waiting for it is covered by something else. -/
theorem Covered.handleEvent {stream : Draining.Stream} {socket : Datagrams.Socket} {replies : List Reply}
    {ends : ReadEnd} (h : Covered (e :: batch) q)
    (hs : q.handleEvent debug maxRetries e stream socket replies ends = some q') : Covered batch q' := by
  unfold Queues.handleEvent at hs
  split at hs
  · rename_i ht
    exact (h.drop (.inr (.inl ht))).sendFrames hs
  · rename_i ht
    exact Option.some.inj hs ▸ h.drop (.inr (.inr ht))
  · rename_i ht
    obtain ⟨q₁, hs₁, hs⟩ := Option.bind_eq_some_iff.mp hs
    have h₁ : Covered batch q₁ := by
      split at hs₁
      · exact h.writeUdp ht hs₁
      · rename_i hw
        exact Option.some.inj hs₁ ▸ h.drop (.inl (Bool.eq_false_iff.mpr hw))
    split at hs
    · exact h₁.readUdp hs
    · exact Option.some.inj hs ▸ h₁
  · rename_i i ht
    obtain ⟨q₁, hs₁, hs⟩ := Option.bind_eq_some_iff.mp hs
    have h₁ : Covered batch q₁ := by
      split at hs₁
      · exact h.writeTcp ht hs₁
      · rename_i hw
        exact Option.some.inj hs₁ ▸ h.drop (.inl (Bool.eq_false_iff.mpr hw))
    split at hs
    · exact h₁.readTcp hs
    · exact Option.some.inj hs ▸ h₁

/-- A message that is queued is expected to be written. -/
theorem Covered.sendTcpMessage {i : Nat} {data : Messaging.DispatchData} (h : Covered batch q)
    (hs : q.sendTcpMessage debug i data = some q') : Covered batch q' := by
  unfold Queues.sendTcpMessage at hs
  split at hs
  · exact Option.some.inj hs ▸ h
  obtain ⟨net, hnet, rfl⟩ := Option.map_eq_some_iff.mp hs
  obtain ⟨hout, hother, hfailed⟩ := queue_sendTcpMessage hnet
  have hudp : net.outgoing.outboundQueue = [] ∨ q.udpWrite ≠ .done ∨ Expected (batch ++ q.retryQueue) .udpSocket :=
    hout ▸ h.udp
  split
  · rename_i e r₁ r₂ hser
    have hconn := hfailed e _ hser
    exact ⟨fun k c hc => h.channel k c ((congrArg (·[k]?) hconn).symm.trans hc), hudp⟩
  · refine ⟨fun k c hc => ?_, hudp.imp_right (Or.imp_right (·.retry _))⟩
    by_cases hk : k = i
    · subst hk
      exact .inr (.inr ⟨.writeableWithToken (.channel k), by simp, rfl, rfl⟩)
    · exact (h.channel k c ((hother k hk).symm.trans hc)).imp_right (Or.imp_right (·.retry _))

theorem Covered.sendUdpMessage {address : SocketAddr} {data : Messaging.DispatchData} {socket : Datagrams.Socket}
    (h : Covered batch q) (hs : q.sendUdpMessage debug address data socket = some q') : Covered batch q' := by
  obtain ⟨net, hnet, rfl⟩ := Option.map_eq_some_iff.mp hs
  replace hnet : q.net.sendUdpMessage debug address data socket = some net := hnet
  unfold Connections.World.sendUdpMessage at hnet
  cases hser : Sending.serialiseDispatchData q.net.mem q.net.encodeBuffer data with
  | error =>
    rw [hser] at hnet
    obtain rfl := Option.some.inj hnet
    exact ⟨h.channel, .inr (.inl nofun)⟩
  | ok r =>
    obtain ⟨res, mem, encodeBuffer⟩ := r
    rw [hser] at hnet
    cases res with
    | error =>
      obtain rfl := Option.some.inj hnet
      exact ⟨h.channel, h.udp⟩
    | ok frame =>
      obtain ⟨hconn, hout⟩ := queue_writeUdp hnet
      exact ⟨fun k c hc => h.channel k c ((congrArg (·[k]?) hconn).symm.trans hc), hout.imp_right .inl⟩

theorem Covered.handleDispatchEvent {socket : Datagrams.Socket} {replies : List Reply} {noBufferSpace : Bool}
    {event : DispatchEvent} (h : Covered batch q)
    (hs : q.handleDispatchEvent debug socket replies noBufferSpace event = some q') : Covered batch q' := by
  cases event with
  | sendTcp i data => exact h.sendTcpMessage hs
  | sendUdp address data => exact h.sendUdpMessage hs
  | other =>
    obtain ⟨q₁, hs₁, rfl⟩ := Option.map_eq_some_iff.mp hs
    exact (h.sendFrames hs₁).setOutOfBuffers _

/-- What a poll does not report any more it has reported, and the retries are handled next. -/
theorem Covered.reported (h : Covered [] q) (events : List EventWithRetries) :
    Covered (events ++ q.retryQueue) (q.reported events) := by
  have hexpected : ∀ token, events.any (fun e => e.token = token ∧ e.writeable) = true →
      Expected (events ++ q.retryQueue ++ []) token := by
    intro token hany
    obtain ⟨e, he, hw⟩ := List.any_eq_true.mp hany
    exact ⟨e, by simp [he], of_decide_eq_true hw⟩
  have hmore : [] ++ q.retryQueue ⊆ events ++ q.retryQueue ++ [] := by simp
  refine ⟨fun i c hc => ?_, ?_⟩
  · show _ ∨ (if _ then LastWrite.done else q.channelWrite i) ≠ .done ∨ _
    split
    · rename_i hany
      exact .inr (.inr (hexpected _ hany))
    · exact (h.channel i c hc).imp_right (Or.imp_right (·.mono hmore))
  · show _ ∨ (if _ then LastWrite.done else q.udpWrite) ≠ .done ∨ _
    split
    · rename_i hany
      exact .inr (.inr (hexpected _ hany))
    · exact h.udp.imp_right (Or.imp_right (·.mono hmore))

theorem Covered.elsewhere {a : Connections.Action} {net : Connections.World} (h : Covered batch q)
    (ha : isElsewhere a = true) (hs : q.net.step debug a = some net) : Covered batch { q with net } := by
  obtain ⟨hout, hconn⟩ := sameQueues_elsewhere ha hs
  refine ⟨fun i c' hc' => ?_, ?_⟩
  · rcases hconn i c' hc' with hnil | ⟨c, hc, hq⟩
    · exact .inl hnil
    · rw [hq]
      exact h.channel i c hc
  · show net.outgoing.outboundQueue = [] ∨ _
    rw [hout]
    exact h.udp

end Covered

/-! ## The thread -/

structure NetworkThread.Inv (s : NetworkThread) : Prop where
  covered : Covered s.batch s.toQueues
  /-- What is in the input queue is going to be received. -/
  told : s.inputQueue = [] ∨ s.woken = true ∨ 0 < s.toWake ∨ s.receiving = true ∨ ∃ e ∈ s.batch, e.token = .dispatcher

namespace NetworkThread

variable {debug : Bool} {s s' : NetworkThread} {maxRetries : Nat}

theorem inv_new {net : Connections.World} (hc : net.connections = []) (ho : net.outgoing.outboundQueue = []) :
    (new net).Inv where
  covered := by
    refine ⟨fun i c hi => ?_, .inl ho⟩
    have hnone : ([] : List Connection)[i]? = some c := hc ▸ hi
    cases hnone
  told := .inl rfl

theorem Inv.send (h : s.Inv) (event : DispatchEvent) : (s.send event).Inv :=
  ⟨h.covered, .inr (.inr (.inl (Nat.succ_pos _)))⟩

theorem Inv.wake (h : s.Inv) (hs : s.wake = some s') : s'.Inv := by
  unfold NetworkThread.wake at hs
  split at hs
  · cases hs
  · obtain rfl := Option.some.inj hs
    exact ⟨h.covered, .inr (.inl rfl)⟩

/-- Between two polls nothing is received any more. -/
theorem Inv.told_polls (h : s.Inv) (hp : s.Polls) : s.inputQueue = [] ∨ s.woken = true ∨ 0 < s.toWake := by
  obtain ⟨hb, hr⟩ := hp
  rcases h.told with hi | hw | ht | hr' | ⟨e, he, -⟩
  · exact .inl hi
  · exact .inr (.inl hw)
  · exact .inr (.inr ht)
  · cases hr.symm.trans hr'
  · rw [hb] at he
    cases he

theorem Inv.poll {events : List EventWithRetries} (h : s.Inv) (hs : s.poll events = some s') : s'.Inv := by
  unfold NetworkThread.poll at hs
  split at hs
  · rename_i hp
    obtain ⟨hp, -⟩ := hp
    obtain rfl := Option.some.inj hs
    refine ⟨Covered.reported (hp.1 ▸ h.covered) events, ?_⟩
    by_cases hd : ∃ e ∈ events, e.token = .dispatcher
    · obtain ⟨e, he, ht⟩ := hd
      exact .inr (.inr (.inr (.inr ⟨e, List.mem_append_left _ he, ht⟩)))
    · -- the waker was not reported
      have hall : (events.all fun e => e.token ≠ .dispatcher) = true :=
        List.all_eq_true.mpr fun e he => decide_eq_true fun ht => hd ⟨e, he, ht⟩
      rcases h.told_polls hp with hi | hw | ht
      · exact .inl hi
      · exact .inr (.inl (Bool.and_eq_true_iff.mpr ⟨hw, hall⟩))
      · exact .inr (.inr (.inl ht))
  · cases hs

theorem Inv.handleNext {stream : Draining.Stream} {socket : Datagrams.Socket} {replies : List Reply}
    {ends : ReadEnd} (h : s.Inv) (hs : s.handleNext debug maxRetries stream socket replies ends = some s') :
    s'.Inv := by
  unfold NetworkThread.handleNext at hs
  split at hs
  · rename_i e batch hr hb
    obtain ⟨q, hq, rfl⟩ := Option.map_eq_some_iff.mp hs
    refine ⟨Covered.handleEvent (hb ▸ h.covered) hq, ?_⟩
    rcases h.told with hi | hw | ht | hr' | ⟨e', he, ht⟩
    · exact .inl hi
    · exact .inr (.inl hw)
    · exact .inr (.inr (.inl ht))
    · cases hr.symm.trans hr'
    · rw [hb] at he
      rcases List.mem_cons.mp he with rfl | he
      · exact .inr (.inr (.inr (.inl (decide_eq_true ht))))
      · exact .inr (.inr (.inr (.inr ⟨e', he, ht⟩)))
  · cases hs

theorem Inv.receiveDispatch {socket : Datagrams.Socket} {replies : List Reply} {noBufferSpace : Bool}
    (h : s.Inv) (hs : s.receiveDispatch debug socket replies noBufferSpace = some s') : s'.Inv := by
  unfold NetworkThread.receiveDispatch at hs
  split at hs
  · rename_i hi
    obtain rfl := Option.some.inj hs
    exact ⟨h.covered, .inl hi⟩
  · rename_i event inputQueue hr hi
    obtain ⟨q, hq, rfl⟩ := Option.map_eq_some_iff.mp hs
    exact ⟨h.covered.handleDispatchEvent hq, .inr (.inr (.inr (.inl hr)))⟩
  · cases hs

/-- Every step keeps the invariant. -/
theorem Inv.step {a : Action} (h : s.Inv) (hs : s.step debug maxRetries a = some s') : s'.Inv := by
  cases a with
  | send event => exact Option.some.inj hs ▸ h.send event
  | wake => exact h.wake hs
  | poll events => exact h.poll hs
  | handle stream socket replies ends => exact h.handleNext hs
  | receive socket replies noBufferSpace => exact h.receiveDispatch hs
  | elsewhere a =>
    obtain ⟨ha, hs⟩ := Option.ite_none_right_eq_some.mp hs
    obtain ⟨net, hnet, rfl⟩ := Option.map_eq_some_iff.mp hs
    exact ⟨h.covered.elsewhere ha hnet, h.told⟩

end NetworkThread

/-! ## Polling -/

/-- In every run of the network thread, whatever other threads send and whatever streams, sockets and the
other ends do: where the thread polls without a timeout, the input queue is empty, or the waker will be
reported, or somebody who has sent is about to wake the thread; and what is queued for a channel or the
socket was not taken by the last write to it. -/
theorem sleeps_when_idle {debug : Bool} {maxRetries : Nat} {cfg : PoolConfig} {mem : Mem} {net : Connections.World}
    {s : NetworkThread} (h₀ : Connections.World.withConfig cfg mem = .ok net)
    (h : Reach (NetworkThread.step debug maxRetries) (fun _ _ => True) (.new net) s)
    (hp : s.Polls) (ht : s.getPollTimeout = .none) :
    (s.inputQueue = [] ∨ s.woken = true ∨ 0 < s.toWake) ∧
      (∀ (i : Nat) (c : Connection), s.net.connections[i]? = some c →
        c.outboundQueue = [] ∨ s.channelWrite i ≠ .done) ∧
      (s.net.outgoing.outboundQueue = [] ∨ s.udpWrite ≠ .done) := by
  have hnew : (NetworkThread.new net).Inv := by
    obtain ⟨e, -, hw⟩ := Panics.bind_eq_ok.mp h₀
    obtain rfl := Except.ok.inj hw
    exact NetworkThread.inv_new rfl rfl
  have hinv := h.invariant NetworkThread.Inv hnew fun hi _ hs => hi.step hs
  -- a timeout is none only where nothing is to be retried
  have hretry : s.retryQueue = [] := by
    unfold NetworkThread.getPollTimeout at ht
    split at ht
    · cases ht
    · split at ht
      · assumption
      · cases ht
  have hnone : ∀ token, ¬ Expected (s.batch ++ s.retryQueue) token := by
    rintro token ⟨e, he, -⟩
    rw [hp.1, hretry] at he
    cases he
  exact ⟨hinv.told_polls hp,
    fun i c hc => (hinv.covered.channel i c hc).imp_right fun hx => hx.resolve_right (hnone _),
    hinv.covered.udp.imp_right fun hx => hx.resolve_right (hnone _)⟩

/-! ### A message to a stream that blocks -/

/-- A stream that takes nothing. -/
def busyStream : Draining.Stream := fun _ _ => .wouldBlock

/-- A message is sent; the thread is woken, receives it, and writes it with the next events. -/
def blockedMessage : List Action :=
  [.elsewhere (.connect (fun _ _ => 0) (BufferPool.fromChunk 1 256) ⟨0⟩),
    .send (.sendTcp 0 (.lazy threeBytes Connections.source Connections.destination)), .wake,
    .poll [⟨.dispatcher, true, false, 0⟩], .handle busyStream Connections.busySocket [] .read,
    .receive Connections.busySocket [] false, .receive Connections.busySocket [] false, .poll [],
    .handle busyStream Connections.busySocket [] .read]

/-- The thread sleeps, and the message waits for the stream. -/
theorem sleeps_when_idle_blocked :
    ∃ s, runActions (NetworkThread.step false 5) (.new .small) blockedMessage = some s ∧
      s.inputQueue = [] ∧ s.net.connections.map (·.outboundQueue.length) = [1] ∧ s.channelWrite 0 ≠ .done := by
  have hrun : (runActions (NetworkThread.step false 5) (.new .small) blockedMessage).map (fun s =>
      (s.batch, s.receiving, s.getPollTimeout, s.net.connections.map (·.outboundQueue.length), s.inputQueue.length)) =
        some ([], false, .none, [1], 0) := by
    decide +kernel
  obtain ⟨s, hs, hend⟩ := Option.map_eq_some_iff.mp hrun
  simp only [Prod.mk.injEq] at hend
  obtain ⟨hb, hr, ht, hq, hi⟩ := hend
  have h₀ : Connections.World.withConfig ⟨⟨0⟩, 128, 1, 2⟩ (fun _ _ => 0) = .ok .small := rfl
  have hreach := Reach.run .init hs (runMeets_of_forall (fun _ _ _ => trivial) _)
  obtain ⟨-, hchannel, -⟩ := sleeps_when_idle h₀ hreach ⟨hb, hr⟩ ht
  obtain ⟨c, hc, hlen⟩ := List.map_eq_singleton_iff.mp hq
  refine ⟨s, hs, List.length_eq_zero_iff.mp hi, hq, (hchannel 0 c (by rw [hc]; rfl)).resolve_left fun hnil => ?_⟩
  rw [hnil] at hlen
  cases hlen

end EventLoop

end Kompact
