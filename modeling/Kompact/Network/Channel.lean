import Kompact.Network.Events

/-!
# TCP channels

The state machine of one end of a stream. A requested channel goes from
`requested` (on `Hello`) to `initialised` (on `Ack`) to `connected`, an accepted
one from `initialising` (on `Start`) to `connected`.

Frames are taken as wholes here: the frames which the stream has taken are in
`written` until the other end reads them, and a frame of which it has taken
only a part is still in `outboundQueue`. How many frames the stream takes is
not up to the channel: the operations that drain the queue are given a number.
-/

namespace Kompact

/-- A frame; data frames carry a message of type `α`. -/
inductive NetFrame (α : Type) where
  | hello (addr : SocketAddr)
  | start (addr : SocketAddr) (id : SessionId)
  | ack
  | data (msg : α)
  | bye
  deriving DecidableEq, Repr

/-- What the dispatcher hands to the network thread: a message that is not
serialised yet, or a frame that is. -/
inductive DispatchData (α : Type) where
  | lazy (msg : α)
  | serialised (frame : NetFrame α)
  deriving DecidableEq, Repr

/-- `into_serialised`. -/
def DispatchData.intoSerialised {α : Type} : DispatchData α → NetFrame α
  | lazy msg => .data msg
  | serialised frame => frame

inductive ChannelState where
  | requested (addr : SocketAddr) (id : SessionId)
  | initialising
  | initialised (addr : SocketAddr) (id : SessionId)
  | connected (addr : SocketAddr) (id : SessionId)
  | closeRequested (addr : SocketAddr) (id : SessionId)
  | closeReceived (addr : SocketAddr) (id : SessionId)
  | closed (addr : SocketAddr) (id : SessionId)
  | error
  deriving DecidableEq, Repr

namespace ChannelState

def sessionId : ChannelState → Option SessionId
  | requested _ id => some id
  | initialising => none
  | initialised _ id => some id
  | connected _ id => some id
  | closeRequested _ id => some id
  | closeReceived _ id => some id
  | closed _ id => some id
  | error => none

def isConnected : ChannelState → Bool
  | connected _ _ => true
  | _ => false

end ChannelState

structure TcpChannel (α : Type) where
  ownAddr : SocketAddr
  address : SocketAddr
  state : ChannelState
  /-- The number of data frames received, a `u32`. -/
  messages : Nat
  outboundQueue : List (NetFrame α)
  /-- Frames in the stream, on their way to the other end. -/
  written : List (NetFrame α)
  deriving DecidableEq, Repr

namespace TcpChannel

variable {α : Type}

def new (ownAddr address : SocketAddr) (state : ChannelState) : TcpChannel α :=
  { ownAddr, address, state, messages := 0, outboundQueue := [], written := [] }

def connected (c : TcpChannel α) : Bool := c.state.isConnected

def sessionId (c : TcpChannel α) : Option SessionId := c.state.sessionId

/-- The stream takes `n` frames. -/
def tryDrain (c : TcpChannel α) (n : Nat) : TcpChannel α :=
  { c with outboundQueue := c.outboundQueue.drop n, written := c.written ++ c.outboundQueue.take n }

def enqueueSerialised (c : TcpChannel α) (frame : NetFrame α) : TcpChannel α :=
  { c with outboundQueue := c.outboundQueue ++ [frame] }

def sendFrame (c : TcpChannel α) (frame : NetFrame α) (n : Nat) : TcpChannel α :=
  (c.enqueueSerialised frame).tryDrain n

/-- `send_bye`, which also returns whether the `Bye` was sent: the queue is empty then. -/
def sendBye (c : TcpChannel α) (n : Nat) : TcpChannel α := c.sendFrame .bye n

/-- An error that is pending on the socket replaces the state. -/
def readState (c : TcpChannel α) (pending : Bool) : TcpChannel α :=
  if pending then { c with state := .error } else c

def initialise (c : TcpChannel α) (addr : SocketAddr) (n : Nat) : TcpChannel α :=
  match c.state with
  | .initialising => c.sendFrame (.hello addr) n
  | _ => c

def handleHello (c : TcpChannel α) (addr : SocketAddr) (n : Nat) : TcpChannel α :=
  match c.state with
  | .requested _ id => { c.sendFrame (.start c.ownAddr id) n with state := .initialised addr id, address := addr }
  | _ => c

def handleStart (c : TcpChannel α) (addr : SocketAddr) (id : SessionId) (n : Nat) : TcpChannel α :=
  match c.state with
  | .initialising => { c.sendFrame .ack n with state := .connected addr id, address := addr }
  | _ => c

def handleAck (c : TcpChannel α) : TcpChannel α :=
  match c.state with
  | .initialised addr id => { c with state := .connected addr id }
  | _ => c

def handleBye (c : TcpChannel α) (n : Nat) : TcpChannel α :=
  match c.state with
  | .connected addr id =>
    let c := { c with state := .closeReceived addr id }.sendBye n
    if c.outboundQueue.isEmpty then { c with state := .closed addr id } else c
  | .closeRequested addr id => { c with state := .closed addr id }
  | _ => c

/-- `decode` of a data frame; the counter wraps. -/
def countMessage (c : TcpChannel α) : TcpChannel α := { c with messages := (c.messages + 1) % 2 ^ 32 }

def initiateGracefulShutdown (c : TcpChannel α) (n : Nat) : TcpChannel α :=
  match c.state with
  | .connected addr id => { c with state := .closeRequested addr id }.sendBye n
  | _ => c

/-- The stream is shut down. -/
def shutdown (c : TcpChannel α) : TcpChannel α :=
  match c.state with
  | .connected addr id => { c with state := .closed addr id }
  | _ => c

end TcpChannel

end Kompact
