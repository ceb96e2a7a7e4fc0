import Kompact.Network.Dispatcher
import Kompact.Network.Thread

/-!
# The dispatcher and its network thread

The two run on their own and share nothing but two queues of events, each of
which is received in the order in which it was sent. The frames that the peers
send and the failures of the network are arbitrary.

`view` is what the dispatcher will hold about an address when it has received
the events that are on their way.
-/

namespace Kompact

structure System (α : Type) where
  dispatcher : Dispatcher (DispatchData α)
  thread : NetworkThread α

namespace System

variable {α : Type}

def new (maxConnectionRetryAttempts : Nat) (addr : SocketAddr) (softConnectionLimit hardConnectionLimit : Nat) :
    System α where
  dispatcher := .new maxConnectionRetryAttempts
  thread := .new addr softConnectionLimit hardConnectionLimit

inductive Action (α : Type) where
  /-- A message is routed. -/
  | route (addr : SocketAddr) (data : DispatchData α)
  /-- The retry timer fires. -/
  | tick (order : List SocketAddr)
  | request (req : NetworkStatusRequest)
  /-- The dispatcher receives the next event of the thread. -/
  | receive
  /-- The thread receives the next event of the dispatcher. -/
  | deliver (env : Env)
  /-- The thread handles an event of the network. -/
  | network (act : NetworkThread.Action α)

def act (s : System α) (a : Dispatcher.Action (DispatchData α)) : Option (System α) :=
  (s.dispatcher.step a).map fun dispatcher => { s with dispatcher }

def step (s : System α) : Action α → Option (System α)
  | .route addr data => s.act (.route addr data)
  | .tick order => s.act (.tick order)
  | .request req => s.act (.request req)
  | .receive =>
    match s.thread.toDispatcher with
    | ev :: toDispatcher => { s with thread := { s.thread with toDispatcher } }.act (.event ev)
    | [] => none
  | .deliver env =>
    match s.dispatcher.toThread with
    | ev :: toThread =>
      (s.thread.receiveDispatch ev env).map fun thread => ⟨{ s.dispatcher with toThread }, thread⟩
    | [] => none
  | .network a => (s.thread.step a).map fun thread => { s with thread }

/-- No event is on its way from one to the other. -/
def Quiescent (s : System α) : Prop := s.dispatcher.toThread = [] ∧ s.thread.toDispatcher = []

/-- A connection is requested and established; for examples. -/
def connecting : List (Action Nat) :=
  [.request (.connectSystem (Dispatcher.localhost 80)), .deliver { id := ⟨7⟩ }, .network (.beginRead 0),
    .network (.read (.hello (Dispatcher.localhost 80)) { taken := fun _ => 1 }), .network (.read .ack {}),
    .network .endRead, .receive]

/-- A system that has just been started, for examples. -/
def booted : System Nat := new 10 (Dispatcher.localhost 1) 100 100

end System

/-! ## The dispatcher's view -/

/-- What an event makes of the entry of address `a`. -/
def viewAfter {α : Type} (a : SocketAddr) (conn : Option ConnectionState) :
    NetworkDispatcherEvent (DispatchData α) → Option ConnectionState
  | .network (.connectionEstablished addr id) => if a = addr then some (.connected id) else conn
  | .network (.connectionLost addr id) => if a = addr then some (.lost id) else conn
  | .network (.connectionClosed addr id) => if a = addr then some (.closed id) else conn
  | .network (.blockedSystem addr) => if a = addr then some .blocked else conn
  | .network (.allowedSystem addr) => if a = addr then none else conn
  | _ => conn

namespace Dispatcher

variable {α : Type} {d : Dispatcher (DispatchData α)} {a : SocketAddr}

/-- The dispatcher does with its entries what `viewAfter` says. -/
theorem lookup_onEvent {ev : NetworkDispatcherEvent (DispatchData α)} (h : ev ≠ .network .criticalNetworkFailure) :
    (d.onEvent ev).connections.lookup a = viewAfter a (d.connections.lookup a) ev := by
  cases ev with
  | rejectedData addr data => rfl
  | network status =>
    cases status with
    | connectionEstablished addr id =>
      refine lookup_setConnection.trans ?_
      show _ = if a = addr then _ else _
      congr 1
      split
      · rfl
      · rfl
    | connectionLost addr id => exact lookup_setConnection
    | connectionClosed addr id =>
      show (Dispatcher.connectionClosed d addr id).connections.lookup a = _
      unfold connectionClosed
      simp only
      split
      · exact lookup_setConnection
      · exact lookup_setConnection
    | blockedSystem addr => exact lookup_setConnection
    | allowedSystem addr => exact AssocMap.lookup_erase _ _ _
    | criticalNetworkFailure => exact absurd rfl h
    | _ => rfl

end Dispatcher

end Kompact
