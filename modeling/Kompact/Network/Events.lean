import Kompact.Net.Address

/-!
# Events between the dispatcher and the network thread

System paths in these events are TCP paths, so that they are given by a
socket address.
-/

namespace Kompact

/-- A subnet: an address and the number of leading bits that count. -/
inductive IpNet where
  | v4 (addr : BitVec 32) (len : Nat)
  | v6 (addr : BitVec 128) (len : Nat)
  deriving DecidableEq, Repr

/-- Whether an address is in the subnet. -/
def IpNet.contains : IpNet → IpAddr → Bool
  | v4 addr len, .v4 bits => addr >>> (32 - len) = bits >>> (32 - len)
  | v6 addr len, .v6 bits => addr >>> (128 - len) = bits >>> (128 - len)
  | _, _ => false

/-- The dispatcher's view of a connection. -/
inductive ConnectionState where
  | new
  | initializing
  | connected (id : SessionId)
  | closed (id : SessionId)
  | lost (id : SessionId)
  | blocked
  deriving DecidableEq, Repr

namespace ConnectionState

def isConnected : ConnectionState → Bool
  | connected _ => true
  | _ => false

/-- A connection is expected. -/
def isWaiting : ConnectionState → Bool
  | initializing => true
  | lost _ => true
  | _ => false

end ConnectionState

/-- Changes of the network, as the thread reports them. -/
inductive NetworkStatus where
  | connectionEstablished (addr : SocketAddr) (id : SessionId)
  | connectionLost (addr : SocketAddr) (id : SessionId)
  | connectionDropped (addr : SocketAddr)
  | connectionClosed (addr : SocketAddr) (id : SessionId)
  | blockedSystem (addr : SocketAddr)
  | blockedIp (ip : IpAddr)
  | blockedIpNet (net : IpNet)
  | allowedIpNet (net : IpNet)
  | allowedSystem (addr : SocketAddr)
  | allowedIp (ip : IpAddr)
  | softConnectionLimitExceeded
  | hardConnectionLimitReached
  | criticalNetworkFailure
  deriving DecidableEq, Repr

/-- What components ask of the network; only TCP is supported. -/
inductive NetworkStatusRequest where
  | disconnectSystem (addr : SocketAddr)
  | connectSystem (addr : SocketAddr)
  | blockSystem (addr : SocketAddr)
  | blockIp (ip : IpAddr)
  | blockIpNet (net : IpNet)
  | allowSystem (addr : SocketAddr)
  | allowIp (ip : IpAddr)
  | allowIpNet (net : IpNet)
  deriving DecidableEq, Repr

/-- Events from the thread to the dispatcher. -/
inductive NetworkDispatcherEvent (α : Type) where
  | network (status : NetworkStatus)
  | rejectedData (addr : SocketAddr) (data : α)
  deriving DecidableEq, Repr

/-- Events from the dispatcher to the thread. -/
inductive DispatchEvent (α : Type) where
  | sendTcp (addr : SocketAddr) (data : α)
  | connect (addr : SocketAddr)
  | closedAck (addr : SocketAddr)
  | close (addr : SocketAddr)
  | blockSocket (addr : SocketAddr)
  | blockIpAddr (ip : IpAddr)
  | blockIpNet (net : IpNet)
  | allowSocket (addr : SocketAddr)
  | allowIpAddr (ip : IpAddr)
  | allowIpNet (net : IpNet)
  deriving DecidableEq, Repr

end Kompact
