import Mathlib.Data.BitVec

/-!
# Addresses and session identifiers
-/

namespace Kompact

/-- An IP address, as the number its octets spell. -/
inductive IpAddr where
  | v4 (bits : BitVec 32)
  | v6 (bits : BitVec 128)
  deriving DecidableEq, Repr

/-- A socket address. IPv6 ones carry a flow label and a scope id as well. -/
inductive SocketAddr where
  | v4 (ip : BitVec 32) (port : BitVec 16)
  | v6 (ip : BitVec 128) (port : BitVec 16) (flowinfo scopeId : BitVec 32)
  deriving DecidableEq, Repr

namespace SocketAddr

/-- `SocketAddr::new`: no flow label and no scope. -/
def new : IpAddr → BitVec 16 → SocketAddr
  | .v4 ip, port => v4 ip port
  | .v6 ip, port => v6 ip port 0 0

def ip : SocketAddr → IpAddr
  | v4 ip _ => .v4 ip
  | v6 ip _ _ _ => .v6 ip

def port : SocketAddr → BitVec 16
  | v4 _ port => port
  | v6 _ port _ _ => port

/-- The address is determined by its IP address and port: it has no flow
label and no scope. -/
def Plain (a : SocketAddr) : Prop := new a.ip a.port = a

instance (a : SocketAddr) : Decidable a.Plain := inferInstanceAs (Decidable (_ = _))

end SocketAddr

/-- The identifier of a session (a UUID). -/
structure SessionId where
  uuid : BitVec 128
  deriving DecidableEq, Repr

namespace SessionId

def asU128 (id : SessionId) : Nat := id.uuid.toNat

def fromU128 (v : Nat) : SessionId := ⟨BitVec.ofNat 128 v⟩

theorem asU128_inj {a b : SessionId} (h : a.asU128 = b.asU128) : a = b := by
  cases a; cases b
  exact congrArg SessionId.mk (BitVec.eq_of_toNat_eq h)

end SessionId

end Kompact
