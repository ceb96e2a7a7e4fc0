import Kompact.Buffers.Memory
import Kompact.Framework.ByteBuf
import Kompact.Messaging.Bitfields
import Kompact.Net.Address

/-!
# Actor paths on the wire

System paths and actor paths, and their serialisation: a header byte with
three bit fields, the IP address, the port, and for an actor path its UUID or
its name, the segments joined by slashes after their length.

The bit fields of the address type and of the transport overlap. As only the
low bits of the transport are in use this does not matter for IPv4, whose
address type is zero (`tryFrom_ofFields_v4`), but the header of an IPv6 path
is never accepted (`tryFrom_ofFields_v6`). So the paths that come back are
those with an IPv4 address, except that the name without segments comes back
as the name with one empty segment (`roundTrips_iff`).
-/

namespace Kompact

open Bitfields

/-- A string, by the bytes of its UTF-8 encoding. -/
abbrev Utf8 := List UInt8

inductive Transport where
  | local
  | tcp
  | udp
  deriving DecidableEq, Repr

structure SystemPath where
  protocol : Transport
  address : IpAddr
  port : BitVec 16
  deriving DecidableEq, Repr

/-- An actor path: a unique one, or a named one with its segments. -/
inductive ActorPath where
  | unique (system : SystemPath) (id : BitVec 128)
  | named (system : SystemPath) (path : List Utf8)
  deriving DecidableEq, Repr

def ActorPath.system : ActorPath → SystemPath
  | unique system _ => system
  | named system _ => system

inductive AddressType where
  | ipv4
  | ipv6
  | domain
  deriving DecidableEq, Repr

inductive PathType where
  | unique
  | named
  deriving DecidableEq, Repr

inductive SerError where
  | invalidData (msg : String)
  | noBuffersAvailable (msg : String)
  | unknown (msg : String)
  deriving DecidableEq, Repr

/-! ## The header -/

def Transport.toByte : Transport → UInt8
  | .local => 0
  | .tcp => 1
  | .udp => 2

def Transport.tryFrom (x : UInt8) : Option Transport :=
  if x = Transport.local.toByte then some .local else if x = Transport.udp.toByte then some .udp
  else if x = Transport.tcp.toByte then some .tcp else none

def AddressType.toByte : AddressType → UInt8
  | .ipv4 => 0
  | .ipv6 => 1
  | .domain => 2

/-- Domain names are not supported. -/
def AddressType.tryFrom (x : UInt8) : Option AddressType :=
  if x = AddressType.ipv4.toByte then some .ipv4 else if x = AddressType.ipv6.toByte then some .ipv6 else none

def PathType.toByte : PathType → UInt8
  | .unique => 0
  | .named => 1

def PathType.tryFrom (x : UInt8) : Option PathType :=
  if x = PathType.unique.toByte then some .unique else if x = PathType.named.toByte then some .named else none

def addressTypeField : BitField AddressType := ⟨2, 2, AddressType.toByte, AddressType.tryFrom⟩

def pathTypeField : BitField PathType := ⟨7, 1, PathType.toByte, PathType.tryFrom⟩

def transportField : BitField Transport := ⟨0, 5, Transport.toByte, Transport.tryFrom⟩

def AddressType.ofIp : IpAddr → AddressType
  | .v4 _ => .ipv4
  | .v6 _ => .ipv6

structure SystemPathHeader where
  storage : List UInt8
  pathType : PathType
  protocol : Transport
  addressType : AddressType
  deriving DecidableEq, Repr

namespace SystemPathHeader

/-- `Result::expect`. -/
def expect {ε α : Type} (r : Except ε α) (msg : String) : Panics α := r.mapError fun _ => msg

/-- The header with the given fields, stored in this order. -/
def ofFields (pathType : PathType) (protocol : Transport) (addressType : AddressType) :
    Panics SystemPathHeader := do
  let storage ← expect (store [0] pathTypeField pathType) "path_type could not be stored"
  let storage ← expect (store storage transportField protocol) "protocol could not be stored"
  let storage ← expect (store storage addressTypeField addressType) "address could not be stored"
  return { storage, pathType, protocol, addressType }

def fromPath (sys : ActorPath) : Panics SystemPathHeader :=
  let pathType := match sys with
    | .unique .. => .unique
    | .named .. => .named
  ofFields pathType sys.system.protocol (.ofIp sys.system.address)

/-- The path type does not matter and is ignored. -/
def fromSystem (sys : SystemPath) : Panics SystemPathHeader :=
  ofFields .unique sys.protocol (.ofIp sys.address)

def putInto (h : SystemPathHeader) : List UInt8 := [h.storage.getD 0 0]

def tryFrom (value : UInt8) : Except SerError SystemPathHeader := do
  let storage := [value]
  let pathType ← (getAs storage pathTypeField).mapError fun _ =>
    .invalidData "System Path could not be read."
  let protocol ← (getAs storage transportField).mapError fun _ =>
    .invalidData "System Path Transport could not be read."
  let addressType ← (getAs storage addressTypeField).mapError fun _ =>
    .invalidData "System Path AddressType could not be read."
  return { storage, pathType, protocol, addressType }

end SystemPathHeader

/-! ## Serialisation -/

/-- The octets of an IP address. -/
def IpAddr.octets : IpAddr → List UInt8
  | .v4 bits => toBE 4 bits.toNat
  | .v6 bits => toBE 16 bits.toNat

/-- `system_path_put_into_buf`. -/
def systemPathBytes (path : SystemPath) : List UInt8 := path.address.octets ++ toBE 2 path.port.toNat

def SystemPath.serialise (path : SystemPath) : Panics (Except SerError (List UInt8)) := do
  let header ← SystemPathHeader.fromSystem path
  return .ok (header.putInto ++ systemPathBytes path)

/-- The byte of the separator of segments. -/
def slash : UInt8 := 0x2F

/-- The segments, joined by slashes. -/
def joinPath (path : List Utf8) : Utf8 := [slash].intercalate path

def ActorPath.serialise (path : ActorPath) : Panics (Except SerError (List UInt8)) := do
  let header ← SystemPathHeader.fromPath path
  let front := header.putInto ++ systemPathBytes path.system
  match path with
  | .unique _ id => return .ok (front ++ toBE 16 id.toNat)
  | .named _ path =>
    let data := joinPath path
    if data.length < 2 ^ 16 then return .ok (front ++ toBE 2 data.length ++ data)
    else return .error (.invalidData "Named path overflows designated 2 bytes length.")

/-! ## Deserialisation -/

/-- `system_path_from_buf`. A read can panic or fail; what is left of the buffer
is returned with the value. -/
def systemPathFromBuf (buf : List UInt8) :
    Panics (Except SerError ((SystemPathHeader × SystemPath) × List UInt8)) := do
  let (fields, buf) ← ByteBuf.getUint buf 1
  match SystemPathHeader.tryFrom (.ofNat fields) with
  | .error e => return .error e
  | .ok header =>
    match header.addressType with
    | .ipv4 =>
      if buf.length < 4 then return .error (.invalidData "Could not parse 4 bytes for IPv4 address")
      let (ip, buf) ← ByteBuf.copyToSlice buf 4
      let (port, buf) ← ByteBuf.getUint buf 2
      return .ok ((header, ⟨header.protocol, .v4 (.ofNat 32 (ofBE ip)), .ofNat 16 port⟩), buf)
    | .ipv6 =>
      if buf.length < 16 then return .error (.invalidData "Could not parse 16 bytes for IPv6 address")
      let (ip, buf) ← ByteBuf.copyToSlice buf 16
      let (port, buf) ← ByteBuf.getUint buf 2
      return .ok ((header, ⟨header.protocol, .v6 (.ofNat 128 (ofBE ip)), .ofNat 16 port⟩), buf)
    | .domain => throw "not implemented"

def SystemPath.deserialise (buf : List UInt8) : Panics (Except SerError (SystemPath × List UInt8)) := do
  match ← systemPathFromBuf buf with
  | .error e => return .error e
  | .ok ((_, path), buf) => return .ok (path, buf)

def ActorPath.deserialise (buf : List UInt8) : Panics (Except SerError (ActorPath × List UInt8)) := do
  match ← systemPathFromBuf buf with
  | .error e => return .error e
  | .ok ((header, systemPath), buf) =>
    match header.pathType with
    | .unique =>
      if buf.length < 16 then return .error (.invalidData "Could not get 16 bytes for UUID")
      let (uuid, buf) ← ByteBuf.copyToSlice buf 16
      return .ok (.unique systemPath (.ofNat 128 (ofBE uuid)), buf)
    | .named =>
      let (nameLen, buf) ← ByteBuf.getUint buf 2
      if buf.length < nameLen then
        return .error (.invalidData ("Could not get " ++ toString nameLen ++ " bytes for path name"))
      let (name, buf) ← ByteBuf.copyToSlice buf nameLen
      let parts := name.splitOn slash
      if parts = [] then return .error (.invalidData "Could not determine name for Named path type")
      return .ok (.named systemPath parts, buf)

/-! ## Which paths come back -/

/-- Serialisation succeeds, and deserialisation gives the path back from its
bytes and leaves what comes after them. -/
def SystemPath.RoundTrips (path : SystemPath) (rest : List UInt8) : Prop :=
  ∃ bs, path.serialise = .ok (.ok bs) ∧ SystemPath.deserialise (bs ++ rest) = .ok (.ok (path, rest))

/-- The same for actor paths. -/
def ActorPath.RoundTrips (path : ActorPath) (rest : List UInt8) : Prop :=
  ∃ bs, path.serialise = .ok (.ok bs) ∧ ActorPath.deserialise (bs ++ rest) = .ok (.ok (path, rest))

/-- The segments have no slashes and fit in 16 bits when joined. -/
def ActorPath.Valid : ActorPath → Prop
  | unique _ _ => True
  | named _ path => (∀ segment ∈ path, slash ∉ segment) ∧ (joinPath path).length ≤ 65535

instance (path : ActorPath) : Decidable path.Valid := by
  cases path <;> unfold ActorPath.Valid <;> infer_instance

def IpAddr.isV4 : IpAddr → Bool
  | v4 _ => true
  | v6 _ => false

/-- The named path without segments, such as that of the dead letter box. -/
def ActorPath.isNameless : ActorPath → Bool
  | named _ [] => true
  | _ => false

/-- The byte of a header. -/
def headerByte (pathType : PathType) (protocol : Transport) (addressType : AddressType) : UInt8 :=
  ((SystemPathHeader.ofFields pathType protocol addressType).toOption.map fun h => h.storage.getD 0 0).getD 0

theorem ofFields_eq (pt : PathType) (tr : Transport) (at' : AddressType) :
    SystemPathHeader.ofFields pt tr at' = .ok ⟨[headerByte pt tr at'], pt, tr, at'⟩ := by
  cases pt <;> cases tr <;> cases at' <;> decide

/-- IPv4 headers are read back. -/
theorem tryFrom_ofFields_v4 (pt : PathType) (tr : Transport) :
    SystemPathHeader.tryFrom (headerByte pt tr .ipv4) = .ok ⟨[headerByte pt tr .ipv4], pt, tr, .ipv4⟩ := by
  cases pt <;> cases tr <;> decide

/-- IPv6 headers are not: the address type's bit is read as one of the transport. -/
theorem tryFrom_ofFields_v6 (pt : PathType) (tr : Transport) :
    SystemPathHeader.tryFrom (headerByte pt tr .ipv6) =
      .error (.invalidData "System Path Transport could not be read.") := by
  cases pt <;> cases tr <;> decide

theorem getUint_byte (b : UInt8) (buf : List UInt8) : ByteBuf.getUint (b :: buf) 1 = .ok (b.toNat, buf) := by
  simp [ByteBuf.getUint, ByteBuf.copyToSlice, ofBE, bind, Except.bind, pure, Except.pure]

theorem systemPathFromBuf_v6 (pt : PathType) (tr : Transport) (buf : List UInt8) :
    systemPathFromBuf (headerByte pt tr .ipv6 :: buf) =
      .ok (.error (.invalidData "System Path Transport could not be read.")) := by
  rw [systemPathFromBuf, getUint_byte]
  simp only [bind, Except.bind, UInt8.ofNat_toNat, tryFrom_ofFields_v6]
  rfl

theorem systemPathFromBuf_v4 (pt : PathType) (tr : Transport) (ip : BitVec 32) (port : BitVec 16)
    (rest : List UInt8) :
    systemPathFromBuf (headerByte pt tr .ipv4 :: (systemPathBytes ⟨tr, .v4 ip, port⟩ ++ rest)) =
      .ok (.ok ((⟨[headerByte pt tr .ipv4], pt, tr, .ipv4⟩, ⟨tr, .v4 ip, port⟩), rest)) := by
  have hbytes : systemPathBytes ⟨tr, .v4 ip, port⟩ ++ rest = toBE 4 ip.toNat ++ (toBE 2 port.toNat ++ rest) := by
    rw [systemPathBytes, List.append_assoc]; rfl
  have hlen : ¬ (toBE 4 ip.toNat ++ (toBE 2 port.toNat ++ rest)).length < 4 := by
    rw [List.length_append, length_toBE]; omega
  rw [hbytes, systemPathFromBuf, getUint_byte]
  simp only [bind, Except.bind, UInt8.ofNat_toNat, tryFrom_ofFields_v4, hlen, ite_false, pure, Except.pure,
    ByteBuf.copyToSlice_toBE, ByteBuf.getUint_toBE (show port.toNat < 256 ^ 2 from port.isLt),
    bitVec_ofBE_toBE ip (show 32 = 8 * 4 from rfl), BitVec.ofNat_toNat, BitVec.setWidth_eq]

/-- A system path comes back if and only if its address is an IPv4 one. -/
theorem SystemPath.roundTrips_v4_iff (path : SystemPath) (rest : List UInt8) :
    path.RoundTrips rest ↔ path.address.isV4 := by
  obtain ⟨tr, ip | ip, port⟩ := path
  · have hs : (SystemPath.mk tr (.v4 ip) port).serialise =
        .ok (.ok (headerByte .unique tr .ipv4 :: systemPathBytes ⟨tr, .v4 ip, port⟩)) := by
      simp only [SystemPath.serialise, SystemPathHeader.fromSystem, AddressType.ofIp, ofFields_eq]; rfl
    refine iff_of_true ⟨_, hs, ?_⟩ rfl
    rw [SystemPath.deserialise, List.cons_append, systemPathFromBuf_v4]; rfl
  · refine iff_of_false ?_ (by simp [IpAddr.isV4])
    rintro ⟨bs, hs, hd⟩
    simp only [SystemPath.serialise, SystemPathHeader.fromSystem, AddressType.ofIp, ofFields_eq] at hs
    obtain rfl := Except.ok.inj (Except.ok.inj hs)
    rw [SystemPath.deserialise, SystemPathHeader.putInto, List.getD_cons_zero, List.cons_append, List.nil_append,
      List.cons_append, systemPathFromBuf_v6] at hd
    cases hd

/-- The path type of an actor path's header. -/
def ActorPath.pathType : ActorPath → PathType
  | unique .. => .unique
  | named .. => .named

/-- The bytes after the system path. -/
def ActorPath.tailBytes : ActorPath → List UInt8
  | unique _ id => toBE 16 id.toNat
  | named _ path => toBE 2 (joinPath path).length ++ joinPath path

theorem ActorPath.serialise_eq {path : ActorPath} (h : path.Valid) :
    path.serialise = .ok (.ok (headerByte path.pathType path.system.protocol (.ofIp path.system.address) ::
      (systemPathBytes path.system ++ path.tailBytes))) := by
  cases path with
  | unique system id =>
    simp only [ActorPath.serialise, SystemPathHeader.fromPath, ofFields_eq]; rfl
  | named system path =>
    obtain ⟨-, hlen⟩ := h
    simp only [ActorPath.serialise, SystemPathHeader.fromPath, ofFields_eq, bind, Except.bind,
      show (joinPath path).length < 2 ^ 16 by omega, ite_true, SystemPathHeader.putInto, List.append_assoc]
    rfl

/-- With an IPv4 address, a unique path comes back. -/
theorem deserialise_unique (tr : Transport) (ip : BitVec 32) (port : BitVec 16) (id : BitVec 128)
    (rest : List UInt8) :
    ActorPath.deserialise (headerByte .unique tr .ipv4 ::
      (systemPathBytes ⟨tr, .v4 ip, port⟩ ++ (toBE 16 id.toNat ++ rest))) =
        .ok (.ok (.unique ⟨tr, .v4 ip, port⟩ id, rest)) := by
  have hlen : ¬ (toBE 16 id.toNat ++ rest).length < 16 := by rw [List.length_append, length_toBE]; omega
  rw [ActorPath.deserialise, systemPathFromBuf_v4]
  simp only [bind, Except.bind, hlen, ite_false, pure, Except.pure, ByteBuf.copyToSlice_toBE,
    bitVec_ofBE_toBE id (show 128 = 8 * 16 from rfl)]

/-- With an IPv4 address, a name comes back as what splitting its bytes gives. -/
theorem deserialise_named (tr : Transport) (ip : BitVec 32) (port : BitVec 16) {name : Utf8}
    (hname : name.length ≤ 65535) (rest : List UInt8) :
    ActorPath.deserialise (headerByte .named tr .ipv4 ::
      (systemPathBytes ⟨tr, .v4 ip, port⟩ ++ (toBE 2 name.length ++ (name ++ rest)))) =
        .ok (.ok (.named ⟨tr, .v4 ip, port⟩ (name.splitOn slash), rest)) := by
  have hlen : ¬ (name ++ rest).length < name.length := by rw [List.length_append]; omega
  rw [ActorPath.deserialise, systemPathFromBuf_v4]
  simp only [bind, Except.bind, ByteBuf.getUint_toBE (show name.length < 256 ^ 2 by omega), hlen, ite_false, pure,
    Except.pure, ByteBuf.copyToSlice_append, List.splitOn_ne_nil]

theorem splitOn_joinPath_iff {path : List Utf8} (h : ∀ segment ∈ path, slash ∉ segment) :
    (joinPath path).splitOn slash = path ↔ path ≠ [] := by
  refine ⟨fun hs hn => ?_, fun hne => List.splitOn_intercalate slash h hne⟩
  rw [hn] at hs
  exact List.splitOn_ne_nil _ _ hs

/-- An actor path comes back if and only if its address is an IPv4 one and it
is not the name without segments. -/
theorem ActorPath.roundTrips_v4_iff {path : ActorPath} (h : path.Valid) (rest : List UInt8) :
    path.RoundTrips rest ↔ path.system.address.isV4 ∧ ¬ path.isNameless := by
  have hs := path.serialise_eq h
  have hiff : path.RoundTrips rest ↔ ActorPath.deserialise
      (headerByte path.pathType path.system.protocol (.ofIp path.system.address) ::
        (systemPathBytes path.system ++ (path.tailBytes ++ rest))) = .ok (.ok (path, rest)) := by
    rw [← List.append_assoc, ← List.cons_append]
    constructor
    · rintro ⟨bs, hbs, hd⟩
      rw [hs] at hbs
      rwa [← Except.ok.inj (Except.ok.inj hbs)] at hd
    · exact fun hd => ⟨_, hs, hd⟩
  rw [hiff]
  rcases path with ⟨⟨tr, ip | ip, port⟩, id⟩ | ⟨⟨tr, ip | ip, port⟩, path⟩
  · exact iff_of_true (deserialise_unique tr ip port id rest) ⟨rfl, by simp [isNameless]⟩
  · refine iff_of_false (fun hd => ?_) (by simp [ActorPath.system, IpAddr.isV4])
    simp only [ActorPath.deserialise, ActorPath.system, AddressType.ofIp, systemPathFromBuf_v6] at hd
    cases hd
  · have hd := deserialise_named tr ip port h.2 rest
    simp only [ActorPath.system, ActorPath.pathType, ActorPath.tailBytes, AddressType.ofIp, List.append_assoc, hd,
      Except.ok.injEq, Prod.mk.injEq, ActorPath.named.injEq, true_and, and_true, splitOn_joinPath_iff h.1]
    cases path <;> simp [isNameless, IpAddr.isV4]
  · refine iff_of_false (fun hd => ?_) (by simp [ActorPath.system, IpAddr.isV4])
    simp only [ActorPath.deserialise, ActorPath.system, AddressType.ofIp, systemPathFromBuf_v6] at hd
    cases hd

/-- Exactly which paths survive the wire, whatever follows them. -/
theorem roundTrips_iff (rest : List UInt8) :
    (∀ path : SystemPath, path.RoundTrips rest ↔ path.address.isV4) ∧
    (∀ path : ActorPath, path.Valid →
      (path.RoundTrips rest ↔ path.system.address.isV4 ∧ ¬ path.isNameless)) :=
  ⟨fun path => path.roundTrips_v4_iff rest, fun _ h => ActorPath.roundTrips_v4_iff h rest⟩

/-- A named path over IPv4, with two segments. -/
theorem roundTrips_iff_ponger :
    (ActorPath.named ⟨.tcp, .v4 0x7F000001, 8080⟩ [[0x70, 0x6F], [0x6E, 0x67]]).RoundTrips [1, 2] :=
  ((roundTrips_iff [1, 2]).2 _ (by decide)).mpr (by decide)

/-- Neither an IPv6 path nor the path of the dead letter box comes back. -/
theorem not_roundTrips_v6_and_nameless :
    ¬ (SystemPath.mk .tcp (.v6 1) 8080).RoundTrips [] ∧
    ¬ (ActorPath.unique ⟨.tcp, .v6 1, 8080⟩ 7).RoundTrips [] ∧
    (ActorPath.named ⟨.tcp, .v4 0x7F000001, 8080⟩ []).Valid ∧
    ¬ (ActorPath.named ⟨.tcp, .v4 0x7F000001, 8080⟩ []).RoundTrips [] := by
  refine ⟨?_, ?_, by decide, ?_⟩
  · rw [SystemPath.roundTrips_v4_iff]; decide
  · rw [ActorPath.roundTrips_v4_iff (by decide)]; decide
  · rw [ActorPath.roundTrips_v4_iff (by decide)]; decide

end Kompact
