import Kompact.Framework.ByteVec
import Kompact.Serialisation.Deserialise

/-!
# The built-in message types

Strings, numbers, units and paths come with a serialisation id each, by which
a message is matched with a deserialiser. A message that is tried with the
deserialisers of other types is meant to come back unaltered, and its own
deserialiser to return the value.

Strings and actor paths share one id, so each is tried as the other; a boxed
system path panics where it is unpacked; and of the paths that are serialised
not all come back. `dispatches_iff` says exactly which attempts go as they
should.
-/

namespace Kompact

/-- The types. -/
inductive Builtin where
  | string
  | u64
  | unit
  | actorPath
  | systemPath
  deriving DecidableEq, Repr

/-- Their values. -/
inductive BuiltinValue where
  | string (s : RustString)
  | u64 (num : BitVec 64)
  | unit
  | actorPath (path : ActorPath)
  | systemPath (path : SystemPath)
  deriving DecidableEq

namespace SerialisationIds

def systemPath : BitVec 64 := 5

def actorPath : BitVec 64 := 6

def str : BitVec 64 := 6

def u64 : BitVec 64 := 7

def unit : BitVec 64 := 8

end SerialisationIds

/-- `SER_ID` of the deserialiser. -/
def Builtin.serId : Builtin → BitVec 64
  | string => SerialisationIds.str
  | u64 => SerialisationIds.u64
  | unit => SerialisationIds.unit
  | actorPath => SerialisationIds.actorPath
  | systemPath => SerialisationIds.systemPath

namespace BuiltinValue

def type : BuiltinValue → Builtin
  | string _ => .string
  | u64 _ => .u64
  | unit => .unit
  | actorPath _ => .actorPath
  | systemPath _ => .systemPath

def serId : BuiltinValue → BitVec 64
  | string _ => SerialisationIds.str
  | u64 _ => SerialisationIds.u64
  | unit => SerialisationIds.unit
  | actorPath _ => SerialisationIds.actorPath
  | systemPath _ => SerialisationIds.systemPath

def serialise : BuiltinValue → Panics (Except SerError (List UInt8))
  | string s => .ok (.ok (putVec s.toByteVec))
  | u64 num => .ok (.ok (toBE 8 num.toNat))
  | unit => .ok (.ok [])
  | actorPath path => path.serialise
  | systemPath path => path.serialise

/-- `local`: the value itself, as any type. It is not implemented for system
paths. -/
def intoLocal : BuiltinValue → Panics BuiltinValue
  | systemPath _ => .error "not implemented"
  | v => .ok v

end BuiltinValue

section

variable {β : Type}

def readString (B : Buf β) (buf : β) : Panics (Except SerError (RustString × β)) := do
  let (data, buf) ← B.getVec buf
  match RustString.fromUtf8 data with
  | some s => return .ok (s, buf)
  | none => return .error (.unknown "Wrapped error: FromUtf8Error")

/-- `D::deserialise` for each of the types. -/
def Builtin.deserialise (debug : Bool) (B : Buf β) (buf : β) : Builtin → Panics (Except SerError (BuiltinValue × β))
  | string => return (← readString B buf).map fun (s, buf) => (.string s, buf)
  | u64 => do
    let (num, buf) ← B.getUint buf 8
    return .ok (.u64 (.ofNat 64 num), buf)
  | unit => .ok (.ok (.unit, buf))
  | actorPath => return (← readActorPath debug B buf).map fun (path, buf) => (.actorPath path, buf)
  | systemPath => return (← readSystemPath B buf).map fun ((_, path), buf) => (.systemPath path, buf)

end

namespace Builtin

/-- The data of a message: `HeapOrSer`, with a built-in value in the box. -/
inductive Data where
  | boxed (v : BuiltinValue)
  | serialised (bytes : List UInt8)
  | chunkLease (lease : ChunkLease)
  | chunkRef (ref : ChunkRef)

/-- `NetMessage` with such data. -/
structure Message where
  sender : ActorPath
  receiver : ActorPath
  serId : BitVec 64
  data : Data
  session : Option (BitVec 128)

inductive UnpackError where
  | noIdMatch (msg : Message)
  | noCast (v : BuiltinValue)
  | deserError (e : SerError)

/-- What a deserialiser returns, without the rest of the buffer. -/
def unpacked {β : Type} (r : Panics (Except SerError (BuiltinValue × β))) : Panics (Except UnpackError BuiltinValue) :=
  r.map fun r => (r.map Prod.fst).mapError .deserError

def tryDeserialiseUnchecked (debug : Bool) (m : Mem) (msg : Message) (T : Builtin) :
    Panics (Except UnpackError BuiltinValue) :=
  match msg.data with
  | .boxed boxedSer => do
    let b ← boxedSer.intoLocal
    return if b.type = T then .ok b else .error (.noCast b)
  | .serialised bytes => unpacked (T.deserialise debug Buf.bytes bytes)
  | .chunkLease chunk => unpacked (T.deserialise debug (leaseBuf m) chunk)
  | .chunkRef chunk => unpacked (T.deserialise debug (refBuf m) chunk)

def tryDeserialise (debug : Bool) (m : Mem) (msg : Message) (T : Builtin) : Panics (Except UnpackError BuiltinValue) :=
  if msg.serId = T.serId then tryDeserialiseUnchecked debug m msg T else .ok (.error (.noIdMatch msg))

/-- Attempts one after the other, each on the message that the one before gave
back: the message that the last gives back, if all do. -/
def attempts (debug : Bool) (m : Mem) : Message → List Builtin → Panics (Option Message)
  | msg, [] => .ok (some msg)
  | msg, T :: others => do
    match ← tryDeserialise debug m msg T with
    | .error (.noIdMatch msg) => attempts debug m msg others
    | _ => return none

/-- The message carries the value: in a box, or by its bytes. -/
def Carries (m : Mem) (v : BuiltinValue) : Data → Prop
  | .boxed v' => v' = v
  | .serialised bytes => v.serialise = .ok (.ok bytes)
  | .chunkLease lease => lease.WF ∧ lease.readPointer ≤ lease.capacity ∧ v.serialise = .ok (.ok (lease.unread m))
  | .chunkRef ref => ref.lease.WF ∧ ref.readPointer ≤ ref.capacity ∧ v.serialise = .ok (.ok (ref.unread m))

/-- The attempts with other types give the message back unaltered, and the last
one returns the value. -/
def Dispatches (debug : Bool) (m : Mem) (v : BuiltinValue) (msg : Message) (others : List Builtin) : Prop :=
  attempts debug m msg others = .ok (some msg) ∧ tryDeserialise debug m msg v.type = .ok (.ok v)

/-! ## When it does -/

/-- The value comes back from its bytes. -/
def Readable (debug : Bool) : BuiltinValue → Prop
  | .actorPath (.unique system _) => system.address.isV4
  | .actorPath (.named system path) =>
    system.address.isV4 ∧ path ≠ [] ∧ (∀ segment ∈ path, slash ∉ segment) ∧ (debug = true → LookupPath path)
  | .systemPath path => path.address.isV4
  | _ => True

/-- No attempt takes a string for an actor path or the other way round, and the
value is one that its own deserialiser returns. -/
def Matchable (debug : Bool) (v : BuiltinValue) (data : Data) (others : List Builtin) : Prop :=
  ¬ (v.type = .string ∧ .actorPath ∈ others) ∧ ¬ (v.type = .actorPath ∧ .string ∈ others) ∧
    match data with
    | .boxed _ => v.type ≠ .systemPath
    | _ => Readable debug v

theorem serId_type (v : BuiltinValue) : v.type.serId = v.serId := by cases v <;> rfl

/-- The two types with one id. -/
theorem serId_eq_iff {T T' : Builtin} (h : T ≠ T') :
    T.serId = T'.serId ↔ T = .string ∧ T' = .actorPath ∨ T = .actorPath ∧ T' = .string := by
  revert h
  cases T <;> cases T' <;> decide

theorem tryDeserialiseUnchecked_ne_noIdMatch (debug : Bool) (m : Mem) (msg msg' : Message) (T : Builtin) :
    tryDeserialiseUnchecked debug m msg T ≠ .ok (.error (.noIdMatch msg')) := by
  have hunpacked : ∀ {β : Type} (r : Panics (Except SerError (BuiltinValue × β))),
      unpacked r ≠ .ok (.error (.noIdMatch msg')) := by
    intro β r
    match r with
    | .error e => simp [unpacked, Except.map]
    | .ok (.error e) => simp [unpacked, Except.map, Except.mapError]
    | .ok (.ok x) => simp [unpacked, Except.map, Except.mapError]
  unfold tryDeserialiseUnchecked
  match msg.data with
  | .boxed v =>
    cases hv : v.intoLocal with
    | error e => simp [hv, bind, Except.bind]
    | ok b =>
      simp only [hv, bind, Except.bind, pure, Except.pure]
      split_ifs <;> simp
  | .serialised bytes => exact hunpacked _
  | .chunkLease lease => exact hunpacked _
  | .chunkRef ref => exact hunpacked _

/-- A message comes back exactly from the attempts with another id. -/
theorem attempts_eq_iff (debug : Bool) (m : Mem) (msg : Message) (others : List Builtin) :
    attempts debug m msg others = .ok (some msg) ↔ ∀ T ∈ others, msg.serId ≠ T.serId := by
  induction others with
  | nil => simp [attempts]
  | cons T others ih =>
    rw [List.forall_mem_cons, ← ih, attempts, tryDeserialise]
    by_cases hid : msg.serId = T.serId
    · rw [if_pos hid]
      refine iff_of_false ?_ (fun h => h.1 hid)
      have hne := tryDeserialiseUnchecked_ne_noIdMatch debug m msg
      match h : tryDeserialiseUnchecked debug m msg T with
      | .error e => simp [bind, Except.bind]
      | .ok (.ok v) => simp [bind, Except.bind, pure, Except.pure]
      | .ok (.error (.noCast v)) => simp [bind, Except.bind, pure, Except.pure]
      | .ok (.error (.deserError e)) => simp [bind, Except.bind, pure, Except.pure]
      | .ok (.error (.noIdMatch msg')) => exact absurd h (hne msg' T)
    · rw [if_neg hid]
      exact (and_iff_right hid).symm

/-! ## Reading a value back -/

theorem unpacked_eq_iff {β : Type} (r : Panics (Except SerError (BuiltinValue × β))) (v : BuiltinValue) :
    unpacked r = .ok (.ok v) ↔ ∃ buf, r = .ok (.ok (v, buf)) := by
  match r with
  | .error e => simp [unpacked, Except.map]
  | .ok (.error e) => simp [unpacked, Except.map, Except.mapError]
  | .ok (.ok x) =>
    obtain ⟨v', buf⟩ := x
    simp [unpacked, Except.map, Except.mapError]

section

variable {α β : Type} {B : Buf β} {view : β → List UInt8} {ok : β → Prop} {b : β}

theorem unpacked_congr {r : Panics (Except SerError (BuiltinValue × β))}
    {r' : Panics (Except SerError (BuiltinValue × List UInt8))} (h : ExceptRel (ExceptRel (B.SameAt view b)) r r') :
    unpacked r = unpacked r' := by
  cases h with
  | error e => rfl
  | ok h =>
    cases h with
    | error e => rfl
    | ok h => simp [unpacked, Except.map, h.1]

/-- A value that is read alike, as a built-in one. -/
theorem sameAt_map (f : α → BuiltinValue) {r : Panics (Except SerError (α × β))}
    {r' : Panics (Except SerError (α × List UInt8))} (h : ExceptRel (ExceptRel (B.SameAt view b)) r r') :
    ExceptRel (ExceptRel (B.SameAt view b)) (r.map fun r => r.map fun x => (f x.1, x.2))
      (r'.map fun r => r.map fun x => (f x.1, x.2)) := by
  cases h with
  | error e => exact .error e
  | ok h =>
    cases h with
    | error e => exact .ok (.error e)
    | ok h => exact .ok (.ok ⟨congrArg f h.1, h.2⟩)

theorem readString_at {bs : List UInt8} {b₀ : β} (h : B.Shows view ok) (hok : ok b₀) (ha : B.At view b₀ b bs) :
    ExceptRel (ExceptRel (B.SameAt view b₀)) (readString B b) (readString Buf.bytes bs) := by
  refine (h.getVec_at hok ha).bind fun x y hxy => ?_
  obtain ⟨data, b₁⟩ := x
  obtain ⟨data', bs₁⟩ := y
  obtain ⟨rfl, ha₁⟩ := hxy
  simp only
  cases RustString.fromUtf8 data with
  | none => exact .ok (.error _)
  | some s => exact .ok (.ok ⟨rfl, ha₁⟩)

/-- The same is read from a buffer and from the bytes it shows. -/
theorem deserialise_at (debug : Bool) (h : B.Shows view ok) (hok : ok b) (T : Builtin) :
    ExceptRel (ExceptRel (B.SameAt view b)) (T.deserialise debug B b) (T.deserialise debug Buf.bytes (view b)) := by
  have hstart := h.at_start b
  cases T with
  | string => exact sameAt_map .string (readString_at h hok hstart)
  | u64 => exact (h.getUint_at hok hstart 8).bind fun x y hxy => .ok (.ok ⟨by rw [hxy.1], hxy.2⟩)
  | unit => exact .ok (.ok ⟨rfl, hstart⟩)
  | actorPath => exact sameAt_map .actorPath (readActorPath_at debug h hok hstart)
  | systemPath => exact sameAt_map (fun x => .systemPath x.2) (readSystemPath_at h hok hstart)

theorem unpacked_at (debug : Bool) (h : B.Shows view ok) (hok : ok b) (T : Builtin) :
    unpacked (T.deserialise debug B b) = unpacked (T.deserialise debug Buf.bytes (view b)) :=
  unpacked_congr (deserialise_at debug h hok T)

end

/-- What a path is serialised to. -/
theorem serialise_actorPath {path : ActorPath} {bs : List UInt8} (h : path.serialise = .ok (.ok bs)) :
    bs = headerByte path.pathType path.system.protocol (.ofIp path.system.address) ::
        (systemPathBytes path.system ++ path.tailBytes) ∧
      ∀ system segments, path = .named system segments → (joinPath segments).length ≤ 65535 := by
  cases path with
  | unique system id =>
    rw [ActorPath.serialise_eq (show (ActorPath.unique system id).Valid from trivial)] at h
    cases h
    exact ⟨rfl, fun _ _ h => by cases h⟩
  | named system segments =>
    simp only [ActorPath.serialise, SystemPathHeader.fromPath, ofFields_eq, bind, Except.bind, pure, Except.pure] at h
    split at h
    · rename_i hlen
      cases h
      refine ⟨?_, ?_⟩
      · simp [SystemPathHeader.putInto, ActorPath.tailBytes, ActorPath.pathType, ActorPath.system]
      · intro system' segments' heq
        cases heq
        omega
    · cases h

theorem splitOn_joinPath_eq_iff (path : List Utf8) :
    (joinPath path).splitOn slash = path ↔ path ≠ [] ∧ ∀ segment ∈ path, slash ∉ segment := by
  constructor
  · intro h
    have hslash : ∀ segment ∈ path, slash ∉ segment := h ▸ slash_notMem_splitOn (joinPath path)
    exact ⟨(splitOn_joinPath_iff hslash).mp h, hslash⟩
  · exact fun h => (splitOn_joinPath_iff h.2).mpr h.1

theorem makeNamed_bind_eq_iff (debug : Bool) (system : SystemPath) (parts path : List Utf8) (rest rest' : List UInt8) :
    ((makeNamed debug system parts).bind fun path => .ok (.ok (path, rest)) :
      Panics (Except SerError (ActorPath × List UInt8))) = .ok (.ok (.named system path, rest')) ↔
      parts = path ∧ rest' = rest ∧ (debug = true → LookupPath parts) := by
  unfold makeNamed
  split
  · rename_i h
    exact iff_of_false (fun hok => by cases hok) fun hpath => h.2 (hpath.2.2 h.1)
  · rename_i h
    have hlookup : debug = true → LookupPath parts := fun hd => Decidable.of_not_not fun hl => h ⟨hd, hl⟩
    rw [and_iff_left hlookup]
    simp [Except.bind, eq_comm]

/-- A path comes back from its bytes if it is readable. -/
theorem readActorPath_serialised_iff (debug : Bool) {path : ActorPath} {bs : List UInt8}
    (h : path.serialise = .ok (.ok bs)) :
    (∃ rest, readActorPath debug Buf.bytes bs = .ok (.ok (path, rest))) ↔ Readable debug (.actorPath path) := by
  obtain ⟨rfl, hlen⟩ := serialise_actorPath h
  rw [readActorPath_bytes]
  rcases path with ⟨⟨tr, ip | ip, port⟩, id⟩ | ⟨⟨tr, ip | ip, port⟩, path⟩
  · have hread := deserialise_unique tr ip port id []
    rw [List.append_nil] at hread
    refine iff_of_true ⟨[], ?_⟩ rfl
    simp only [ActorPath.pathType, ActorPath.system, ActorPath.tailBytes, AddressType.ofIp, hread]
    rfl
  · refine iff_of_false ?_ (by simp [Readable, IpAddr.isV4])
    rintro ⟨rest, hread⟩
    simp only [ActorPath.deserialise, ActorPath.system, AddressType.ofIp, systemPathFromBuf_v6] at hread
    cases hread
  · have hread := deserialise_named tr ip port (hlen _ _ rfl) []
    rw [List.append_nil] at hread
    have hchecked : ∀ rest, ((makeNamed debug ⟨tr, .v4 ip, port⟩ ((joinPath path).splitOn slash)).bind
        fun path => .ok (.ok (path, [])) : Panics (Except SerError (ActorPath × List UInt8))) =
          .ok (.ok (.named ⟨tr, .v4 ip, port⟩ path, rest)) ↔
        rest = [] ∧ (joinPath path).splitOn slash = path ∧ (debug = true → LookupPath path) := by
      intro rest
      rw [makeNamed_bind_eq_iff]
      constructor
      · rintro ⟨hpath, rfl, hlookup⟩
        exact ⟨rfl, hpath, fun hd => hpath ▸ hlookup hd⟩
      · rintro ⟨rfl, hpath, hlookup⟩
        exact ⟨hpath, rfl, fun hd => hpath.symm ▸ hlookup hd⟩
    simp only [ActorPath.pathType, ActorPath.system, ActorPath.tailBytes, AddressType.ofIp, hread]
    show (∃ rest, (makeNamed debug _ _).bind _ = _) ↔ _
    simp only [hchecked, exists_eq_left, splitOn_joinPath_eq_iff, Readable, IpAddr.isV4, true_and, and_assoc]
  · refine iff_of_false ?_ (by simp [Readable, IpAddr.isV4])
    rintro ⟨rest, hread⟩
    simp only [ActorPath.deserialise, ActorPath.system, AddressType.ofIp, systemPathFromBuf_v6] at hread
    cases hread

/-- To read a system path that was serialised gives it back, or an error where the address is not an IPv4 one. -/
theorem readSystemPath_serialised {path : SystemPath} {bs : List UInt8} (h : path.serialise = .ok (.ok bs)) :
    (path.address.isV4 = true ∧ ∃ header, readSystemPath Buf.bytes bs = .ok (.ok ((header, path), []))) ∨
      path.address.isV4 = false ∧ ∃ e, readSystemPath Buf.bytes bs = .ok (.error e) := by
  rw [show readSystemPath Buf.bytes bs = systemPathFromBuf bs from rfl]
  obtain ⟨tr, ip | ip, port⟩ := path
  all_goals
    simp only [SystemPath.serialise, SystemPathHeader.fromSystem, AddressType.ofIp, ofFields_eq] at h
    obtain rfl := Except.ok.inj (Except.ok.inj h)
    rw [SystemPathHeader.putInto, List.getD_cons_zero, List.cons_append, List.nil_append]
  · have hread := systemPathFromBuf_v4 .unique tr ip port []
    rw [List.append_nil] at hread
    exact .inl ⟨rfl, _, hread⟩
  · exact .inr ⟨rfl, _, systemPathFromBuf_v6 ..⟩

theorem readSystemPath_serialised_iff {path : SystemPath} {bs : List UInt8} (h : path.serialise = .ok (.ok bs)) :
    (∃ header rest, readSystemPath Buf.bytes bs = .ok (.ok ((header, path), rest))) ↔ path.address.isV4 := by
  rcases readSystemPath_serialised h with ⟨hv4, header, hread⟩ | ⟨hv6, e, hread⟩
  · exact iff_of_true ⟨header, [], hread⟩ hv4
  · rw [hread, hv6]
    refine iff_of_false ?_ Bool.false_ne_true
    rintro ⟨header, rest, h⟩
    cases h

theorem readString_putVec (s : RustString) (rest : List UInt8) :
    readString Buf.bytes (putVec s.toByteVec ++ rest) = .ok (.ok (s, rest)) := by
  rw [readString, Buf.getVec_putVec]
  simp only [bind, Except.bind, RustString.fromUtf8_toByteVec]
  rfl

theorem deserialise_string {β : Type} (debug : Bool) (B : Buf β) (buf : β) :
    deserialise debug B buf .string = (readString B buf).map fun r => r.map fun (s, buf) => (.string s, buf) := rfl

/-- A value is read from its bytes by its own deserialiser if it is readable. -/
theorem deserialise_serialised_iff (debug : Bool) {v : BuiltinValue} {bs : List UInt8}
    (h : v.serialise = .ok (.ok bs)) :
    unpacked (v.type.deserialise debug Buf.bytes bs) = .ok (.ok v) ↔ Readable debug v := by
  rw [unpacked_eq_iff]
  cases v with
  | string s =>
    obtain rfl := Except.ok.inj (Except.ok.inj h)
    have hread := readString_putVec s []
    rw [List.append_nil] at hread
    refine iff_of_true ⟨[], ?_⟩ trivial
    rw [BuiltinValue.type, deserialise_string, hread, Except.map, Except.map]
  | u64 num =>
    obtain rfl := Except.ok.inj (Except.ok.inj h)
    have hlt : num.toNat < 256 ^ 8 := by
      have := num.isLt
      omega
    have hget := ByteBuf.getUint_toBE hlt []
    rw [List.append_nil] at hget
    refine iff_of_true ⟨[], ?_⟩ trivial
    simp only [BuiltinValue.type, deserialise, show Buf.bytes.getUint = ByteBuf.getUint from rfl, hget, bind,
      Except.bind, BitVec.ofNat_toNat, BitVec.setWidth_eq]
    rfl
  | unit => exact iff_of_true ⟨bs, rfl⟩ trivial
  | actorPath path =>
    rw [← readActorPath_serialised_iff debug h]
    refine exists_congr fun rest => ?_
    show Except.map _ (readActorPath debug Buf.bytes bs) = _ ↔ _
    match readActorPath debug Buf.bytes bs with
    | .error e => simp [Except.map]
    | .ok (.error e) => simp [Except.map]
    | .ok (.ok x) => obtain ⟨path', rest'⟩ := x; simp [Except.map]
  | systemPath path =>
    show _ ↔ path.address.isV4 = true
    rw [← readSystemPath_serialised_iff h, exists_comm]
    refine exists_congr fun rest => ?_
    show Except.map _ (readSystemPath Buf.bytes bs) = _ ↔ _
    match readSystemPath Buf.bytes bs with
    | .error e => simp [Except.map]
    | .ok (.error e) => simp [Except.map]
    | .ok (.ok x) => obtain ⟨⟨header, path'⟩, rest'⟩ := x; simp [Except.map]

theorem tryDeserialise_own_iff (debug : Bool) {m : Mem} {v : BuiltinValue} {msg : Message}
    (hid : msg.serId = v.serId) (hc : Carries m v msg.data) :
    tryDeserialise debug m msg v.type = .ok (.ok v) ↔
      match msg.data with
      | .boxed _ => v.type ≠ .systemPath
      | _ => Readable debug v := by
  rw [tryDeserialise, if_pos (hid.trans (serId_type v).symm)]
  obtain ⟨sender, receiver, serId, data, session⟩ := msg
  cases data with
  | boxed v' =>
    obtain rfl : v' = v := hc
    cases v' <;> simp [tryDeserialiseUnchecked, BuiltinValue.intoLocal, BuiltinValue.type, bind, Except.bind, pure,
      Except.pure]
  | serialised bytes => exact deserialise_serialised_iff debug hc
  | chunkLease lease =>
    have hshown := unpacked_at debug (shows_leaseBuf m) ⟨hc.1, hc.2.1⟩ v.type
    show unpacked (v.type.deserialise debug (leaseBuf m) lease) = _ ↔ _
    rw [hshown]
    exact deserialise_serialised_iff debug hc.2.2
  | chunkRef ref =>
    have hshown := unpacked_at debug (shows_refBuf m) ⟨hc.1, hc.2.1⟩ v.type
    show unpacked (v.type.deserialise debug (refBuf m) ref) = _ ↔ _
    rw [hshown]
    exact deserialise_serialised_iff debug hc.2.2

theorem attempts_others_iff (debug : Bool) (m : Mem) {v : BuiltinValue} {msg : Message} {others : List Builtin}
    (hid : msg.serId = v.serId) (hothers : v.type ∉ others) :
    attempts debug m msg others = .ok (some msg) ↔
      ¬ (v.type = .string ∧ .actorPath ∈ others) ∧ ¬ (v.type = .actorPath ∧ .string ∈ others) := by
  rw [attempts_eq_iff, hid, ← serId_type]
  constructor
  · intro h
    constructor
    · rintro ⟨hv, hmem⟩
      exact h _ hmem (by rw [hv]; rfl)
    · rintro ⟨hv, hmem⟩
      exact h _ hmem (by rw [hv]; rfl)
  · rintro ⟨h₁, h₂⟩ T hT heq
    have hne : v.type ≠ T := fun h => hothers (h ▸ hT)
    rcases (serId_eq_iff hne).mp heq with ⟨hv, rfl⟩ | ⟨hv, rfl⟩
    · exact h₁ ⟨hv, hT⟩
    · exact h₂ ⟨hv, hT⟩

/-- A message with a built-in value, tried with the deserialisers of other
built-in types and then with its own, is given back and read as it should
exactly if no attempt takes a string for an actor path or the other way round,
and the value is not a boxed system path and not a serialised path that does
not come back. -/
theorem dispatches_iff (debug : Bool) (m : Mem) (v : BuiltinValue) (msg : Message) (others : List Builtin)
    (hid : msg.serId = v.serId) (hcarries : Carries m v msg.data) (hothers : v.type ∉ others) :
    Dispatches debug m v msg others ↔ Matchable debug v msg.data others := by
  unfold Dispatches Matchable
  rw [attempts_others_iff debug m hid hothers, tryDeserialise_own_iff debug hid hcarries, and_assoc]

/-- The string `hi`. -/
def greeting : RustString := ⟨⟨[0x68, 0x69], by decide⟩, ByteArray.validateUTF8_eq_true_iff.mp (by decide)⟩

/-- A message with it, serialised. -/
def greetingMessage : Message :=
  ⟨.unique ⟨.tcp, .v4 1, 80⟩ 7, .unique ⟨.tcp, .v4 2, 80⟩ 8, SerialisationIds.str,
    .serialised [0, 0, 0, 0, 0, 0, 0, 2, 0x68, 0x69], some 3⟩

theorem carries_greeting : Carries (fun _ _ => 0) (.string greeting) greetingMessage.data := by
  show Except.ok (Except.ok (putVec greeting.toByteVec)) = _
  rfl

/-- A string, tried as a number, a unit and a system path. -/
theorem dispatches_iff_greeting :
    Dispatches true (fun _ _ => 0) (.string greeting) greetingMessage [.u64, .unit, .systemPath, .u64] :=
  (dispatches_iff true (fun _ _ => 0) (.string greeting) greetingMessage [.u64, .unit, .systemPath, .u64] rfl
    carries_greeting (by decide)).mpr ⟨by decide, by decide, trivial⟩

/-- A string that is tried as an actor path is not given back, and a boxed
system path is not returned. -/
theorem not_dispatches_string_and_boxed :
    ¬ Dispatches false (fun _ _ => 0) (.string greeting) greetingMessage [.actorPath] ∧
    ¬ Dispatches false (fun _ _ => 0) (.systemPath ⟨.tcp, .v4 1, 80⟩)
      { greetingMessage with serId := SerialisationIds.systemPath, data := .boxed (.systemPath ⟨.tcp, .v4 1, 80⟩) }
      [] := by
  constructor
  · rintro ⟨h, -⟩
    rw [attempts_eq_iff] at h
    exact h .actorPath List.mem_cons_self rfl
  · rintro ⟨-, h⟩
    cases h

end Builtin

end Kompact
