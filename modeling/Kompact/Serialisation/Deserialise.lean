import Kompact.Framework.Buf
import Kompact.Messaging.LookupPaths
import Kompact.Serialisation.SerHelpers

/-!
# Reading messages

Paths and messages are read from a lease, a reference or a byte string by the
same code. What it does depends only on the bytes that are not read yet
(`readEnvelope_at`).

With debug assertions a named path is checked when it is made, so a path that
cannot be looked up panics; without them it is returned (`makeNamed`).
-/

namespace Kompact

variable {β : Type}

/-! ## Deserialisation -/

/-- `NamedPath::with_system`. -/
def makeNamed (debug : Bool) (system : SystemPath) (path : List Utf8) : Panics ActorPath :=
  if debug ∧ ¬ LookupPath path then .error "Path contains illegal characters" else .ok (.named system path)

/-- `system_path_from_buf`, for any buffer. -/
def readSystemPath (B : Buf β) (buf : β) : Panics (Except SerError ((SystemPathHeader × SystemPath) × β)) := do
  let (fields, buf) ← B.getUint buf 1
  match SystemPathHeader.tryFrom (.ofNat fields) with
  | .error e => return .error e
  | .ok header =>
    match header.addressType with
    | .ipv4 =>
      if B.remaining buf < 4 then return .error (.invalidData "Could not parse 4 bytes for IPv4 address")
      let (ip, buf) ← B.copyToSlice buf 4
      let (port, buf) ← B.getUint buf 2
      return .ok ((header, ⟨header.protocol, .v4 (.ofNat 32 (ofBE ip)), .ofNat 16 port⟩), buf)
    | .ipv6 =>
      if B.remaining buf < 16 then return .error (.invalidData "Could not parse 16 bytes for IPv6 address")
      let (ip, buf) ← B.copyToSlice buf 16
      let (port, buf) ← B.getUint buf 2
      return .ok ((header, ⟨header.protocol, .v6 (.ofNat 128 (ofBE ip)), .ofNat 16 port⟩), buf)
    | .domain => throw "not implemented"

/-- `ActorPath::deserialise`, for any buffer. -/
def readActorPath (debug : Bool) (B : Buf β) (buf : β) : Panics (Except SerError (ActorPath × β)) := do
  match ← readSystemPath B buf with
  | .error e => return .error e
  | .ok ((header, systemPath), buf) =>
    match header.pathType with
    | .unique =>
      if B.remaining buf < 16 then return .error (.invalidData "Could not get 16 bytes for UUID")
      let (uuid, buf) ← B.copyToSlice buf 16
      return .ok (.unique systemPath (.ofNat 128 (ofBE uuid)), buf)
    | .named =>
      let (nameLen, buf) ← B.getUint buf 2
      if B.remaining buf < nameLen then
        return .error (.invalidData ("Could not get " ++ toString nameLen ++ " bytes for path name"))
      let (name, buf) ← B.copyToSlice buf nameLen
      let parts := name.splitOn slash
      if parts = [] then return .error (.invalidData "Could not determine name for Named path type")
      let path ← makeNamed debug systemPath parts
      return .ok (path, buf)

/-- Source, destination and serialisation id. -/
structure Envelope where
  src : ActorPath
  dst : ActorPath
  serId : BitVec 64
  deriving DecidableEq, Repr

/-- What `deserialise_chunk_lease` and its siblings read. -/
def readEnvelope (debug : Bool) (B : Buf β) (buf : β) : Panics (Except SerError (Envelope × β)) := do
  match ← readActorPath debug B buf with
  | .error e => return .error e
  | .ok (src, buf) =>
    match ← readActorPath debug B buf with
    | .error e => return .error e
    | .ok (dst, buf) =>
      let (serId, buf) ← B.getUint buf 8
      return .ok (⟨src, dst, .ofNat 64 serId⟩, buf)

/-- A lease, as a buffer. -/
def leaseBuf (m : Mem) : Buf ChunkLease where
  remaining := ChunkLease.remaining
  advance := ChunkLease.advance
  copyToSlice := ChunkLease.copyToSlice m

/-- A reference, as a buffer. -/
def refBuf (m : Mem) : Buf ChunkRef where
  remaining := ChunkRef.remaining
  advance := ChunkRef.advance
  copyToSlice r n := (r.lease.copyToSlice m n).map fun (bs, lease) => (bs, ⟨lease⟩)

def Envelope.withData (e : Envelope) (data : HeapOrSer) : NetMessage := ⟨e.src, e.dst, e.serId, data⟩

def deserialiseChunkLease (debug : Bool) (m : Mem) (buffer : ChunkLease) : Panics (Except SerError NetMessage) := do
  match ← readEnvelope debug (leaseBuf m) buffer with
  | .error e => return .error e
  | .ok (envelope, buffer) => return .ok (envelope.withData (.chunkRef (← buffer.intoChunkRef)))

def deserialiseChunkRef (debug : Bool) (m : Mem) (buffer : ChunkRef) : Panics (Except SerError NetMessage) := do
  match ← readEnvelope debug (refBuf m) buffer with
  | .error e => return .error e
  | .ok (envelope, buffer) => return .ok (envelope.withData (.chunkRef buffer))

def deserialiseBytes (debug : Bool) (buffer : List UInt8) : Panics (Except SerError NetMessage) := do
  match ← readEnvelope debug Buf.bytes buffer with
  | .error e => return .error e
  | .ok (envelope, buffer) => return .ok (envelope.withData (.serialised buffer))

/-! ## What is read depends on the bytes -/

/-- Leases with as many bytes as they say show what is not read yet. -/
theorem shows_leases (m : Mem) (whole : ChunkLease → Prop) (hw : ∀ l, whole l → l.Headed ∧ l.held = l.capacity)
    (hadv : ∀ l n, whole l → whole (l.advance n)) :
    (leaseBuf m).Shows (ChunkLease.unread m) (fun l => whole l ∧ l.readPointer ≤ l.capacity) := by
  have hlen : ∀ l, whole l → (l.unread m).length = l.capacity - l.readPointer := by
    intro l h
    rw [ChunkLease.unread, List.length_drop, ChunkLease.length_bytes_held, (hw l h).2]
  constructor
  case remaining => exact fun l h => (hlen l h.1).symm
  case copy =>
    intro l n h hn
    rw [hlen l h.1] at hn
    have := h.2
    exact (hw l h.1).1.copyToSlice m (hw l h.1).2 (by omega)
  case short =>
    intro l n h hn
    rw [hlen l h.1] at hn
    exact if_pos hn
  case advance =>
    intro l n h hn
    rw [hlen l h.1] at hn
    have := h.2
    refine ⟨⟨hadv l n h.1, ?_⟩, ChunkLease.unread_advance m l n⟩
    rw [leaseBuf, ChunkLease.readPointer_advance, ChunkLease.capacity_advance]
    omega
  case advance_advance => exact ChunkLease.advance_advance
  case advance_zero => exact ChunkLease.advance_zero

theorem shows_leaseBuf (m : Mem) :
    (leaseBuf m).Shows (ChunkLease.unread m) (fun l => l.WF ∧ l.readPointer ≤ l.capacity) :=
  shows_leases m ChunkLease.WF (fun _ h => ⟨h.headed, h.held_eq⟩) fun _ n h => h.advance n

theorem shows_refBuf (m : Mem) :
    (refBuf m).Shows (ChunkRef.unread m) (fun r => r.lease.WF ∧ r.lease.readPointer ≤ r.lease.capacity) where
  remaining r h := (shows_leaseBuf m).remaining r.lease h
  copy r n h hn := by
    show ((leaseBuf m).copyToSlice r.lease n).map _ = _
    rw [(shows_leaseBuf m).copy r.lease n h hn]
    rfl
  short r n h hn := by
    show ((leaseBuf m).copyToSlice r.lease n).map _ = _
    rw [(shows_leaseBuf m).short r.lease n h hn]
    rfl
  advance r n h hn := (shows_leaseBuf m).advance r.lease n h hn
  advance_advance r i j := congrArg ChunkRef.mk (ChunkLease.advance_advance r.lease i j)
  advance_zero r := congrArg ChunkRef.mk (ChunkLease.advance_zero r.lease)

section

variable {B : Buf β} {view : β → List UInt8} {ok : β → Prop} {b₀ b : β} {bs : List UInt8}

theorem readSystemPath_at (h : B.Shows view ok) (hok : ok b₀) (ha : B.At view b₀ b bs) :
    ExceptRel (ExceptRel (B.SameAt view b₀)) (readSystemPath B b) (readSystemPath Buf.bytes bs) := by
  refine (h.getUint_at hok ha 1).bind fun x y hxy => ?_
  obtain ⟨fields, b₁⟩ := x
  obtain ⟨fields', bs₁⟩ := y
  obtain ⟨rfl, ha₁⟩ := hxy
  have hrem : B.remaining b₁ = bs₁.length := h.remaining_at hok ha₁
  simp only
  cases SystemPathHeader.tryFrom (.ofNat fields) with
  | error e => exact .ok (.error e)
  | ok header =>
    simp only
    cases header.addressType with
    | domain => exact ExceptRel.error _
    | ipv4 =>
      simp only [hrem, show Buf.bytes.remaining bs₁ = bs₁.length from rfl]
      split
      · exact ExceptRel.ok (.error _)
      refine (h.copyToSlice_at hok ha₁ 4).bind fun x y hxy => ?_
      obtain ⟨ip, b₂⟩ := x
      obtain ⟨ip', bs₂⟩ := y
      obtain ⟨rfl, ha₂⟩ := hxy
      refine (h.getUint_at hok ha₂ 2).bind fun x y hxy => ?_
      exact .ok (.ok ⟨by rw [hxy.1], hxy.2⟩)
    | ipv6 =>
      simp only [hrem, show Buf.bytes.remaining bs₁ = bs₁.length from rfl]
      split
      · exact ExceptRel.ok (.error _)
      refine (h.copyToSlice_at hok ha₁ 16).bind fun x y hxy => ?_
      obtain ⟨ip, b₂⟩ := x
      obtain ⟨ip', bs₂⟩ := y
      obtain ⟨rfl, ha₂⟩ := hxy
      refine (h.getUint_at hok ha₂ 2).bind fun x y hxy => ?_
      exact .ok (.ok ⟨by rw [hxy.1], hxy.2⟩)

theorem readActorPath_at (debug : Bool) (h : B.Shows view ok) (hok : ok b₀) (ha : B.At view b₀ b bs) :
    ExceptRel (ExceptRel (B.SameAt view b₀)) (readActorPath debug B b) (readActorPath debug Buf.bytes bs) := by
  refine (readSystemPath_at h hok ha).bind fun x y hxy => ?_
  cases hxy with
  | error e => exact .ok (.error e)
  | @ok x y hxy =>
    obtain ⟨⟨header, system⟩, b₁⟩ := x
    obtain ⟨⟨header', system'⟩, bs₁⟩ := y
    obtain ⟨heq, ha₁⟩ := hxy
    obtain ⟨rfl, rfl⟩ := Prod.mk.inj heq
    have hrem : B.remaining b₁ = bs₁.length := h.remaining_at hok ha₁
    simp only
    cases header.pathType with
    | unique =>
      simp only [hrem, show Buf.bytes.remaining bs₁ = bs₁.length from rfl]
      split
      · exact ExceptRel.ok (.error _)
      refine (h.copyToSlice_at hok ha₁ 16).bind fun x y hxy => ?_
      exact .ok (.ok ⟨by rw [hxy.1], hxy.2⟩)
    | named =>
      refine (h.getUint_at hok ha₁ 2).bind fun x y hxy => ?_
      obtain ⟨nameLen, b₂⟩ := x
      obtain ⟨nameLen', bs₂⟩ := y
      obtain ⟨rfl, ha₂⟩ := hxy
      have hrem₂ : B.remaining b₂ = bs₂.length := h.remaining_at hok ha₂
      simp only [hrem₂, show Buf.bytes.remaining bs₂ = bs₂.length from rfl]
      split
      · exact ExceptRel.ok (.error _)
      refine (h.copyToSlice_at hok ha₂ nameLen).bind fun x y hxy => ?_
      obtain ⟨name, b₃⟩ := x
      obtain ⟨name', bs₃⟩ := y
      obtain ⟨rfl, ha₃⟩ := hxy
      simp only
      split
      · exact ExceptRel.ok (.error _)
      cases makeNamed debug system (name.splitOn slash) with
      | error e => exact .error e
      | ok path => exact .ok (.ok ⟨rfl, ha₃⟩)

/-- The same is read from a buffer and from the bytes it shows. -/
theorem readEnvelope_at (debug : Bool) (h : B.Shows view ok) (hok : ok b₀) :
    ExceptRel (ExceptRel (B.SameAt view b₀)) (readEnvelope debug B b₀) (readEnvelope debug Buf.bytes (view b₀)) := by
  refine (readActorPath_at debug h hok (h.at_start b₀)).bind fun x y hxy => ?_
  cases hxy with
  | error e => exact .ok (.error e)
  | @ok x y hxy =>
    obtain ⟨src, b₁⟩ := x
    obtain ⟨src', bs₁⟩ := y
    obtain ⟨rfl, ha₁⟩ := hxy
    refine (readActorPath_at debug h hok ha₁).bind fun x y hxy => ?_
    cases hxy with
    | error e => exact .ok (.error e)
    | @ok x y hxy =>
      obtain ⟨dst, b₂⟩ := x
      obtain ⟨dst', bs₂⟩ := y
      obtain ⟨rfl, ha₂⟩ := hxy
      refine (h.getUint_at hok ha₂ 8).bind fun x y hxy => ?_
      exact .ok (.ok ⟨by rw [hxy.1], hxy.2⟩)

end

/-- A message is read from a lease as its envelope is read from the bytes. Its
payload refers to the bytes behind it, in the slices of the lease. -/
theorem deserialiseChunkLease_at (debug : Bool) (m : Mem) {lease : ChunkLease} (hwf : lease.WF)
    (hptr : lease.readPointer ≤ lease.capacity) :
    ExceptRel (ExceptRel fun msg x => ∃ ref, msg = x.1.withData (.chunkRef ref) ∧ ref.lease.WF ∧ ref.readPointer = 0 ∧
        ref.bytes m = x.2 ∧ ∀ c o, lease.Below c o → ref.lease.Below c o)
      (deserialiseChunkLease debug m lease) (readEnvelope debug Buf.bytes (lease.unread m)) := by
  refine (readEnvelope_at debug (shows_leaseBuf m) ⟨hwf, hptr⟩).bind_left fun x y hxy => ?_
  cases hxy with
  | error e => exact .ok (.error e)
  | @ok x y hxy =>
    obtain ⟨env, l⟩ := x
    obtain ⟨env', payload⟩ := y
    obtain ⟨rfl, hat⟩ := hxy
    obtain ⟨hok, hview⟩ := (shows_leaseBuf m).at_view ⟨hwf, hptr⟩ hat
    obtain ⟨ref, href, hrwf, h0, hbytes, hbelow⟩ := ChunkLease.intoChunkRef_spec hok.1 hok.2
    obtain ⟨k, -, rfl, -⟩ := hat
    simp only [bind, Except.bind, href]
    refine .ok (.ok ⟨ref, rfl, hrwf, h0, by rw [hbytes m, hview], fun c o hb => hbelow c o ?_⟩)
    rw [leaseBuf, ChunkLease.Below, ChunkLease.slices_advance]
    exact hb

/-! ## Byte strings -/

/-- The assertion on a path that was read. -/
def checkPath (debug : Bool) : ActorPath → Panics ActorPath
  | .unique system id => .ok (.unique system id)
  | .named system path => makeNamed debug system path

/-- From a byte string a path is read as `ActorPath.deserialise` does, and then
checked. -/
theorem readActorPath_bytes (debug : Bool) (bs : List UInt8) :
    readActorPath debug Buf.bytes bs = (ActorPath.deserialise bs).bind fun r =>
      match r with
      | .error e => .ok (.error e)
      | .ok (path, rest) => (checkPath debug path).bind fun path => .ok (.ok (path, rest)) := by
  unfold readActorPath ActorPath.deserialise
  rw [show readSystemPath Buf.bytes bs = systemPathFromBuf bs from rfl]
  cases systemPathFromBuf bs with
  | error e => rfl
  | ok r =>
    cases r with
    | error e => rfl
    | ok x =>
      obtain ⟨⟨header, system⟩, bs₁⟩ := x
      simp only [bind, Except.bind, show Buf.bytes.getUint = ByteBuf.getUint from rfl,
        show Buf.bytes.copyToSlice = ByteBuf.copyToSlice from rfl, show Buf.bytes.remaining = List.length from rfl]
      cases header.pathType with
      | unique =>
        simp only
        split
        · rfl
        cases ByteBuf.copyToSlice bs₁ 16 <;> rfl
      | named =>
        simp only
        cases ByteBuf.getUint bs₁ 2 with
        | error e => rfl
        | ok y =>
          obtain ⟨nameLen, bs₂⟩ := y
          simp only
          split
          · rfl
          cases ByteBuf.copyToSlice bs₂ nameLen with
          | error e => rfl
          | ok z =>
            obtain ⟨name, bs₃⟩ := z
            simp only
            split
            · rfl
            rfl

/-- The header of an IPv6 path is never accepted, nor that of a domain. -/
theorem tryFrom_ipv4 {b : UInt8} {header : SystemPathHeader} (h : SystemPathHeader.tryFrom b = .ok header) :
    header.addressType = .ipv4 := by
  have hall : ∀ n < 256, ∀ header ∈ (SystemPathHeader.tryFrom (UInt8.ofNat n)).toOption,
      header.addressType = .ipv4 := by decide +kernel
  have := hall b.toNat b.toNat_lt header
  rw [UInt8.ofNat_toNat, h] at this
  exact this rfl

theorem copyToSlice_bytes (bs : List UInt8) (n : Nat) :
    ByteBuf.copyToSlice bs n =
      if bs.length < n then .error "advance out of bounds" else .ok (bs.take n, bs.drop n) := rfl

theorem getUint_bytes (bs : List UInt8) (w : Nat) :
    ByteBuf.getUint bs w =
      if bs.length < w then .error "advance out of bounds" else .ok (ofBE (bs.take w), bs.drop w) := by
  unfold ByteBuf.getUint
  rw [copyToSlice_bytes]
  split <;> rfl

/-- The system path behind a header that was accepted. -/
def systemOf (header : SystemPathHeader) (rest : List UInt8) : SystemPath :=
  ⟨header.protocol, .v4 (.ofNat 32 (ofBE (rest.take 4))), .ofNat 16 (ofBE ((rest.drop 4).take 2))⟩

theorem systemPathFromBuf_cons (b : UInt8) (rest : List UInt8) :
    systemPathFromBuf (b :: rest) =
      match SystemPathHeader.tryFrom b with
      | .error e => .ok (.error e)
      | .ok header =>
        if rest.length < 4 then .ok (.error (.invalidData "Could not parse 4 bytes for IPv4 address"))
        else if rest.length < 6 then .error "advance out of bounds"
        else .ok (.ok ((header, systemOf header rest), rest.drop 6)) := by
  unfold systemPathFromBuf
  rw [getUint_byte]
  simp only [bind, Except.bind, UInt8.ofNat_toNat]
  cases hh : SystemPathHeader.tryFrom b with
  | error e => rfl
  | ok header =>
    simp only [tryFrom_ipv4 hh]
    split
    · rfl
    · rename_i h4
      simp only [copyToSlice_bytes, if_neg h4, getUint_bytes, List.length_drop]
      by_cases h6 : rest.length < 6
      · rw [if_pos h6, if_pos (by omega)]
      · rw [if_neg h6, if_neg (by omega), List.drop_drop]
        rfl

/-- How a path is read from a byte string. -/
theorem deserialise_cons (b : UInt8) (rest : List UInt8) :
    ActorPath.deserialise (b :: rest) =
      match SystemPathHeader.tryFrom b with
      | .error e => .ok (.error e)
      | .ok header =>
        if rest.length < 4 then .ok (.error (.invalidData "Could not parse 4 bytes for IPv4 address"))
        else if rest.length < 6 then .error "advance out of bounds"
        else
          match header.pathType with
          | .unique =>
            if rest.length < 22 then .ok (.error (.invalidData "Could not get 16 bytes for UUID"))
            else .ok (.ok (.unique (systemOf header rest) (.ofNat 128 (ofBE ((rest.drop 6).take 16))), rest.drop 22))
          | .named =>
            if rest.length < 8 then .error "advance out of bounds"
            else
              let nameLen := ofBE ((rest.drop 6).take 2)
              if rest.length < 8 + nameLen then
                .ok (.error (.invalidData ("Could not get " ++ toString nameLen ++ " bytes for path name")))
              else .ok (.ok (.named (systemOf header rest) (((rest.drop 8).take nameLen).splitOn slash),
                rest.drop (8 + nameLen))) := by
  unfold ActorPath.deserialise
  rw [systemPathFromBuf_cons]
  cases SystemPathHeader.tryFrom b with
  | error e => rfl
  | ok header =>
    simp only [bind, Except.bind]
    by_cases h4 : rest.length < 4
    · simp only [if_pos h4]
      rfl
    by_cases h6 : rest.length < 6
    · simp only [if_neg h4, if_pos h6]
    simp only [if_neg h4, if_neg h6]
    cases header.pathType with
    | unique =>
      simp only [List.length_drop, copyToSlice_bytes]
      by_cases h22 : rest.length < 22
      · rw [if_pos h22, if_pos (by omega)]
        rfl
      · rw [if_neg h22, if_neg (by omega), if_neg (by omega), List.drop_drop]
        rfl
    | named =>
      simp only [getUint_bytes, List.length_drop]
      by_cases h8 : rest.length < 8
      · rw [if_pos h8, if_pos (by omega)]
      rw [if_neg h8, if_neg (by omega)]
      simp only [List.drop_drop, List.length_drop, copyToSlice_bytes, List.splitOn_ne_nil, if_false]
      by_cases hn : rest.length < 8 + ofBE ((rest.drop 6).take 2)
      · rw [if_pos hn, if_pos (by omega)]
        rfl
      · rw [if_neg hn, if_neg (by omega), if_neg (by omega)]
        rfl

/-! ## Paths that were read are written back -/

theorem ofBE_take_two_lt (bs : List UInt8) : ofBE (bs.take 2) < 2 ^ 16 := by
  have h := ofBE_lt (bs.take 2)
  have hlen : (bs.take 2).length ≤ 2 := by rw [List.length_take]; omega
  exact Nat.lt_of_lt_of_le h (Nat.pow_le_pow_right (show 0 < 256 by decide) hlen)

theorem joinPath_splitOn (name : Utf8) : joinPath (name.splitOn slash) = name :=
  List.intercalate_splitOn slash

theorem slash_notMem_splitOn (name : Utf8) : ∀ segment ∈ name.splitOn slash, slash ∉ segment := by
  induction name with
  | nil =>
    intro segment hs
    rw [List.splitOn_nil, List.mem_singleton] at hs
    rw [hs]
    exact List.not_mem_nil
  | cons c name ih =>
    intro segment hs
    rw [List.splitOn_cons_eq_if_modifyHead] at hs
    by_cases hc : (c == slash) = true
    · rw [if_pos hc] at hs
      rcases List.mem_cons.mp hs with rfl | hs
      · exact List.not_mem_nil
      · exact ih segment hs
    · rw [if_neg hc] at hs
      cases hparts : name.splitOn slash with
      | nil => exact absurd hparts (List.splitOn_ne_nil slash name)
      | cons part parts =>
        rw [hparts] at hs ih
        rcases List.mem_cons.mp hs with rfl | hs
        · intro hm
          rcases List.mem_cons.mp hm with he | hm
          · exact hc (by rw [← he]; decide)
          · exact ih part (List.mem_cons_self ..) hm
        · exact ih segment (List.mem_cons_of_mem _ hs)

theorem length_systemPathBytes_v4 (protocol : Transport) (ip : BitVec 32) (port : BitVec 16) :
    (systemPathBytes ⟨protocol, .v4 ip, port⟩).length = 6 := by
  simp [systemPathBytes, IpAddr.octets]

theorem ActorPath.encoded_of_valid {path : ActorPath} (h : path.Valid) :
    path.encoded = some (path.header :: (systemPathBytes path.system ++ path.tailBytes)) := by
  rw [encoded, serialise_eq h]
  rfl

/-- A path that was read has an encoding, as long as the bytes it was read from. -/
theorem deserialise_encoded {bs rest : List UInt8} {path : ActorPath}
    (h : ActorPath.deserialise bs = .ok (.ok (path, rest))) :
    path.Valid ∧ path.system.address.isV4 ∧ ¬ path.isNameless ∧
      ∃ enc, path.encoded = some enc ∧ 0 < enc.length ∧ enc.length ≤ bs.length ∧ rest = bs.drop enc.length := by
  cases bs with
  | nil => cases h
  | cons b bs =>
    rw [deserialise_cons] at h
    cases hh : SystemPathHeader.tryFrom b with
    | error e => rw [hh] at h; cases h
    | ok header =>
      simp only [hh] at h
      by_cases h4 : bs.length < 4
      · rw [if_pos h4] at h; cases h
      by_cases h6 : bs.length < 6
      · rw [if_neg h4, if_pos h6] at h; cases h
      rw [if_neg h4, if_neg h6] at h
      cases ht : header.pathType with
      | unique =>
        simp only [ht] at h
        by_cases h22 : bs.length < 22
        · rw [if_pos h22] at h; cases h
        rw [if_neg h22] at h
        obtain ⟨rfl, rfl⟩ := Prod.mk.inj (Except.ok.inj (Except.ok.inj h))
        refine ⟨trivial, rfl, by simp [ActorPath.isNameless], _, ActorPath.encoded_of_valid trivial, ?_⟩
        have hlen : (systemPathBytes (systemOf header bs) ++ toBE 16 (BitVec.ofNat 128
            (ofBE ((bs.drop 6).take 16))).toNat).length = 22 := by
          rw [List.length_append, length_toBE, systemOf, length_systemPathBytes_v4]
        simp only [ActorPath.system, ActorPath.tailBytes, List.length_cons, hlen, List.drop_succ_cons]
        exact ⟨by omega, by omega, trivial⟩
      | named =>
        simp only [ht] at h
        by_cases h8 : bs.length < 8
        · rw [if_pos h8] at h; cases h
        rw [if_neg h8] at h
        generalize hn : ofBE ((bs.drop 6).take 2) = n at h
        have hn16 : n < 2 ^ 16 := hn ▸ ofBE_take_two_lt _
        by_cases hshort : bs.length < 8 + n
        · rw [if_pos hshort] at h; cases h
        rw [if_neg hshort] at h
        obtain ⟨rfl, rfl⟩ := Prod.mk.inj (Except.ok.inj (Except.ok.inj h))
        have hname : ((bs.drop 8).take n).length = n := by
          rw [List.length_take, List.length_drop]; omega
        have hvalid : (ActorPath.named (systemOf header bs) (((bs.drop 8).take n).splitOn slash)).Valid := by
          refine ⟨slash_notMem_splitOn _, ?_⟩
          rw [joinPath_splitOn, hname]
          omega
        refine ⟨hvalid, rfl, ?_, _, ActorPath.encoded_of_valid hvalid, ?_⟩
        · have hne := List.splitOn_ne_nil slash ((bs.drop 8).take n)
          cases hs : ((bs.drop 8).take n).splitOn slash with
          | nil => exact absurd hs hne
          | cons a as => simp [ActorPath.isNameless]
        · have hlen : (systemPathBytes (systemOf header bs) ++ (toBE 2 n ++ (bs.drop 8).take n)).length = 8 + n := by
            rw [List.length_append, List.length_append, length_toBE, hname, systemOf, length_systemPathBytes_v4]
            omega
          simp only [ActorPath.system, ActorPath.tailBytes, joinPath_splitOn, hname, List.length_cons, hlen,
            List.drop_succ_cons]
          exact ⟨by omega, by omega, trivial⟩

theorem checkPath_ok {debug : Bool} {path path' : ActorPath} (h : checkPath debug path = .ok path') : path' = path := by
  cases path with
  | unique system id => exact (Except.ok.inj h).symm
  | named system path =>
    rw [checkPath, makeNamed] at h
    split at h
    · cases h
    · exact (Except.ok.inj h).symm

/-- A path that was read is written, and read again from what was written. -/
theorem readActorPath_encoded {debug : Bool} {bs rest : List UInt8} {path : ActorPath}
    (h : readActorPath debug Buf.bytes bs = .ok (.ok (path, rest))) :
    ∃ enc, path.encoded = some enc ∧ 0 < enc.length ∧ enc.length ≤ bs.length ∧ rest = bs.drop enc.length ∧
      ∀ rest', readActorPath debug Buf.bytes (enc ++ rest') = .ok (.ok (path, rest')) := by
  rw [readActorPath_bytes] at h
  cases hd : ActorPath.deserialise bs with
  | error e => rw [hd] at h; cases h
  | ok r =>
    rw [hd] at h
    cases r with
    | error e => cases h
    | ok x =>
      obtain ⟨path₀, rest₀⟩ := x
      simp only [Except.bind] at h
      cases hc : checkPath debug path₀ with
      | error e => rw [hc] at h; cases h
      | ok path₁ =>
        rw [hc] at h
        obtain ⟨rfl, rfl⟩ := Prod.mk.inj (Except.ok.inj (Except.ok.inj h))
        obtain rfl := checkPath_ok hc
        obtain ⟨hvalid, hv4, hname, enc, henc, h0, hle, hrest⟩ := deserialise_encoded hd
        refine ⟨enc, henc, h0, hle, hrest, fun rest' => ?_⟩
        obtain ⟨bs', hs, hd'⟩ := (ActorPath.roundTrips_v4_iff hvalid rest').mpr ⟨hv4, hname⟩
        have hbs : bs' = enc := by
          rw [ActorPath.encoded, hs] at henc
          exact Option.some.inj henc
        subst hbs
        rw [readActorPath_bytes, hd']
        simp only [Except.bind, hc]

end Kompact
