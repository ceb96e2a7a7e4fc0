import Kompact.Buffers.ChunkRef
import Kompact.Buffers.EncodeIsolation

/-!
# Framed messages

The producers of network messages. `serialiseMsg` writes a whole message,
`preserialiseMsg` its content, to be put behind the paths by
`serialiseMsgWithPreserialised`, and `embedMsg` a message that is forwarded.
Each pads nine bytes for the frame head and writes it in the end, when the
length is known.

All of them produce the same bytes (`producers_agree`), over however many
chunks these are spread: an operation that puts bytes either appends them to
what was written or leaves an error (`Puts`), and then no lease is given out.
-/

namespace Kompact

/-- A message that can be serialised: the slices it puts into the buffer, and
what it returns after that. -/
structure Message where
  serId : BitVec 64
  sizeHint : Option Nat
  pieces : List (List UInt8)
  result : Except SerError Unit

def Message.payload (msg : Message) : List UInt8 := msg.pieces.flatten

/-- The data of a network message. -/
inductive HeapOrSer where
  | boxed (msg : Message)
  | serialised (bytes : List UInt8)
  | chunkLease (lease : ChunkLease)
  | chunkRef (ref : ChunkRef)

structure NetData where
  serId : BitVec 64
  data : HeapOrSer

structure NetMessage where
  sender : ActorPath
  receiver : ActorPath
  data : NetData

/-! ## Size hints -/

def SystemPath.sizeHint (path : SystemPath) : Option Nat :=
  some (1 + (match path.address with
    | .v4 _ => 4
    | .v6 _ => 16) + 2)

/-- The name is counted with five bytes a segment. -/
def ActorPath.sizeHint (path : ActorPath) : Option Nat := do
  let size ← path.system.sizeHint
  match path with
  | .unique .. => return size + 16
  | .named _ path =>
    let nameLen := path.length * 5
    if 2 ^ 16 ≤ nameLen then none
    else if 2 ^ 16 ≤ 2 + nameLen then none
    else return size + (2 + nameLen)

/-! ## Producers -/

/-- What a function with the encoder returns: a value or an error, and the
encoder. -/
abbrev Encoded (α : Type) := Except SerError α × BufferEncoder

/-- The operator `?`: an error is returned at once. -/
def tryThen {α β : Type} (r : Panics (Encoded α)) (f : α → BufferEncoder → Panics (Encoded β)) : Panics (Encoded β) := do
  match ← r with
  | (.ok a, buf) => f a buf
  | (.error e, buf) => return (.error e, buf)

/-- A `put` cannot fail at once. -/
def putAll (bs : List UInt8) (buf : BufferEncoder) : Panics (Encoded Unit) := return (.ok (), ← buf.putSlice bs)

def ActorPath.serialiseInto (path : ActorPath) (buf : BufferEncoder) : Panics (Encoded Unit) := do
  let header ← SystemPathHeader.fromPath path
  tryThen (putAll header.putInto buf) fun _ buf =>
  tryThen (putAll path.system.address.octets buf) fun _ buf =>
  tryThen (putAll (toBE 2 path.system.port.toNat) buf) fun _ buf =>
  match path with
  | .unique _ id => putAll (toBE 16 id.toNat) buf
  | .named _ path =>
    let data := joinPath path
    if data.length < 2 ^ 16 then tryThen (putAll (toBE 2 data.length) buf) fun _ buf => putAll data buf
    else return (.error (.invalidData "Named path overflows designated 2 bytes length."), buf)

/-- The loop over the slices a message puts. -/
def putPieces : List (List UInt8) → BufferEncoder → Panics (Encoded Unit)
  | [], buf => return (.ok (), buf)
  | piece :: pieces, buf => tryThen (putAll piece buf) fun _ buf => putPieces pieces buf

def Message.serialiseInto (msg : Message) (buf : BufferEncoder) : Panics (Encoded Unit) :=
  tryThen (putPieces msg.pieces buf) fun _ buf => return (msg.result, buf)

def putSerId (serId : BitVec 64) (buf : BufferEncoder) : Panics (Encoded Unit) := putAll (toBE 8 serId.toNat) buf

/-- `usize` subtraction. -/
def checkedSub (a b : Nat) : Panics Nat :=
  if a < b then .error "attempt to subtract with overflow" else .ok (a - b)

def assertEq (a b : Nat) (msg : String) : Panics Unit := if a = b then .ok () else .error msg

/-- The head of a data frame, written into the lease. -/
def insertDataHead (lease : ChunkLease) (len : Nat) (buf : BufferEncoder) : Panics (ChunkLease × BufferEncoder) := do
  let (mem, lease) ← lease.insertHead buf.mem ⟨.data, len⟩
  return (lease, { buf with mem })

/-- The end of `serialise_msg`, where the length is known. -/
def frameLease (chunkLease : ChunkLease) (buf : BufferEncoder) : Panics (Encoded ChunkLease) := do
  let len ← checkedSub chunkLease.capacity frameHeadLen
  let (chunkLease, buf) ← insertDataHead chunkLease len buf
  assertEq chunkLease.capacity (len + frameHeadLen) "Serialized frame length faulty"
  return (.ok chunkLease, buf)

def serialiseMsg (src dst : ActorPath) (msg : Message) (buf : BufferEncoder) : Panics (Encoded ChunkLease) :=
  let reserveSize := msg.sizeHint.getD 0 + src.sizeHint.getD 0 + dst.sizeHint.getD 0
  tryThen (buf.tryReserve (reserveSize + frameHeadLen)) fun _ buf => do
  let buf ← buf.pad frameHeadLen
  tryThen (src.serialiseInto buf) fun _ buf =>
  tryThen (dst.serialiseInto buf) fun _ buf =>
  tryThen (putSerId msg.serId buf) fun _ buf =>
  tryThen (msg.serialiseInto buf) fun _ buf =>
  tryThen buf.getChunkLease frameLease

def preserialiseMsg (msg : Message) (buf : BufferEncoder) : Panics (Encoded ChunkRef) :=
  let reserved := match msg.sizeHint with
    | some hint => buf.tryReserve hint
    | none => .ok (.ok (), buf)
  tryThen reserved fun _ buf =>
  tryThen (putSerId msg.serId buf) fun _ buf =>
  tryThen (msg.serialiseInto buf) fun _ buf =>
  tryThen buf.getChunkLease fun chunkLease buf => return (.ok (← chunkLease.intoChunkRef), buf)

/-- The end of `serialise_msg_with_preserialised`: the content behind its header. -/
def frameHeader (content : ChunkRef) (header : ChunkLease) (buf : BufferEncoder) : Panics (Encoded ChunkRef) := do
  let len ← checkedSub (header.capacity + content.capacity) frameHeadLen
  let (header, buf) ← insertDataHead header len buf
  return (.ok (← header.intoChunkRefWithTail content), buf)

def serialiseMsgWithPreserialised (src dst : ActorPath) (content : ChunkRef) (buf : BufferEncoder) :
    Panics (Encoded ChunkRef) := do
  let buf ← buf.pad frameHeadLen
  tryThen (src.serialiseInto buf) fun _ buf =>
  tryThen (dst.serialiseInto buf) fun _ buf =>
  tryThen buf.getChunkLease (frameHeader content)

/-- The end of `embed_msg` where the data is put behind the header. -/
def embedTail (capacity : Nat) (tail : Panics ChunkRef) (headerLease : ChunkLease) (buf : BufferEncoder) :
    Panics (Encoded ChunkRef) := do
  let frameLen := (← checkedSub headerLease.capacity frameHeadLen) + capacity
  let (headerLease, buf) ← insertDataHead headerLease frameLen buf
  let chunkRef ← headerLease.intoChunkRefWithTail (← tail)
  assertEq chunkRef.capacity (frameLen + frameHeadLen) "Serialized frame sizing failed"
  return (.ok chunkRef, buf)

/-- The end of `embed_msg` where the data was written into the buffer. -/
def embedWritten (chunkLease : ChunkLease) (buf : BufferEncoder) : Panics (Encoded ChunkRef) := do
  let len ← checkedSub chunkLease.capacity frameHeadLen
  let (chunkLease, buf) ← insertDataHead chunkLease len buf
  assertEq chunkLease.capacity (len + frameHeadLen) "Serialized frame sizing failed"
  return (.ok (← chunkLease.intoChunkRef), buf)

def embedMsg (msg : NetMessage) (buf : BufferEncoder) : Panics (Encoded ChunkRef) := do
  let buf ← buf.pad frameHeadLen
  tryThen (msg.sender.serialiseInto buf) fun _ buf =>
  tryThen (msg.receiver.serialiseInto buf) fun _ buf =>
  tryThen (putSerId msg.data.serId buf) fun _ buf =>
  match msg.data.data with
  | .boxed b => tryThen (b.serialiseInto buf) fun _ buf => tryThen buf.getChunkLease embedWritten
  | .serialised bytes => do
    let buf ← buf.put (if bytes = [] then [] else [bytes])
    tryThen buf.getChunkLease embedWritten
  | .chunkLease chunkLease => tryThen buf.getChunkLease (embedTail chunkLease.capacity chunkLease.intoChunkRef)
  | .chunkRef chunkRef => tryThen buf.getChunkLease (embedTail chunkRef.capacity (.ok chunkRef))

/-! ## The bytes of a message -/

/-- The encoding of a path, if it has one. -/
def ActorPath.encoded (path : ActorPath) : Option (List UInt8) :=
  match path.serialise with
  | .ok (.ok bs) => some bs
  | _ => none

/-- The payload of a message, if its serialisation succeeds. -/
def Message.encoded (msg : Message) : Option (List UInt8) :=
  match msg.result with
  | .ok _ => some msg.payload
  | .error _ => none

/-- The content of a frame: source, destination, serialisation id and payload. -/
def contentOf (src dst : ActorPath) (serId : BitVec 64) (payload : List UInt8) : Option (List UInt8) :=
  return (← src.encoded) ++ (← dst.encoded) ++ toBE 8 serId.toNat ++ payload

/-- A content behind the head of a data frame. -/
def dataFrame (content : List UInt8) : List UInt8 := (FrameHead.mk .data content.length).encode ++ content

/-- The frame of a message. -/
def frameOf (src dst : ActorPath) (serId : BitVec 64) (payload : List UInt8) : Option (List UInt8) :=
  (contentOf src dst serId payload).map dataFrame

/-! ## Operations that put bytes -/

/-- Both or none. -/
def bothBytes (a b : Option (List UInt8)) : Option (List UInt8) := return (← a) ++ (← b)

@[simp] theorem bothBytes_some (a b : List UInt8) : bothBytes (some a) (some b) = some (a ++ b) := rfl

/-- An operation that appends the bytes `o` where it succeeds. An encoder that
has an error stays as it is. -/
structure Puts (f : BufferEncoder → Panics (Encoded Unit)) (o : Option (List UInt8)) : Prop where
  stuck : ∀ w, w.serError.isSome = true → ∃ r, f w = .ok (r, w)
  puts : ∀ w leases, w.Inv leases → 0 < w.encodeBuffer.bufferPool.chunkSize →
    ∃ r w' bs, f w = .ok (r, w') ∧ w.Wrote leases w' bs ∧ (r = .ok () → o = some bs)

theorem putSlice_stuck {w : BufferEncoder} (h : w.serError.isSome = true) (bs : List UInt8) : w.putSlice bs = .ok w := by
  cases bs with
  | nil => rfl
  | cons b bs => exact if_pos h

theorem puts_putAll (bs : List UInt8) : Puts (putAll bs) (some bs) where
  stuck w h := ⟨.ok (), by rw [putAll, putSlice_stuck h]; rfl⟩
  puts w leases h hc := by
    obtain ⟨w', hput, hw⟩ := BufferEncoder.putSlice_spec h hc bs
    exact ⟨.ok (), w', bs, by rw [putAll, hput]; rfl, hw, fun _ => rfl⟩

theorem Puts.andThen {f g : BufferEncoder → Panics (Encoded Unit)} {a b : Option (List UInt8)} (hf : Puts f a)
    (hg : Puts g b) : Puts (fun w => tryThen (f w) fun _ w => g w) (bothBytes a b) where
  stuck w h := by
    obtain ⟨r, hr⟩ := hf.stuck w h
    rw [hr]
    cases r with
    | ok _ => exact hg.stuck w h
    | error e => exact ⟨.error e, rfl⟩
  puts w leases h hc := by
    obtain ⟨r, w₁, bs, hr, hw, hok⟩ := hf.puts w leases h hc
    rw [hr]
    cases r with
    | error e => exact ⟨.error e, w₁, bs, rfl, hw, (fun he => by cases he)⟩
    | ok _ =>
      obtain ⟨r', w₂, bs', hr', hw', hok'⟩ := hg.puts w₁ leases hw.inv (hw.size ▸ hc)
      refine ⟨r', w₂, bs ++ bs', hr', hw.trans hw', fun he => ?_⟩
      rw [hok rfl, hok' he, bothBytes_some]

/-- An operation that only returns a result. -/
theorem puts_return {r : Except SerError Unit} {o : Option (List UInt8)} (h : r = .ok () → o = some []) :
    Puts (fun w => .ok (r, w)) o :=
  ⟨fun _ _ => ⟨r, rfl⟩, fun w _ hi _ => ⟨r, w, [], rfl, BufferEncoder.wrote_nil hi, h⟩⟩

theorem puts_putPieces (pieces : List (List UInt8)) : Puts (putPieces pieces) (some pieces.flatten) := by
  induction pieces with
  | nil => exact puts_return fun _ => rfl
  | cons piece pieces ih => exact (puts_putAll piece).andThen ih

theorem puts_message (msg : Message) : Puts msg.serialiseInto msg.encoded := by
  have h := (puts_putPieces msg.pieces).andThen (puts_return (r := msg.result)
    (o := msg.encoded.map fun _ => []) fun he => by rw [Message.encoded, he]; rfl)
  have ho : bothBytes (some msg.pieces.flatten) (msg.encoded.map fun _ => []) = msg.encoded := by
    unfold Message.encoded
    cases msg.result with
    | ok _ => rw [Option.map_some, bothBytes_some, List.append_nil]; rfl
    | error e => rfl
  rw [ho] at h
  exact h

/-- The encoding of what follows the system path. -/
def ActorPath.encodedTail : ActorPath → Option (List UInt8)
  | unique _ id => some (toBE 16 id.toNat)
  | named _ path =>
    if (joinPath path).length < 2 ^ 16 then some (toBE 2 (joinPath path).length ++ joinPath path) else none

/-- The byte of a path's header. -/
def ActorPath.header (path : ActorPath) : UInt8 :=
  headerByte path.pathType path.system.protocol (.ofIp path.system.address)

theorem ActorPath.fromPath_eq (path : ActorPath) :
    SystemPathHeader.fromPath path =
      .ok ⟨[path.header], path.pathType, path.system.protocol, .ofIp path.system.address⟩ := by
  cases path <;> exact ofFields_eq ..

theorem ActorPath.encoded_eq (path : ActorPath) :
    path.encoded = bothBytes (some [path.header]) (bothBytes (some path.system.address.octets)
      (bothBytes (some (toBE 2 path.system.port.toNat)) path.encodedTail)) := by
  cases path with
  | unique system id =>
    simp only [encoded, serialise, fromPath_eq, bind, Except.bind, pure, Except.pure, encodedTail, bothBytes_some,
      SystemPathHeader.putInto, systemPathBytes, List.append_assoc]
    rfl
  | named system path =>
    simp only [encoded, serialise, fromPath_eq, bind, Except.bind, encodedTail]
    by_cases hlen : (joinPath path).length < 2 ^ 16
    · simp only [if_pos hlen, pure, Except.pure, bothBytes_some, SystemPathHeader.putInto, systemPathBytes,
        List.append_assoc]
      rfl
    · simp only [if_neg hlen]
      rfl

/-- What is put after the system path. -/
def ActorPath.putTail (path : ActorPath) (buf : BufferEncoder) : Panics (Encoded Unit) :=
  match path with
  | .unique _ id => putAll (toBE 16 id.toNat) buf
  | .named _ path =>
    if (joinPath path).length < 2 ^ 16 then
      tryThen (putAll (toBE 2 (joinPath path).length) buf) fun _ buf => putAll (joinPath path) buf
    else .ok (.error (.invalidData "Named path overflows designated 2 bytes length."), buf)

theorem ActorPath.puts_putTail (path : ActorPath) : Puts path.putTail path.encodedTail := by
  cases path with
  | unique system id => exact puts_putAll _
  | named system path =>
    unfold putTail encodedTail
    by_cases hlen : (joinPath path).length < 2 ^ 16
    · simp only [if_pos hlen]
      exact (puts_putAll _).andThen (puts_putAll _)
    · simp only [if_neg hlen]
      exact puts_return (fun he => by cases he)

theorem puts_actorPath (path : ActorPath) : Puts path.serialiseInto path.encoded := by
  have h := (puts_putAll [path.header]).andThen ((puts_putAll path.system.address.octets).andThen
    ((puts_putAll (toBE 2 path.system.port.toNat)).andThen path.puts_putTail))
  have hf : path.serialiseInto = fun w => tryThen (putAll [path.header] w) fun _ w =>
      tryThen (putAll path.system.address.octets w) fun _ w =>
      tryThen (putAll (toBE 2 path.system.port.toNat) w) fun _ w => path.putTail w := by
    funext buf
    rw [ActorPath.serialiseInto, ActorPath.fromPath_eq]
    cases path <;> rfl
  rw [hf, path.encoded_eq]
  exact h

/-! ## Framing -/

/-- An encoder with nothing written yet. -/
structure BufferEncoder.Blank (w : BufferEncoder) (leases : List ChunkLease) : Prop where
  inv : w.Inv leases
  noError : w.serError = none
  written : w.written = []
  roomy : 128 ≤ w.encodeBuffer.bufferPool.chunkSize

theorem written_aligned {w : BufferEncoder} (hc : w.chainHead = none)
    (ha : w.encodeBuffer.readOffset = w.encodeBuffer.writeOffset) : w.written = [] := by
  rw [BufferEncoder.written, BufferEncoder.chainBytes, hc, EncodeBuffer.activeBytes, ha, Nat.sub_self, Mem.bytes_zero]
  rfl

theorem tryThen_assoc {α β γ : Type} (r : Panics (Encoded α)) (f : α → BufferEncoder → Panics (Encoded β))
    (g : β → BufferEncoder → Panics (Encoded γ)) :
    tryThen (tryThen r f) g = tryThen r fun a w => tryThen (f a w) g := by
  cases r with
  | error e => rfl
  | ok p =>
    obtain ⟨r, w⟩ := p
    cases r <;> rfl

/-- Everything that was put becomes a lease. -/
theorem lease_spec {f : BufferEncoder → Panics (Encoded Unit)} {o : Option (List UInt8)} (hf : Puts f o)
    {w : BufferEncoder} {leases : List ChunkLease} (h : w.Inv leases)
    (hr : 128 ≤ w.encodeBuffer.bufferPool.chunkSize) :
    ∃ r w', tryThen (f w) (fun _ w => w.getChunkLease) = .ok (r, w') ∧ ∀ l, r = .ok l →
      w.serError = none ∧ w'.Blank (l :: leases) ∧ l.Own leases ∧
      (∃ bs, o = some bs ∧ l.bytes w'.mem = w.written ++ bs) ∧ ∀ l' ∈ leases, l'.bytes w'.mem = l'.bytes w.mem := by
  obtain ⟨r, w₁, bs, hput, hw, hok⟩ := hf.puts w leases h (by omega)
  rw [hput]
  cases r with
  | error e => exact ⟨.error e, w₁, rfl, (fun l hl => by cases hl)⟩
  | ok _ =>
    rcases BufferEncoder.getChunkLease_spec hw.inv with
      ⟨err, w', hget, -⟩ | ⟨l, w', hget, hn, hinv, hmem, hn', hc, hown, hb, ha, hsize⟩
    · exact ⟨.error err, w', hget, (fun l hl => by cases hl)⟩
    · refine ⟨.ok l, w', hget, fun l' hl' => ?_⟩
      obtain rfl := Except.ok.inj hl'
      obtain ⟨hn₀, hb₀⟩ := hw.written hn
      exact ⟨hn₀, ⟨hinv, hn', written_aligned hc ha, by rw [hsize, hw.size]; exact hr⟩, hown,
        ⟨bs, hok rfl, hb.trans hb₀⟩, fun l' hl' => by rw [hmem]; exact hw.kept l' hl'⟩

/-- A padded head, and what was put behind it. -/
theorem padded_lease_spec {f : BufferEncoder → Panics (Encoded Unit)} {o : Option (List UInt8)} (hf : Puts f o)
    {w : BufferEncoder} {leases : List ChunkLease} (h : w.Blank leases) :
    ∃ r w', (w.pad frameHeadLen).bind (fun w => tryThen (f w) fun _ w => w.getChunkLease) = .ok (r, w') ∧
      ∀ l, r = .ok l → w'.Blank (l :: leases) ∧ l.Own leases ∧
        (∃ junk bs, junk.length = frameHeadLen ∧ o = some bs ∧ l.bytes w'.mem = junk ++ bs) ∧
        ∀ l' ∈ leases, l'.bytes w'.mem = l'.bytes w.mem := by
  by_cases hp : w.padFails frameHeadLen
  · -- nothing is put any more, and the lease is refused
    obtain ⟨w₁, hpad, herr, -⟩ := BufferEncoder.pad_fails h.inv hp
    obtain ⟨r, hr⟩ := hf.stuck w₁ herr
    rw [hpad]
    show ∃ r w', tryThen (f w₁) _ = .ok (r, w') ∧ _
    rw [hr]
    cases r with
    | error e => exact ⟨.error e, w₁, rfl, (fun l hl => by cases hl)⟩
    | ok _ =>
      obtain ⟨err, herr'⟩ := Option.isSome_iff_exists.mp herr
      refine ⟨.error err, { w₁ with serError := none }, ?_, (fun l hl => by cases hl)⟩
      show w₁.getChunkLease = _
      rw [BufferEncoder.getChunkLease, herr']
  · have hroom : frameHeadLen ≤ w.encodeBuffer.bufferPool.chunkSize := Nat.le_trans (by decide) h.roomy
    obtain ⟨w₁, junk, hpad, hjunk, hw⟩ := BufferEncoder.pad_spec h.inv hroom hp
    obtain ⟨r, w', hrun, hl⟩ := lease_spec hf hw.inv (hw.size ▸ h.roomy)
    refine ⟨r, w', by rw [hpad]; exact hrun, fun l hr => ?_⟩
    obtain ⟨hn, hblank, hown, ⟨bs, ho, hb⟩, hkept⟩ := hl l hr
    refine ⟨hblank, hown, ⟨junk, bs, hjunk, ho, ?_⟩, fun l' hl' => (hkept l' hl').trans (hw.kept l' hl')⟩
    rw [hb, (hw.written hn).2, h.written, List.nil_append]

theorem bind_tryThen {α β : Type} (r : Panics BufferEncoder) (f : BufferEncoder → Panics (Encoded α))
    (g : α → BufferEncoder → Panics (Encoded β)) : (r.bind fun w => tryThen (f w) g) = tryThen (r.bind f) g := by
  cases r <;> rfl

/-- What all producers do: pad, put, take the lease, and finish it. -/
theorem framed_spec {β : Type} {f : BufferEncoder → Panics (Encoded Unit)} {o : Option (List UInt8)} (hf : Puts f o)
    {w : BufferEncoder} {leases : List ChunkLease} (h : w.Blank leases)
    {finish : ChunkLease → BufferEncoder → Panics (Encoded β)} {Q : β → BufferEncoder → Prop}
    (hfin : ∀ l w₁ junk bs, l.Own leases → junk.length = frameHeadLen → o = some bs → l.bytes w₁.mem = junk ++ bs →
      (∀ l' ∈ leases, l'.bytes w₁.mem = l'.bytes w.mem) → ∃ b w', finish l w₁ = .ok (.ok b, w') ∧ Q b w') :
    ∃ r w', (w.pad frameHeadLen).bind (fun w => tryThen (f w) fun _ w => tryThen w.getChunkLease finish) =
      .ok (r, w') ∧ ∀ b, r = .ok b → Q b w' := by
  obtain ⟨r, w₁, hrun, hl⟩ := padded_lease_spec hf h
  simp only [← tryThen_assoc]
  rw [bind_tryThen, hrun]
  cases r with
  | error e => exact ⟨.error e, w₁, rfl, (fun b hb => by cases hb)⟩
  | ok l =>
    obtain ⟨-, hown, ⟨junk, bs, hj, ho, hb⟩, hkept⟩ := hl l rfl
    obtain ⟨b, w', hend, hq⟩ := hfin l w₁ junk bs hown hj ho hb hkept
    refine ⟨.ok b, w', hend, fun b' hb' => ?_⟩
    obtain rfl := Except.ok.inj hb'
    exact hq

/-- The head is written over the padding. -/
theorem insertDataHead_spec {l : ChunkLease} {w : BufferEncoder} {leases : List ChunkLease} {junk bs : List UInt8}
    (hown : l.Own leases) (hj : junk.length = frameHeadLen) (hb : l.bytes w.mem = junk ++ bs) (len : Nat) :
    ∃ w', insertDataHead l len w = .ok (l, w') ∧ l.bytes w'.mem = (FrameHead.mk .data len).encode ++ bs ∧
      ∀ l' ∈ leases, l'.bytes w'.mem = l'.bytes w.mem := by
  have hcap : l.capacity = frameHeadLen + bs.length := by
    rw [← hown.wf.length_bytes w.mem, hb, List.length_append, hj]
  obtain ⟨m', hins, hbytes, hkept⟩ := ChunkLease.insertHead_spec hown (by omega) w.mem ⟨.data, len⟩
  refine ⟨{ w with mem := m' }, by rw [insertDataHead, hins]; rfl, ?_, fun l' hl' => hkept l' (hown.apart l' hl')⟩
  rw [hbytes, hb, List.drop_left' hj]

theorem contentOf_eq (src dst : ActorPath) (serId : BitVec 64) (payload : List UInt8) :
    contentOf src dst serId payload =
      bothBytes src.encoded (bothBytes dst.encoded (bothBytes (some (toBE 8 serId.toNat)) (some payload))) := by
  unfold contentOf
  cases src.encoded with
  | none => rfl
  | some s =>
    cases dst.encoded with
    | none => rfl
    | some d => simp [bothBytes]

theorem contentOf_append (src dst : ActorPath) (serId : BitVec 64) (a b : List UInt8) :
    contentOf src dst serId (a ++ b) = (contentOf src dst serId a).map (· ++ b) := by
  unfold contentOf
  cases src.encoded with
  | none => rfl
  | some s =>
    cases dst.encoded with
    | none => rfl
    | some d => simp

/-- Paths, serialisation id and payload. -/
theorem puts_content (src dst : ActorPath) (serId : BitVec 64) {f : BufferEncoder → Panics (Encoded Unit)}
    {payload : List UInt8} (hf : Puts f (some payload)) :
    Puts (fun w => tryThen (src.serialiseInto w) fun _ w => tryThen (dst.serialiseInto w) fun _ w =>
      tryThen (putSerId serId w) fun _ w => f w) (contentOf src dst serId payload) := by
  rw [contentOf_eq]
  exact (puts_actorPath src).andThen ((puts_actorPath dst).andThen ((puts_putAll _).andThen hf))

/-- A message puts its payload, or fails. -/
theorem puts_payload (msg : Message) : Puts msg.serialiseInto (some msg.payload) := by
  refine ⟨(puts_message msg).stuck, fun w leases h hc => ?_⟩
  obtain ⟨r, w', bs, hrun, hw, hok⟩ := (puts_message msg).puts w leases h hc
  refine ⟨r, w', bs, hrun, hw, fun he => ?_⟩
  have := hok he
  unfold Message.encoded at this
  split at this
  · exact this
  · cases this

/-- The lease of a whole message, with its head. -/
theorem framed_lease_spec {l : ChunkLease} {w : BufferEncoder} {leases : List ChunkLease} {junk bs : List UInt8}
    (hown : l.Own leases) (hj : junk.length = frameHeadLen) (hb : l.bytes w.mem = junk ++ bs) :
    checkedSub l.capacity frameHeadLen = .ok bs.length ∧ l.capacity = bs.length + frameHeadLen ∧
      ∃ w', insertDataHead l bs.length w = .ok (l, w') ∧ l.bytes w'.mem = dataFrame bs := by
  have hcap : l.capacity = bs.length + frameHeadLen := by
    rw [← hown.wf.length_bytes w.mem, hb, List.length_append, hj, Nat.add_comm]
  obtain ⟨w', hins, hbytes, -⟩ := insertDataHead_spec hown hj hb bs.length
  refine ⟨?_, hcap, w', hins, hbytes⟩
  rw [checkedSub, if_neg (by omega), hcap, Nat.add_sub_cancel]

theorem serialiseMsg_spec {w : BufferEncoder} {leases : List ChunkLease} (h : w.Blank leases) (src dst : ActorPath)
    (msg : Message) :
    ∃ r w', serialiseMsg src dst msg w = .ok (r, w') ∧ ∀ l, r = .ok l →
      l.WF ∧ l.readPointer = 0 ∧ frameOf src dst msg.serId msg.payload = some (l.unread w'.mem) := by
  unfold serialiseMsg
  simp only
  obtain ⟨r₀, w₀, hres, hw₀, hn₀⟩ :=
    BufferEncoder.tryReserve_spec h.inv (msg.sizeHint.getD 0 + src.sizeHint.getD 0 + dst.sizeHint.getD 0 + frameHeadLen)
  rw [hres]
  cases r₀ with
  | error e => exact ⟨.error e, w₀, rfl, (fun l hl => by cases hl)⟩
  | ok _ =>
    have hb₀ : w₀.Blank leases := by
      have hn : w₀.serError = none := hn₀.trans h.noError
      refine ⟨hw₀.inv, hn, ?_, hw₀.size ▸ h.roomy⟩
      rw [(hw₀.written hn).2, h.written, List.append_nil]
    have hrun := @framed_spec _ _ _ (puts_content src dst msg.serId (puts_payload msg)) w₀ leases hb₀ frameLease
      (fun l w' => l.WF ∧ l.readPointer = 0 ∧ frameOf src dst msg.serId msg.payload = some (l.unread w'.mem))
      fun l w₁ junk bs hown hj ho hb _ => by
        obtain ⟨hsub, hcap, w', hins, hframe⟩ := framed_lease_spec hown hj hb
        refine ⟨l, w', ?_, hown.wf, hown.unread, ?_⟩
        · simp only [frameLease, bind, Except.bind, hsub, hins, assertEq, if_pos hcap]
          rfl
        · rw [frameOf, ho, Option.map_some, ← hframe, ChunkLease.unread, hown.unread, List.drop_zero]
    simp only [tryThen_assoc] at hrun
    exact hrun

theorem preserialiseMsg_spec {w : BufferEncoder} {leases : List ChunkLease} (h : w.Blank leases) (msg : Message) :
    ∃ r w', preserialiseMsg msg w = .ok (r, w') ∧ ∀ content, r = .ok content →
      w'.Blank (content.lease :: leases) ∧ content.lease.WF ∧ content.readPointer = 0 ∧
        content.bytes w'.mem = toBE 8 msg.serId.toNat ++ msg.payload := by
  -- the reservation, if there is one
  obtain ⟨r₀, w₀, hres, hb₀⟩ : ∃ r₀ w₀, (match msg.sizeHint with
      | some hint => w.tryReserve hint
      | none => .ok (.ok (), w)) = .ok (r₀, w₀) ∧ w₀.Blank leases := by
    cases msg.sizeHint with
    | none => exact ⟨.ok (), w, rfl, h⟩
    | some hint =>
      obtain ⟨r₀, w₀, hres, hw₀, hn₀⟩ := BufferEncoder.tryReserve_spec h.inv hint
      have hn : w₀.serError = none := hn₀.trans h.noError
      refine ⟨r₀, w₀, hres, hw₀.inv, hn, ?_, hw₀.size ▸ h.roomy⟩
      rw [(hw₀.written hn).2, h.written, List.append_nil]
  unfold preserialiseMsg
  simp only [hres]
  cases r₀ with
  | error e => exact ⟨.error e, w₀, rfl, (fun l hl => by cases hl)⟩
  | ok _ =>
    obtain ⟨r, w₁, hrun, hl⟩ := lease_spec ((puts_putAll (toBE 8 msg.serId.toNat)).andThen (puts_payload msg)) hb₀.inv
      hb₀.roomy
    show ∃ r w', tryThen (putAll _ w₀) _ = .ok (r, w') ∧ _
    rw [← tryThen_assoc, ← tryThen_assoc, hrun]
    cases r with
    | error e => exact ⟨.error e, w₁, rfl, (fun l hl => by cases hl)⟩
    | ok l =>
      obtain ⟨-, hblank, hown, ⟨bs, ho, hb⟩, -⟩ := hl l rfl
      refine ⟨.ok ⟨l⟩, w₁, ?_, fun content hc => ?_⟩
      · simp only [tryThen, bind, Except.bind, ChunkLease.intoChunkRef_of_unread hown.wf hown.unread]
        rfl
      · obtain rfl := Except.ok.inj hc
        refine ⟨hblank, hown.wf, hown.unread, ?_⟩
        rw [ChunkRef.bytes, hb, hb₀.written, List.nil_append]
        exact (Option.some.inj ho).symm

/-- The header of a message, with a reference put behind it. -/
theorem header_with_tail_spec {l t : ChunkLease} {w : BufferEncoder} {leases : List ChunkLease} {junk bs : List UInt8}
    (hown : l.Own leases) (hj : junk.length = frameHeadLen) (hb : l.bytes w.mem = junk ++ bs) (ht : t ∈ leases)
    (hlen : (t.bytes w.mem).length = t.capacity) :
    checkedSub l.capacity frameHeadLen = .ok bs.length ∧
      checkedSub (l.capacity + t.capacity) frameHeadLen = .ok (bs.length + t.capacity) ∧
      l.intoChunkRefWithTail ⟨t⟩ = .ok ⟨l.appendToChain t⟩ ∧
      (l.appendToChain t).capacity = bs.length + t.capacity + frameHeadLen ∧
      (l.appendToChain t).readPointer = 0 ∧
      ∃ w', insertDataHead l (bs.length + t.capacity) w = .ok (l, w') ∧
        (l.appendToChain t).bytes w'.mem = dataFrame (bs ++ t.bytes w.mem) := by
  have hcap : l.capacity = bs.length + frameHeadLen := by
    rw [← hown.wf.length_bytes w.mem, hb, List.length_append, hj, Nat.add_comm]
  obtain ⟨w', hins, hbytes, hkept⟩ := insertDataHead_spec hown hj hb (bs.length + t.capacity)
  refine ⟨?_, ?_, ?_, ?_, ?_, w', hins, ?_⟩
  · rw [checkedSub, if_neg (by omega), hcap, Nat.add_sub_cancel]
  · rw [checkedSub, if_neg (by omega), show l.capacity + t.capacity - frameHeadLen = bs.length + t.capacity by omega]
  · simp only [ChunkLease.intoChunkRefWithTail, ChunkLease.intoChunkRef_of_unread hown.wf hown.unread, bind, Except.bind]
    rfl
  · rw [ChunkLease.capacity_appendToChain, hcap]
    omega
  · rw [ChunkLease.readPointer_appendToChain, hown.unread]
  · rw [ChunkLease.bytes_appendToChain, hbytes, hkept t ht, dataFrame, List.append_assoc, List.length_append, hlen]

/-- The paths, as the header of a message. -/
theorem puts_paths (src dst : ActorPath) :
    Puts (fun w => tryThen (src.serialiseInto w) fun _ w => dst.serialiseInto w)
      (bothBytes src.encoded dst.encoded) :=
  (puts_actorPath src).andThen (puts_actorPath dst)

/-- A frame, by the paths and what follows them. -/
theorem frameOf_eq (src dst : ActorPath) (serId : BitVec 64) (payload : List UInt8) :
    frameOf src dst serId payload =
      (bothBytes (bothBytes src.encoded dst.encoded) (some (toBE 8 serId.toNat ++ payload))).map dataFrame := by
  rw [frameOf, contentOf_eq]
  unfold bothBytes
  cases src.encoded <;> cases dst.encoded <;> simp

theorem serialiseMsgWithPreserialised_spec {w : BufferEncoder} {leases : List ChunkLease} (h : w.Blank leases)
    (src dst : ActorPath) {content : ChunkRef} (hc : content.lease ∈ leases) (hwf : content.lease.WF) :
    ∃ r w', serialiseMsgWithPreserialised src dst content w = .ok (r, w') ∧ ∀ l, r = .ok l →
      (content.readPointer = 0 → l.lease.WF) ∧ l.readPointer = 0 ∧
        (bothBytes (bothBytes src.encoded dst.encoded) (some (content.bytes w.mem))).map dataFrame =
          some (l.unread w'.mem) := by
  have hrun := @framed_spec _ _ _ (puts_paths src dst) w leases h (frameHeader content)
    (fun l w' => (content.readPointer = 0 → l.lease.WF) ∧ l.readPointer = 0 ∧
      (bothBytes (bothBytes src.encoded dst.encoded) (some (content.bytes w.mem))).map dataFrame =
        some (l.unread w'.mem)) fun l w₁ junk bs hown hj ho hb hkept => by
      obtain ⟨-, hsub, hinto, -, hread, w', hins, hframe⟩ :=
        header_with_tail_spec hown hj hb hc (hwf.length_bytes w₁.mem)
      refine ⟨⟨l.appendToChain content.lease⟩, w', ?_, fun h0 => hown.wf.appendToChain hwf h0, hread, ?_⟩
      · simp only [frameHeader, bind, Except.bind, ChunkRef.capacity, hsub, hins, hinto]
        rfl
      · rw [ho, bothBytes_some, Option.map_some, ChunkRef.bytes, ← hkept content.lease hc, ← hframe, ChunkRef.unread,
          ChunkLease.unread, hread, List.drop_zero]
  simp only [tryThen_assoc] at hrun
  exact hrun

theorem embedWritten_spec {l : ChunkLease} {w : BufferEncoder} {leases : List ChunkLease} {junk bs : List UInt8}
    (hown : l.Own leases) (hj : junk.length = frameHeadLen) (hb : l.bytes w.mem = junk ++ bs) :
    ∃ r w', embedWritten l w = .ok (.ok r, w') ∧ r.unread w'.mem = dataFrame bs := by
  obtain ⟨hsub, hcap, w', hins, hframe⟩ := framed_lease_spec hown hj hb
  refine ⟨⟨l⟩, w', ?_, ?_⟩
  · simp only [embedWritten, bind, Except.bind, hsub, hins, assertEq, if_pos hcap,
      ChunkLease.intoChunkRef_of_unread hown.wf hown.unread]
    rfl
  · rw [ChunkRef.unread, ChunkLease.unread, hown.unread, List.drop_zero, hframe]

theorem embedTail_spec {l t : ChunkLease} {w : BufferEncoder} {leases : List ChunkLease} {junk bs : List UInt8}
    (hown : l.Own leases) (hj : junk.length = frameHeadLen) (hb : l.bytes w.mem = junk ++ bs) (ht : t ∈ leases)
    (hlen : (t.bytes w.mem).length = t.capacity) :
    ∃ r w', embedTail t.capacity (.ok ⟨t⟩) l w = .ok (.ok r, w') ∧
      r.unread w'.mem = dataFrame (bs ++ t.bytes w.mem) := by
  obtain ⟨hsub, -, hinto, hcap, hread, w', hins, hframe⟩ := header_with_tail_spec hown hj hb ht hlen
  refine ⟨⟨l.appendToChain t⟩, w', ?_, ?_⟩
  · have hassert : assertEq (ChunkRef.capacity ⟨l.appendToChain t⟩) (bs.length + t.capacity + frameHeadLen)
        "Serialized frame sizing failed" = .ok () := if_pos hcap
    simp only [embedTail, bind, Except.bind, hsub, hins, hinto, hassert]
    rfl
  · rw [ChunkRef.unread, ChunkLease.unread, hread, List.drop_zero, hframe]

/-- `put` of a byte string. -/
theorem puts_put (bytes : List UInt8) :
    Puts (fun w => (w.put (if bytes = [] then [] else [bytes])).bind fun w => .ok (.ok (), w)) (some bytes) := by
  have hflat : (if bytes = [] then [] else [bytes]).flatten = bytes := by
    by_cases hb : bytes = [] <;> simp [hb]
  refine ⟨fun w h => ⟨.ok (), ?_⟩, fun w leases h hc => ?_⟩
  · by_cases hb : bytes = []
    · simp only [if_pos hb]; rfl
    · simp only [if_neg hb, BufferEncoder.put, if_pos h]; rfl
  · obtain ⟨w', hput, hw⟩ := BufferEncoder.put_spec h hc (if bytes = [] then [] else [bytes])
    rw [hflat] at hw
    exact ⟨.ok (), w', bytes, by rw [hput]; rfl, hw, fun _ => rfl⟩

/-- The payload a network message is sent with: of a reference all bytes, read
or not. -/
def HeapOrSer.sent (m : Mem) : HeapOrSer → List UInt8
  | boxed msg => msg.payload
  | serialised bytes => bytes
  | chunkLease lease => lease.bytes m
  | chunkRef ref => ref.bytes m

/-- Data that can be embedded: of a lease nothing was read, and leases and
references are live. -/
def HeapOrSer.Embeddable (leases : List ChunkLease) : HeapOrSer → Prop
  | boxed _ => True
  | serialised _ => True
  | chunkLease lease => lease ∈ leases ∧ lease.WF ∧ lease.readPointer = 0
  | chunkRef ref => ref.lease ∈ leases ∧ ref.lease.WF

theorem embedMsg_spec {w : BufferEncoder} {leases : List ChunkLease} (h : w.Blank leases) {msg : NetMessage}
    (hd : msg.data.data.Embeddable leases) :
    ∃ r w', embedMsg msg w = .ok (r, w') ∧ ∀ l, r = .ok l →
      frameOf msg.sender msg.receiver msg.data.serId (msg.data.data.sent w.mem) = some (l.unread w'.mem) := by
  obtain ⟨src, dst, serId, data⟩ := msg
  -- the data is put into the buffer
  have written : ∀ {f : BufferEncoder → Panics (Encoded Unit)} {payload : List UInt8}, Puts f (some payload) → _ :=
    fun {f payload} hf => @framed_spec _ _ _ (puts_content src dst serId hf) w leases h embedWritten
      (fun l w' => frameOf src dst serId payload = some (l.unread w'.mem)) fun l w₁ junk bs hown hj ho hb _ => by
        obtain ⟨r, w', hend, hframe⟩ := embedWritten_spec hown hj hb
        exact ⟨r, w', hend, by rw [frameOf, ho, Option.map_some, hframe]⟩
  -- the data is chained behind what was put
  have behind : ∀ t : ChunkLease, t ∈ leases → t.WF → _ := fun t ht hwf =>
    @framed_spec _ _ _ (puts_content src dst serId (puts_return (o := some []) (r := .ok ()) fun _ => rfl)) w leases h
      (embedTail t.capacity (.ok ⟨t⟩)) (fun l w' => frameOf src dst serId (t.bytes w.mem) = some (l.unread w'.mem))
      fun l w₁ junk bs hown hj ho hb hkept => by
        obtain ⟨r, w', hend, hframe⟩ := embedTail_spec hown hj hb ht (hwf.length_bytes w₁.mem)
        refine ⟨r, w', hend, ?_⟩
        have hc := contentOf_append src dst serId [] (t.bytes w.mem)
        rw [List.nil_append, ho, Option.map_some] at hc
        rw [frameOf, hc, Option.map_some, hframe, hkept t ht]
  have hput : ∀ bytes (w : BufferEncoder), tryThen ((w.put (if bytes = [] then [] else [bytes])).bind fun w =>
      .ok (.ok (), w)) (fun _ w => tryThen w.getChunkLease embedWritten) =
        (w.put (if bytes = [] then [] else [bytes])).bind fun w => tryThen w.getChunkLease embedWritten := by
    intro bytes w
    cases w.put (if bytes = [] then [] else [bytes]) <;> rfl
  cases data with
  | boxed msg =>
    have hrun := written (puts_payload msg)
    simp only [tryThen_assoc] at hrun
    exact hrun
  | serialised bytes =>
    have hrun := written (puts_put bytes)
    simp only [tryThen_assoc, hput] at hrun
    exact hrun
  | chunkLease lease =>
    obtain ⟨ht, hwf, h0⟩ := hd
    have hrun := behind lease ht hwf
    simp only [tryThen_assoc] at hrun
    rw [← ChunkLease.intoChunkRef_of_unread hwf h0] at hrun
    exact hrun
  | chunkRef ref =>
    have hrun := behind ref.lease hd.1 hd.2
    simp only [tryThen_assoc] at hrun
    exact hrun

/-! ## All producers agree -/

/-- An encode buffer that no encoder is using: any write offset, any chunk size
that is accepted, and any chunks in the pool, with any locks on them. -/
structure EncodeBuffer.Ready (e : EncodeBuffer) : Prop where
  bound : e.writeOffset ≤ e.buffer.len
  active : e.buffer.locked = false
  roomy : 128 ≤ e.bufferPool.chunkSize
  sound : ∃ locks, e.bufferPool.Sound [e.buffer] locks

theorem Encoding.Inv.ready {s : Encoding} (h : s.Inv) : s.encoder.encodeBuffer.Ready :=
  ⟨h.encoder.buffer.bound, h.encoder.buffer.active, h.roomy, _, h.encoder.buffer.sound⟩

/-- Leases that hold the given locks, and no bytes. -/
def emptyLeases (locks : List ChunkId) : List ChunkLease := locks.map fun k => .new ⟨k, 0, 0⟩ k

theorem locksOf_emptyLeases (locks : List ChunkId) : locksOf (emptyLeases locks) = locks := by
  simp [locksOf, emptyLeases, List.flatMap_map]

/-- Of the leases that were taken before only the locks matter. -/
theorem EncodeBuffer.Ready.inv {e : EncodeBuffer} (h : e.Ready) :
    ∃ leases, EncodeBuffer.Inv { e with readOffset := e.writeOffset } leases := by
  obtain ⟨locks, hs⟩ := h.sound
  refine ⟨emptyLeases locks, Nat.le_refl _, h.bound, h.active, by rw [locksOf_emptyLeases]; exact hs, fun l hl => ?_⟩
  obtain ⟨k, -, rfl⟩ := List.mem_map.mp hl
  refine ⟨fun s hs => ?_, fun s hs _ => ?_⟩
  · rw [ChunkLease.slices_new, List.mem_singleton] at hs
    rw [hs, ChunkLease.locks_new]
    exact List.mem_singleton_self _
  · rw [ChunkLease.slices_new, List.mem_singleton] at hs
    rw [hs]
    exact Nat.zero_le _

/-- Every encoder is obtained from an aligned buffer, or after a swap. -/
theorem getBufferEncoder_aligned {e : EncodeBuffer} {m : Mem} {w : BufferEncoder}
    (h : e.getBufferEncoder m = .ok (.ok w)) :
    EncodeBuffer.getBufferEncoder m { e with readOffset := e.writeOffset } = .ok (.ok w) := by
  unfold EncodeBuffer.getBufferEncoder at h ⊢
  by_cases hlow : e.writeableLen < e.minRemaining
  · have hlow' : EncodeBuffer.writeableLen { e with readOffset := e.writeOffset } < e.minRemaining := hlow
    rw [if_pos hlow] at h
    rw [if_pos hlow']
    unfold EncodeBuffer.swapBuffer at h ⊢
    simp only at h ⊢
    generalize e.bufferPool.getBuffer = r at *
    obtain ⟨o, p⟩ := r
    cases o with
    | none => cases h
    | some b => exact h
  · have hlow' : ¬ EncodeBuffer.writeableLen { e with readOffset := e.writeOffset } < e.minRemaining := hlow
    rw [if_neg hlow] at h
    rw [if_neg hlow']
    unfold BufferEncoder.new at h ⊢
    by_cases ha : e.writeOffset = e.readOffset
    · obtain ⟨buffer, bufferPool, writeOffset, readOffset, minRemaining⟩ := e
      obtain rfl : writeOffset = readOffset := ha
      exact h
    · rw [if_neg ha] at h
      cases h

theorem blank_of_getBufferEncoder {e : EncodeBuffer} {m : Mem} {w : BufferEncoder} {leases : List ChunkLease}
    (hi : e.Inv leases) (ha : e.readOffset = e.writeOffset) (hr : 128 ≤ e.bufferPool.chunkSize)
    (hw : e.getBufferEncoder m = .ok (.ok w)) : w.Blank leases ∧ w.mem = m := by
  rcases BufferEncoder.getBufferEncoder_spec hi ha m with ⟨e', hget, hinv, hal, hsize⟩ | ⟨err, hget⟩
  · rw [hget] at hw
    obtain rfl := Except.ok.inj (Except.ok.inj hw)
    exact ⟨⟨⟨hinv, (fun l hl => by cases hl)⟩, rfl, written_aligned rfl hal, hsize ▸ hr⟩, rfl⟩
  · rw [hget] at hw
    cases hw

/-- A fresh encoder has nothing written. -/
theorem EncodeBuffer.Ready.blank {e : EncodeBuffer} {m : Mem} {w : BufferEncoder} (h : e.Ready)
    (hw : e.getBufferEncoder m = .ok (.ok w)) : ∃ leases, w.Blank leases := by
  obtain ⟨leases, hi⟩ := h.inv
  exact ⟨leases, (blank_of_getBufferEncoder hi rfl h.roomy (getBufferEncoder_aligned hw)).1⟩

/-- So has the next encoder, after this one was dropped. -/
theorem BufferEncoder.Blank.reopen {w w₂ : BufferEncoder} {leases : List ChunkLease} (h : w.Blank leases)
    (hw : (Encoding.closeEncoder w).encodeBuffer.getBufferEncoder w.mem = .ok (.ok w₂)) :
    w₂.Blank leases ∧ w₂.mem = w.mem := by
  have hs : Encoding.Inv ⟨w, true, leases⟩ := ⟨h.inv, h.roomy, (fun hc => by cases hc)⟩
  have hc := hs.closeEncoder
  obtain ⟨hch, -, hal⟩ := hc.closed rfl
  have hlive : (Encoding.closeEncoder w).live leases = leases := by rw [BufferEncoder.live, hch]; rfl
  have hi : (Encoding.closeEncoder w).encodeBuffer.Inv leases := hlive ▸ hc.encoder.buffer
  exact blank_of_getBufferEncoder hi hal hc.roomy hw

/-- The head announces the content. -/
theorem dataFrame_head {content : List UInt8} (h : content.length < 2 ^ 32) :
    frameFormat.decodeHead ((dataFrame content).take frameHeadLen) = .ok ⟨.data, content.length⟩ ∧
      (dataFrame content).drop frameHeadLen = content := by
  rw [dataFrame, List.take_left' (length_encode_head _), List.drop_left' (length_encode_head _)]
  exact ⟨decodeHead_encode h, rfl⟩

/-- From any state of the encode buffer, each producer returns, and where it
succeeds its bytes are the frame of the message. The content of a message that
was serialised before is put behind its header with the same encoder or with a
new one. -/
theorem producers_agree {e : EncodeBuffer} {m : Mem} {w : BufferEncoder} (he : e.Ready)
    (hw : e.getBufferEncoder m = .ok (.ok w)) (src dst : ActorPath) (msg : Message) :
    (∃ r w', serialiseMsg src dst msg w = .ok (r, w') ∧ ∀ l, r = .ok l →
      frameOf src dst msg.serId msg.payload = some (l.unread w'.mem)) ∧
    (∃ r w₁, preserialiseMsg msg w = .ok (r, w₁) ∧ ∀ content, r = .ok content → ∀ w₂,
      (w₂ = w₁ ∨ (Encoding.closeEncoder w₁).encodeBuffer.getBufferEncoder w₁.mem = .ok (.ok w₂)) →
        ∃ r' w', serialiseMsgWithPreserialised src dst content w₂ = .ok (r', w') ∧ ∀ l, r' = .ok l →
          frameOf src dst msg.serId msg.payload = some (l.unread w'.mem)) ∧
    (∀ data ∈ [HeapOrSer.boxed msg, .serialised msg.payload],
      ∃ r w', embedMsg ⟨src, dst, msg.serId, data⟩ w = .ok (r, w') ∧ ∀ l, r = .ok l →
        frameOf src dst msg.serId msg.payload = some (l.unread w'.mem)) ∧
    ∀ content, contentOf src dst msg.serId msg.payload = some content → content.length < 2 ^ 32 →
      frameOf src dst msg.serId msg.payload = some (dataFrame content) ∧
        frameFormat.decodeHead ((dataFrame content).take frameHeadLen) = .ok ⟨.data, content.length⟩ ∧
        (dataFrame content).drop frameHeadLen = content := by
  obtain ⟨leases, hb⟩ := he.blank hw
  refine ⟨?_, ?_, fun data hd => ?_, fun content hc hlt => ?_⟩
  · obtain ⟨r, w', hrun, hl⟩ := serialiseMsg_spec hb src dst msg
    exact ⟨r, w', hrun, fun l hr => (hl l hr).2.2⟩
  · obtain ⟨r, w₁, hpre, hcontent⟩ := preserialiseMsg_spec hb msg
    refine ⟨r, w₁, hpre, fun content hr w₂ hw₂ => ?_⟩
    obtain ⟨hb₁, hwf, -, hbytes⟩ := hcontent content hr
    obtain ⟨hb₂, hmem⟩ : w₂.Blank (content.lease :: leases) ∧ w₂.mem = w₁.mem := by
      rcases hw₂ with rfl | hw₂
      · exact ⟨hb₁, rfl⟩
      · exact hb₁.reopen hw₂
    obtain ⟨r', w', hrun, hl⟩ := serialiseMsgWithPreserialised_spec hb₂ src dst (List.mem_cons_self ..) hwf
    refine ⟨r', w', hrun, fun l hl' => ?_⟩
    rw [← (hl l hl').2.2, hmem, hbytes, frameOf_eq]
  · have hemb : data.Embeddable leases ∧ data.sent w.mem = msg.payload := by
      rcases List.mem_cons.mp hd with rfl | hd
      · exact ⟨trivial, rfl⟩
      · rw [List.mem_singleton.mp hd]
        exact ⟨trivial, rfl⟩
    obtain ⟨r, w', hrun, hl⟩ := @embedMsg_spec w leases hb ⟨src, dst, msg.serId, data⟩ hemb.1
    exact ⟨r, w', hrun, fun l hl' => hemb.2 ▸ hl l hl'⟩
  · exact ⟨by rw [frameOf, hc, Option.map_some], dataFrame_head hlt⟩

/-- A buffer with three bytes left in its chunk. -/
def nearlyFull : EncodeBuffer := { Encoding.small.encoder.encodeBuffer with writeOffset := 125, readOffset := 125 }

theorem ready_nearlyFull : nearlyFull.Ready :=
  have hsmall : Encoding.small.encoder.encodeBuffer.Ready :=
    (@Encoding.inv_withConfig ⟨⟨0⟩, 128, 1, 2⟩ (fun _ _ => 0) _ rfl).ready
  ⟨by decide, rfl, by decide, hsmall.sound⟩

/-- A message of three bytes, put in two slices. -/
def threeBytes : Message := ⟨42, some 3, [[1, 2], [3]], .ok ()⟩

/-- The same as a network message, between two unique paths. -/
def threeBytesMessage : NetMessage where
  sender := .unique ⟨.tcp, .v4 1, 80⟩ 7
  receiver := .unique ⟨.tcp, .v4 2, 80⟩ 8
  data := ⟨42, .boxed threeBytes⟩

/-- The slices of what a producer returned. -/
def slicesOf (r : Panics (Encoded ChunkRef)) : Nat :=
  match r with
  | .ok (.ok ref, _) => ref.lease.slices.length
  | _ => 0

/-- The head is over two chunks. -/
theorem producers_agree_straddling :
    ∃ w l w', nearlyFull.getBufferEncoder (fun _ _ => 0) = .ok (.ok w) ∧ embedMsg threeBytesMessage w = .ok (.ok l, w') ∧
      l.lease.slices.length = 2 ∧
      frameOf (.unique ⟨.tcp, .v4 1, 80⟩ 7) (.unique ⟨.tcp, .v4 2, 80⟩ 8) 42 [1, 2, 3] = some (l.unread w'.mem) := by
  have hall := (producers_agree ready_nearlyFull (m := fun _ _ => 0) rfl (.unique ⟨.tcp, .v4 1, 80⟩ 7) (.unique ⟨.tcp, .v4 2, 80⟩ 8)
    threeBytes).2.2.1
  obtain ⟨r, w', hrun, hl⟩ := hall _ (List.mem_cons_self ..)
  have hrun' : embedMsg threeBytesMessage ⟨fun _ _ => 0, nearlyFull, none, none⟩ = .ok (r, w') := hrun
  have hslices : slicesOf (embedMsg threeBytesMessage ⟨fun _ _ => 0, nearlyFull, none, none⟩) = 2 := by decide +kernel
  rw [hrun'] at hslices
  cases r with
  | error e => cases hslices
  | ok l => exact ⟨_, l, w', rfl, hrun', hslices, hl l rfl⟩

end Kompact
