import Kompact.Dispatch.Routing
import Kompact.Messaging.DispatchData
import Kompact.Serialisation.Builtin

/-!
# Broadcasts

A message to all members of a group: each gets a clone, and the last one the
message itself. A clone has another representation, with the same unread bytes
(`sameMessage_copied`), so that the type's own deserialiser reads the same from
it, unless the original is in a box: that one is not read but unboxed.

`broadcasts_iff` says that this makes no difference if and only if the value
comes back from the bytes it is serialised to. Of the built-in ones system
paths do not, as they cannot be unboxed, nor do the actor paths that cannot be
read back.
-/

namespace Kompact.Routing

/-- A type of messages, with its own deserialiser. What that reads depends on the bytes alone. -/
structure SerType (T : Type) where
  deserialiser : Deserialiser T
  uniform : ∀ (β : Type) (B : Buf β) (view : β → List UInt8) (ok : β → Prop) (b : β), B.Shows view ok → ok b →
    deserialiser β B b = deserialiser _ Buf.bytes (view b)

section

variable {T : Type}

/-- `try_deserialise_unchecked`. `unbox` is what `local` returns, if it does not fail, cast to the
type if it is of it. -/
def NetMessage.unpack (type : SerType T) (unbox : Message → Panics (Option (Option T))) (m : Mem) (msg : NetMessage) :
    Panics (Except UnpackError T) :=
  match msg.data.data with
  | .boxed ser => do
    let cast ← unbox ser
    msg.data.toNetData.tryDeserialiseUnchecked (fun _ => cast) type.deserialiser m
  | _ => msg.data.toNetData.tryDeserialiseUnchecked (fun _ => none) type.deserialiser m

/-- All but the representation of the payload is the same, and so are the bytes not read yet. -/
structure SameMessage (m : Mem) (msg msg' : NetMessage) : Prop where
  sender : msg.sender = msg'.sender
  receiver : msg.receiver = msg'.receiver
  session : msg.session = msg'.session
  serId : msg.data.serId = msg'.data.serId
  unread : msg.data.data.unread m = msg'.data.data.unread m

/-- Every member is told once, in order, the same message, and the same is unpacked from all of them. -/
def Broadcasts {R : Type} (type : SerType T) (unbox : Message → Panics (Option (Option T))) (m : Mem)
    (members : List R) (msg : NetMessage) : Prop :=
  ∃ told, RoutingPolicy.broadcast.route m members msg = .ok (told, .broadcast) ∧
    told.map (fun tell => (tell.member, tell.index)) = members.zipIdx ∧
    ∀ tell ∈ told, SameMessage m tell.msg msg ∧ tell.msg.unpack type unbox m = msg.unpack type unbox m

/-- A value on the heap is read from the bytes it is serialised to as what is unpacked from its box. -/
def Restores (type : SerType T) (unbox : Message → Panics (Option (Option T))) (m : Mem) (msg : NetMessage) : Prop :=
  ∀ ser, msg.data.data = .boxed ser →
    deserialised (type.deserialiser _ Buf.bytes ser.payload) = msg.unpack type unbox m

/-! ## Clones -/

theorem sameMessage_copied (m : Mem) (msg : NetMessage) : SameMessage m (msg.copied m) msg := by
  refine ⟨rfl, rfl, rfl, rfl, ?_⟩
  show (copied m msg.data.data).1.unread m = msg.data.data.unread m
  cases msg.data.data <;> rfl

/-- From a clone the same is unpacked as from the original, unless that is in a box. -/
theorem unpack_copied_iff (type : SerType T) (unbox : Message → Panics (Option (Option T))) (m : Mem)
    (msg : NetMessage) :
    (msg.copied m).unpack type unbox m = msg.unpack type unbox m ↔ Restores type unbox m msg := by
  obtain ⟨sender, receiver, ⟨⟨serId, data⟩, hintact⟩, session⟩ := msg
  cases data with
  | boxed ser =>
    constructor
    · rintro h ser' hser
      cases hser
      exact h
    · exact fun h => h ser rfl
  | serialised bytes => exact iff_of_true rfl fun ser hser => by cases hser
  | chunkLease lease =>
    refine iff_of_true ?_ fun ser hser => by cases hser
    have hshown := shows_leases m ChunkLease.Sized (fun _ h => ⟨h.headed, h.held_eq⟩) fun _ n h => h.advance n
    exact congrArg deserialised (type.uniform _ (leaseBuf m) _ _ lease hshown hintact).symm
  | chunkRef ref => exact iff_of_true rfl fun ser hser => by cases hser

/-! ## Broadcasts -/

variable {R : Type}

/-- What is told where a clone can be made. -/
theorem route_broadcast (m : Mem) (members : List R) {msg : NetMessage} (h : serialised msg.data.data = .ok ()) :
    RoutingPolicy.broadcast.route m members msg =
      .ok ((IterExtras.given (msg.copied m) msg members.zipIdx).map fun p => ⟨p.1.1, p.1.2, p.2⟩, .broadcast) := by
  have hclone : msg.tryClone m = .ok (.ok (msg.copied m)) := by rw [tryClone_eq, h]; rfl
  rw [RoutingPolicy.route, IterExtras.forEachTryWith_ok hclone]
  have hfold (f : (R × Nat) × NetMessage → Tell R) (l : List ((R × Nat) × NetMessage)) :
      l.foldl (fun told p => told ++ [f p]) [] = l.map f := by
    rw [List.foldl_append_eq_append, List.nil_append]
    exact List.map_eq_flatMap.symm
  exact congrArg (fun told => Except.ok (told, RoutingPolicy.broadcast)) (hfold (fun p => ⟨p.1.1, p.1.2, p.2⟩) _)

/-- Every member is told the message or its clone. -/
theorem broadcasts_eq_iff (type : SerType T) (unbox : Message → Panics (Option (Option T))) (m : Mem)
    (members : List R) {msg : NetMessage} (h : serialised msg.data.data = .ok ()) :
    Broadcasts type unbox m members msg ↔ members.length ≤ 1 ∨ Restores type unbox m msg := by
  have hroute := route_broadcast m members h
  rw [← unpack_copied_iff]
  constructor
  · rintro ⟨told, hr, -, hsame⟩
    obtain ⟨rfl, -⟩ := Prod.mk.inj (Except.ok.inj (hroute.symm.trans hr))
    match members with
    | [] => exact .inl (Nat.zero_le 1)
    | [_] => exact .inl (Nat.le_refl 1)
    | first :: second :: rest => exact .inr (hsame ⟨first, 0, msg.copied m⟩ (List.mem_cons_self ..)).2
  · intro hsame
    refine ⟨_, hroute, ?_, fun tell ht => ?_⟩
    · rw [List.map_map]
      exact IterExtras.given_fst (msg.copied m) msg members.zipIdx
    · obtain ⟨⟨⟨member, index⟩, given⟩, hp, rfl⟩ := List.mem_map.mp ht
      rcases hsame with hle | hsame
      · -- a single member gets the original
        match members with
        | [] => cases hp
        | [_] =>
          obtain ⟨-, rfl⟩ := Prod.mk.inj (List.mem_singleton.mp hp)
          exact ⟨⟨rfl, rfl, rfl, rfl, rfl⟩, rfl⟩
        | _ :: _ :: _ => simp at hle
      · rcases IterExtras.given_snd hp with rfl | rfl
        · exact ⟨sameMessage_copied m msg, hsame⟩
        · exact ⟨⟨rfl, rfl, rfl, rfl, rfl⟩, rfl⟩

end

/-! ## Built-in types -/

/-- What `local` returns of a built-in value, which is of the type. -/
def unboxedBuiltin (v : BuiltinValue) : Panics (Option (Option BuiltinValue)) := return some (some (← v.intoLocal))

/-- The values that are read alike from a buffer and from bytes. -/
theorem values_eq {α β : Type} {B : Buf β} {view : β → List UInt8} {b : β} {r : Panics (Except SerError (α × β))}
    {r' : Panics (Except SerError (α × List UInt8))} (h : ExceptRel (ExceptRel (B.SameAt view b)) r r') :
    r.map (fun r => r.map Prod.fst) = r'.map fun r => r.map Prod.fst := by
  cases h with
  | error e => rfl
  | ok h =>
    cases h with
    | error e => rfl
    | ok h => exact congrArg (fun v => Except.ok (Except.ok v)) h.1

/-- A built-in type, with its `deserialise`. -/
def builtinType (debug : Bool) (T : Builtin) : SerType BuiltinValue where
  deserialiser _ B buf := (T.deserialise debug B buf).map fun r => r.map Prod.fst
  uniform _ _ _ _ _ hB hb := values_eq (Builtin.deserialise_at debug hB hb T)

/-- To read a system path that was serialised does not panic. -/
theorem readSystemPath_returns {path : SystemPath} {bs : List UInt8} (h : path.serialise = .ok (.ok bs)) :
    ∃ r, readSystemPath Buf.bytes bs = .ok r := by
  rcases Builtin.readSystemPath_serialised h with ⟨-, _, hread⟩ | ⟨-, _, hread⟩
  · exact ⟨_, hread⟩
  · exact ⟨_, hread⟩

theorem deserialised_eq_iff (r : Panics (Except SerError (BuiltinValue × List UInt8))) (v : BuiltinValue) :
    deserialised (r.map fun r => r.map Prod.fst) = .ok (.ok v) ↔ Builtin.unpacked r = .ok (.ok v) := by
  rw [Builtin.unpacked_eq_iff]
  match r with
  | .error e => simp [deserialised, Except.map]
  | .ok (.error e) => simp [deserialised, Except.map, Except.mapError]
  | .ok (.ok (v', buf)) => simp [deserialised, Except.map, Except.mapError]

/-- A boxed value of a built-in type comes back from its bytes if it can be unboxed and read. -/
theorem restores_builtin_iff (debug : Bool) (m : Mem) {v : BuiltinValue} {msg : NetMessage} {ser : Message}
    (hbox : msg.data.data = .boxed ser) (hv : v.serialise = .ok (.ok ser.payload)) :
    Restores (builtinType debug v.type) (fun _ => unboxedBuiltin v) m msg ↔
      v.type ≠ .systemPath ∧ Builtin.Readable debug v := by
  have hunpack : msg.unpack (builtinType debug v.type) (fun _ => unboxedBuiltin v) m =
      v.intoLocal.map Except.ok := by
    simp only [NetMessage.unpack, hbox, unboxedBuiltin]
    cases v.intoLocal with
    | error e => rfl
    | ok b => simp only [NetData.tryDeserialiseUnchecked, hbox]; rfl
  have hrestores : Restores (builtinType debug v.type) (fun _ => unboxedBuiltin v) m msg ↔
      deserialised ((v.type.deserialise debug Buf.bytes ser.payload).map fun r => r.map Prod.fst) =
        v.intoLocal.map Except.ok := by
    rw [← hunpack]
    refine ⟨fun h => h ser hbox, fun h ser' hser => ?_⟩
    obtain rfl := HeapOrSer.boxed.inj (hbox.symm.trans hser)
    exact h
  rw [hrestores]
  by_cases hsys : v.type = .systemPath
  · refine iff_of_false (fun h => ?_) fun h => h.1 hsys
    -- its `local` panics, and its `deserialise` does not
    cases v with
    | systemPath path =>
      obtain ⟨r, hr⟩ := readSystemPath_returns hv
      simp only [BuiltinValue.type, Builtin.deserialise, hr] at h
      cases h
    | _ => cases hsys
  · have hlocal : v.intoLocal = .ok v := by
      cases v with
      | systemPath path => exact absurd rfl hsys
      | _ => rfl
    rw [and_iff_right hsys, hlocal]
    exact (deserialised_eq_iff _ v).trans (Builtin.deserialise_serialised_iff debug hv)

/-- A message that can be serialised, in any representation and to any members: all get the same
if and only if there is at most one of them or a boxed value comes back from its bytes. Of the
built-in values those do that are not system paths and can be read back. -/
theorem broadcasts_iff {R : Type} (debug : Bool) (m : Mem) (members : List R) (msg : NetMessage)
    (h : serialised msg.data.data = .ok ()) :
    (∀ (T : Type) (type : SerType T) (unbox : Message → Panics (Option (Option T))),
      Broadcasts type unbox m members msg ↔ members.length ≤ 1 ∨ Restores type unbox m msg) ∧
    ∀ (v : BuiltinValue) (ser : Message), msg.data.data = .boxed ser → v.serialise = .ok (.ok ser.payload) →
      (Broadcasts (builtinType debug v.type) (fun _ => unboxedBuiltin v) m members msg ↔
        members.length ≤ 1 ∨ v.type ≠ .systemPath ∧ Builtin.Readable debug v) := by
  refine ⟨fun T type unbox => broadcasts_eq_iff type unbox m members h, fun v ser hbox hv => ?_⟩
  rw [broadcasts_eq_iff _ _ m members h, restores_builtin_iff debug m hbox hv]

/-- The number five, in a box. -/
def boxedNumber : NetMessage :=
  { NetMessage.blank with
    data := {
      serId := SerialisationIds.u64
      data := .boxed ⟨SerialisationIds.u64, some 8, [toBE 8 5], .ok ()⟩
      intact := trivial } }

/-- Four bytes of a chunk, of which one was read. -/
def leasedBytes : NetMessage :=
  { NetMessage.blank with
    data := {
      serId := SerialisationIds.str
      data := .chunkLease ((ChunkLease.new ⟨0, 0, 4⟩ 0).advance 1)
      intact := ⟨((ChunkLease.wf_new _ _).advance 1).sized, by decide⟩ } }

/-- Both, to three members. -/
theorem broadcasts_iff_three :
    Broadcasts (builtinType true .u64) (fun _ => unboxedBuiltin (.u64 5)) (fun _ _ => 0) [7, 8, 9] boxedNumber ∧
      Broadcasts (builtinType true .string) (fun _ => unboxedBuiltin (.string Builtin.greeting)) (fun _ _ => 0) [7, 8, 9]
        leasedBytes := by
  have hboxed := (broadcasts_iff true (fun _ _ => 0) [7, 8, 9] boxedNumber rfl).2 (.u64 5) _ rfl (by decide)
  have hleased := (broadcasts_iff true (fun _ _ => 0) [7, 8, 9] leasedBytes rfl).1 _ (builtinType true .string)
    (fun _ => unboxedBuiltin (.string Builtin.greeting))
  exact ⟨hboxed.mpr (.inr ⟨by decide, trivial⟩), hleased.mpr (.inr fun ser hser => by cases hser)⟩

/-- The path of a system, in a box. -/
def boxedSystemPath : NetMessage :=
  { NetMessage.blank with
    data := {
      serId := SerialisationIds.systemPath
      data := .boxed ⟨SerialisationIds.systemPath, some 7, [[1, 0, 0, 0, 1, 0, 80]], .ok ()⟩
      intact := trivial } }

/-- To two members: the first one reads the path from its bytes, and the second one cannot unbox it. -/
theorem not_broadcasts_systemPath :
    serialised boxedSystemPath.data.data = .ok () ∧
    BuiltinValue.serialise (.systemPath ⟨.tcp, .v4 1, 80⟩) = .ok (.ok [1, 0, 0, 0, 1, 0, 80]) ∧
    ¬ Broadcasts (builtinType false .systemPath) (fun _ => unboxedBuiltin (.systemPath ⟨.tcp, .v4 1, 80⟩))
      (fun _ _ => 0) [7, 8] boxedSystemPath := by
  refine ⟨rfl, by decide, ?_⟩
  rintro ⟨told, hroute, -, hsame⟩
  obtain ⟨rfl, -⟩ := Prod.mk.inj (Except.ok.inj hroute)
  have hunpack := (hsame ⟨7, 0, boxedSystemPath.copied fun _ _ => 0⟩ (List.mem_cons_self ..)).2
  have hvalue : (.ok (.ok (.systemPath ⟨.tcp, .v4 1, 80⟩)) : Panics (Except UnpackError BuiltinValue)) =
    .error "not implemented" := hunpack
  cases hvalue

end Kompact.Routing
