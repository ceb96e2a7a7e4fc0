import Kompact.Framework.ByteVec
import Kompact.Framework.Reader
import Kompact.Messaging.Paths

/-!
# The Serde codec

Serialiser and deserialiser for the data model of Serde: a value is written
with no more than its own length where the type does not tell it, and is read
back with the type (`deserialise_serialise`).

Types may refer to themselves by name, as a list does. The deserialiser goes
down the type, so its depth is bounded by an explicit stack; every value of a
type is read back with a stack that is deep enough.
-/

namespace Kompact.Serde

/-- The numbers, floats by their bit patterns. -/
inductive Num where
  | i8
  | i16
  | i32
  | i64
  | u8
  | u16
  | u32
  | u64
  | f32
  | f64
  deriving DecidableEq, Repr

/-- The bytes of a number. -/
def Num.size : Num → Nat
  | i8 => 1
  | i16 => 2
  | i32 => 4
  | i64 => 8
  | u8 => 1
  | u16 => 2
  | u32 => 4
  | u64 => 8
  | f32 => 4
  | f64 => 8

mutual

/-- A type of the data model. -/
inductive Ty where
  | bool
  | num (kind : Num)
  | char
  | str
  | bytes
  | option (some : Ty)
  | unit
  | unitStruct
  | newtypeStruct (inner : Ty)
  | seq (element : Ty)
  | tuple (elements : List Ty)
  | tupleStruct (fields : List Ty)
  | map (key value : Ty)
  | struct (fields : List Ty)
  | enum (variants : List Variant)
  /-- A type by its name. -/
  | named (name : String)

inductive Variant where
  | unit
  | newtype (inner : Ty)
  | tuple (fields : List Ty)
  | struct (fields : List Ty)

end

/-- A value, as it is presented to the serialiser. -/
inductive Value where
  | bool (v : Bool)
  | num (kind : Num) (v : BitVec (8 * kind.size))
  | char (v : Char)
  | str (v : RustString)
  | bytes (v : ByteVec)
  | none
  | some (value : Value)
  | unit
  | unitStruct
  | unitVariant (variantIndex : BitVec 32)
  | newtypeStruct (value : Value)
  | newtypeVariant (variantIndex : BitVec 32) (value : Value)
  | seq (elements : List Value)
  | tuple (elements : List Value)
  | tupleStruct (fields : List Value)
  | tupleVariant (variantIndex : BitVec 32) (fields : List Value)
  | map (entries : List (Value × Value))
  | struct (fields : List Value)
  | structVariant (variantIndex : BitVec 32) (fields : List Value)

/-! ## The serialiser -/

/-- `put_i8` and its siblings. -/
def putNum (kind : Num) (v : BitVec (8 * kind.size)) : List UInt8 := toBE kind.size v.toNat

def serializeBool (v : Bool) : List UInt8 := if v then [1] else [0]

def serializeI8 : BitVec 8 → List UInt8 := putNum .i8

def serializeI16 : BitVec 16 → List UInt8 := putNum .i16

def serializeI32 : BitVec 32 → List UInt8 := putNum .i32

def serializeI64 : BitVec 64 → List UInt8 := putNum .i64

def serializeU8 : BitVec 8 → List UInt8 := putNum .u8

def serializeU16 : BitVec 16 → List UInt8 := putNum .u16

def serializeU32 : BitVec 32 → List UInt8 := putNum .u32

def serializeU64 : BitVec 64 → List UInt8 := putNum .u64

def serializeF32 : BitVec 32 → List UInt8 := putNum .f32

def serializeF64 : BitVec 64 → List UInt8 := putNum .f64

def serializeNum : (kind : Num) → BitVec (8 * kind.size) → List UInt8
  | .i8 => serializeI8
  | .i16 => serializeI16
  | .i32 => serializeI32
  | .i64 => serializeI64
  | .u8 => serializeU8
  | .u16 => serializeU16
  | .u32 => serializeU32
  | .u64 => serializeU64
  | .f32 => serializeF32
  | .f64 => serializeF64

def serializeChar (v : Char) : List UInt8 := toBE 4 v.toNat

def serializeStr (v : RustString) : List UInt8 := putVec v.toByteVec

def serializeBytes (v : ByteVec) : List UInt8 := putVec v

def serializeVariantIndex (variantIndex : BitVec 32) : List UInt8 := putNum .u32 variantIndex

/-- The start of a sequence. -/
def serializeSeq (len : Option Nat) : Except SerError (List UInt8) :=
  match len with
  | some len => .ok (toBE 8 len)
  | none => .error (.invalidData "Sequence length must be known ahead of time!")

/-- The start of a map. -/
def serializeMap (len : Option Nat) : Except SerError (List UInt8) :=
  match len with
  | some len => .ok (toBE 8 len)
  | none => .error (.invalidData "Map length must be known ahead of time!")

mutual

def serialize : Value → Except SerError (List UInt8)
  | .bool v => .ok (serializeBool v)
  | .num kind v => .ok (serializeNum kind v)
  | .char v => .ok (serializeChar v)
  | .str v => .ok (serializeStr v)
  | .bytes v => .ok (serializeBytes v)
  | .none => .ok [0]
  | .some value => do return [1] ++ (← serialize value)
  | .unit => .ok []
  | .unitStruct => .ok []
  | .unitVariant variantIndex => .ok (serializeVariantIndex variantIndex)
  | .newtypeStruct value => serialize value
  | .newtypeVariant variantIndex value => do return serializeVariantIndex variantIndex ++ (← serialize value)
  | .seq elements => do
    let start ← serializeSeq (some elements.length)
    return start ++ (← serializeElements elements)
  | .tuple elements => serializeElements elements
  | .tupleStruct fields => serializeElements fields
  | .tupleVariant variantIndex fields => do
    return serializeVariantIndex variantIndex ++ (← serializeElements fields)
  | .map entries => do
    let start ← serializeMap (some entries.length)
    return start ++ (← serializeEntries entries)
  | .struct fields => serializeElements fields
  | .structVariant variantIndex fields => do
    return serializeVariantIndex variantIndex ++ (← serializeElements fields)

/-- Elements or fields, one after the other. -/
def serializeElements : List Value → Except SerError (List UInt8)
  | [] => .ok []
  | value :: values => do return (← serialize value) ++ (← serializeElements values)

/-- Keys and values in turn. -/
def serializeEntries : List (Value × Value) → Except SerError (List UInt8)
  | [] => .ok []
  | (key, value) :: entries => do
    return (← serialize key) ++ ((← serialize value) ++ (← serializeEntries entries))

end

/-! ## The deserialiser -/

/-- What is read: a value, an error, or a panic. -/
abbrev De (α : Type) : Type := Reader SerError α

/-- `get_i8` and its siblings. -/
def getNum (kind : Num) : De (BitVec (8 * kind.size)) := return .ofNat _ (← Reader.getUint kind.size)

/-- Everything except 0 is true. -/
def deserializeBool : De Bool := return (← Reader.getUint 1) != 0

def deserializeI8 : De (BitVec 8) := getNum .i8

def deserializeI16 : De (BitVec 16) := getNum .i16

def deserializeI32 : De (BitVec 32) := getNum .i32

def deserializeI64 : De (BitVec 64) := getNum .i64

def deserializeU8 : De (BitVec 8) := getNum .u8

def deserializeU16 : De (BitVec 16) := getNum .u16

def deserializeU32 : De (BitVec 32) := getNum .u32

def deserializeU64 : De (BitVec 64) := getNum .u64

def deserializeF32 : De (BitVec 32) := getNum .f32

def deserializeF64 : De (BitVec 64) := getNum .f64

def deserializeNum : (kind : Num) → De (BitVec (8 * kind.size))
  | .i8 => deserializeI8
  | .i16 => deserializeI16
  | .i32 => deserializeI32
  | .i64 => deserializeI64
  | .u8 => deserializeU8
  | .u16 => deserializeU16
  | .u32 => deserializeU32
  | .u64 => deserializeU64
  | .f32 => deserializeF32
  | .f64 => deserializeF64

def deserializeChar : De Char := do
  let num ← Reader.getUint 4
  if num.isValidChar then return Char.ofNat num
  else Reader.fail (.unknown ("Number " ++ toString num ++ " does not represent a valid char!"))

def deserializeByteBuf : De ByteVec := Reader.lift Buf.bytes.getVec

def deserializeString : De RustString := do
  match RustString.fromUtf8 (← deserializeByteBuf) with
  | some s => return s
  | none => Reader.fail (.unknown "Wrapped error: FromUtf8Error")

def deserializeLen : De Nat := Reader.getUint 8

/-- The visitor of a sequence: elements until `ElementCounting` has none left. -/
def visitSeq {α : Type} (element : De α) : (left : Nat) → De (List α)
  | 0 => return []
  | left + 1 => return (← element) :: (← visitSeq element left)

/-- The visitor of a map: a key, then its value. -/
def visitMap {α : Type} (key value : De α) : (left : Nat) → De (List (α × α))
  | 0 => return []
  | left + 1 => do
    let k ← key
    let v ← value
    return (k, v) :: (← visitMap key value left)

/-- The visitor of fields: it asks for each of them, and fails if there are too
few. -/
def visitFields (field : Ty → De Value) : (left : Nat) → List Ty → De (List Value)
  | _, [] => return []
  | 0, _ :: _ => Reader.fail (.unknown "invalid length")
  | left + 1, t :: ts => return (← field t) :: (← visitFields field left ts)

/-- The visitor of an enum, once its variant is known. -/
def visitVariant (content : Ty → De Value) (variantIndex : BitVec 32) : Variant → De Value
  | .unit => return .unitVariant variantIndex
  | .newtype inner => return .newtypeVariant variantIndex (← content inner)
  | .tuple fields => return .tupleVariant variantIndex (← visitFields content fields.length fields)
  | .struct fields => return .structVariant variantIndex (← visitFields content fields.length fields)

/-- A value of the type, with the definitions of the names and a bound on the
depth. -/
def deserialize (env : String → Ty) : (depth : Nat) → Ty → De Value
  | 0, _ => Reader.panic "stack overflow"
  | depth + 1, t =>
    match t with
    | .bool => return .bool (← deserializeBool)
    | .num kind => return .num kind (← deserializeNum kind)
    | .char => return .char (← deserializeChar)
    | .str => return .str (← deserializeString)
    | .bytes => return .bytes (← deserializeByteBuf)
    | .option t => do
      if (← Reader.getUint 1) = 0 then return .none
      else return .some (← deserialize env depth t)
    | .unit => return .unit
    | .unitStruct => return .unitStruct
    | .newtypeStruct inner => return .newtypeStruct (← deserialize env depth inner)
    | .seq element => do
      let len ← deserializeLen
      return .seq (← visitSeq (deserialize env depth element) len)
    | .tuple elements => return .tuple (← visitFields (deserialize env depth) elements.length elements)
    | .tupleStruct fields => return .tupleStruct (← visitFields (deserialize env depth) fields.length fields)
    | .map key value => do
      let len ← deserializeLen
      return .map (← visitMap (deserialize env depth key) (deserialize env depth value) len)
    | .struct fields => return .struct (← visitFields (deserialize env depth) fields.length fields)
    | .enum variants => do
      let variantIndex ← deserializeU32
      match variants[variantIndex.toNat]? with
      | some variant => visitVariant (deserialize env depth) variantIndex variant
      | none => Reader.fail (.unknown "invalid value")
    | .named name => deserialize env depth (env name)

/-- Values of several types, one after the other. -/
def deserializeEach (env : String → Ty) (depth : Nat) : List Ty → De (List Value)
  | [] => return []
  | t :: ts => return (← deserialize env depth t) :: (← deserializeEach env depth ts)

/-! ## The values of a type -/

/-- The value is one of the type; no length is more than a `usize`. -/
inductive HasType (env : String → Ty) : Value → Ty → Prop where
  | bool (v : Bool) : HasType env (.bool v) .bool
  | num (kind : Num) (v : BitVec (8 * kind.size)) : HasType env (.num kind v) (.num kind)
  | char (v : Char) : HasType env (.char v) .char
  | str (v : RustString) : HasType env (.str v) .str
  | bytes (v : ByteVec) : HasType env (.bytes v) .bytes
  | none (t : Ty) : HasType env .none (.option t)
  | some {v : Value} {t : Ty} (h : HasType env v t) : HasType env (.some v) (.option t)
  | unit : HasType env .unit .unit
  | unitStruct : HasType env .unitStruct .unitStruct
  | newtypeStruct {v : Value} {t : Ty} (h : HasType env v t) : HasType env (.newtypeStruct v) (.newtypeStruct t)
  | seq {vs : List Value} {t : Ty} (hlen : vs.length < 2 ^ 64) (h : ∀ v ∈ vs, HasType env v t) :
    HasType env (.seq vs) (.seq t)
  | tuple {vs : List Value} {ts : List Ty} (hlen : vs.length = ts.length) (h : ∀ p ∈ vs.zip ts, HasType env p.1 p.2) :
    HasType env (.tuple vs) (.tuple ts)
  | tupleStruct {vs : List Value} {ts : List Ty} (hlen : vs.length = ts.length)
    (h : ∀ p ∈ vs.zip ts, HasType env p.1 p.2) : HasType env (.tupleStruct vs) (.tupleStruct ts)
  | map {entries : List (Value × Value)} {key value : Ty} (hlen : entries.length < 2 ^ 64)
    (hkey : ∀ e ∈ entries, HasType env e.1 key) (hvalue : ∀ e ∈ entries, HasType env e.2 value) :
    HasType env (.map entries) (.map key value)
  | struct {vs : List Value} {ts : List Ty} (hlen : vs.length = ts.length)
    (h : ∀ p ∈ vs.zip ts, HasType env p.1 p.2) : HasType env (.struct vs) (.struct ts)
  | unitVariant {i : BitVec 32} {variants : List Variant} (hi : variants[i.toNat]? = some .unit) :
    HasType env (.unitVariant i) (.enum variants)
  | newtypeVariant {i : BitVec 32} {variants : List Variant} {v : Value} {t : Ty}
    (hi : variants[i.toNat]? = some (.newtype t)) (h : HasType env v t) :
    HasType env (.newtypeVariant i v) (.enum variants)
  | tupleVariant {i : BitVec 32} {variants : List Variant} {vs : List Value} {ts : List Ty}
    (hi : variants[i.toNat]? = some (.tuple ts)) (hlen : vs.length = ts.length)
    (h : ∀ p ∈ vs.zip ts, HasType env p.1 p.2) : HasType env (.tupleVariant i vs) (.enum variants)
  | structVariant {i : BitVec 32} {variants : List Variant} {vs : List Value} {ts : List Ty}
    (hi : variants[i.toNat]? = some (.struct ts)) (hlen : vs.length = ts.length)
    (h : ∀ p ∈ vs.zip ts, HasType env p.1 p.2) : HasType env (.structVariant i vs) (.enum variants)
  | named {v : Value} {name : String} (h : HasType env v (env name)) : HasType env v (.named name)

/-! ## Round trips -/

section

variable {env : String → Ty}

open Reader

theorem reads_getNum (kind : Num) (v : BitVec (8 * kind.size)) : Reads (getNum kind) (putNum kind v) v := by
  have hlt : v.toNat < 256 ^ kind.size := by
    have h := v.isLt
    rwa [Nat.pow_mul] at h
  have h := (reads_getUint (ε := SerError) hlt).map (BitVec.ofNat (8 * kind.size))
  rwa [BitVec.ofNat_toNat, BitVec.setWidth_eq] at h

theorem reads_deserializeNum (kind : Num) (v : BitVec (8 * kind.size)) :
    Reads (deserializeNum kind) (serializeNum kind v) v := by
  cases kind <;> exact reads_getNum _ v

theorem reads_deserializeBool (v : Bool) : Reads deserializeBool (serializeBool v) v := by
  cases v
  · exact (reads_getUint (ε := SerError) (w := 1) (n := 0) (by decide)).map (· != 0)
  · exact (reads_getUint (ε := SerError) (w := 1) (n := 1) (by decide)).map (· != 0)

theorem reads_deserializeChar (v : Char) : Reads deserializeChar (serializeChar v) v := by
  have hvalid : v.toNat.isValidChar := v.valid
  have hlt : v.toNat < 256 ^ 4 := by
    have := v.val.toNat_lt
    exact this
  refine (reads_getUint hlt).bind_nil ?_
  rw [if_pos hvalid, Char.ofNat_toNat]
  exact reads_pure v

theorem reads_deserializeByteBuf (v : ByteVec) : Reads deserializeByteBuf (serializeBytes v) v := by
  intro rest
  rw [deserializeByteBuf, Reader.lift, serializeBytes, Buf.getVec_putVec]
  rfl

theorem reads_deserializeString (v : RustString) : Reads deserializeString (serializeStr v) v := by
  refine (reads_deserializeByteBuf v.toByteVec).bind_nil ?_
  rw [RustString.fromUtf8_toByteVec]
  exact reads_pure v

theorem reads_deserializeLen {len : Nat} (hlen : len < 2 ^ 64) : Reads deserializeLen (toBE 8 len) len :=
  reads_getUint (by omega)

/-- The value is serialised, and read back from its bytes by every stack that is
deep enough. -/
def RoundTrips (env : String → Ty) (v : Value) (t : Ty) : Prop :=
  ∃ bs, serialize v = .ok bs ∧ ∃ n, ∀ depth, n ≤ depth → Reads (deserialize env depth t) bs v

/-- The same for fields. -/
def FieldsRoundTrip (env : String → Ty) (vs : List Value) (ts : List Ty) : Prop :=
  ∃ bs, serializeElements vs = .ok bs ∧
    ∃ n, ∀ depth, n ≤ depth → Reads (visitFields (deserialize env depth) ts.length ts) bs vs

/-- One level of the stack is used for the type itself. -/
theorem RoundTrips.of_succ {v : Value} {t : Ty} (bs : List UInt8) (n : Nat) (hs : serialize v = .ok bs)
    (h : ∀ depth, n ≤ depth → Reads (deserialize env (depth + 1) t) bs v) : RoundTrips env v t := by
  refine ⟨bs, hs, n + 1, fun depth hd => ?_⟩
  obtain ⟨k, rfl⟩ : ∃ k, depth = k + 1 := ⟨depth - 1, by omega⟩
  exact h k (by omega)

theorem fieldsRoundTrip {vs : List Value} {ts : List Ty} (hlen : vs.length = ts.length)
    (h : ∀ p ∈ vs.zip ts, RoundTrips env p.1 p.2) : FieldsRoundTrip env vs ts := by
  induction vs generalizing ts with
  | nil =>
    obtain rfl := List.length_eq_zero_iff.mp hlen.symm
    exact ⟨[], rfl, 0, fun _ _ => reads_pure []⟩
  | cons v vs ih =>
    cases ts with
    | nil => cases hlen
    | cons t ts =>
      rw [List.zip_cons_cons, List.forall_mem_cons] at h
      obtain ⟨bs, hs, n, hn⟩ := h.1
      obtain ⟨bs', hs', n', hn'⟩ := ih (Nat.succ.inj hlen) h.2
      refine ⟨bs ++ bs', ?_, max n n', fun depth hd => ?_⟩
      · rw [serializeElements, hs, hs']
        rfl
      · exact (hn depth (by omega)).bind ((hn' depth (by omega)).map (v :: ·))

/-- Elements of one type. -/
theorem elementsRoundTrip {vs : List Value} {t : Ty} (h : ∀ v ∈ vs, RoundTrips env v t) :
    ∃ bs, serializeElements vs = .ok bs ∧
      ∃ n, ∀ depth, n ≤ depth → Reads (visitSeq (deserialize env depth t) vs.length) bs vs := by
  induction vs with
  | nil => exact ⟨[], rfl, 0, fun _ _ => reads_pure []⟩
  | cons v vs ih =>
    rw [List.forall_mem_cons] at h
    obtain ⟨bs, hs, n, hn⟩ := h.1
    obtain ⟨bs', hs', n', hn'⟩ := ih h.2
    refine ⟨bs ++ bs', ?_, max n n', fun depth hd => ?_⟩
    · rw [serializeElements, hs, hs']
      rfl
    · exact (hn depth (by omega)).bind ((hn' depth (by omega)).map (v :: ·))

theorem entriesRoundTrip {entries : List (Value × Value)} {key value : Ty}
    (hkey : ∀ e ∈ entries, RoundTrips env e.1 key) (hvalue : ∀ e ∈ entries, RoundTrips env e.2 value) :
    ∃ bs, serializeEntries entries = .ok bs ∧ ∃ n, ∀ depth, n ≤ depth →
      Reads (visitMap (deserialize env depth key) (deserialize env depth value) entries.length) bs entries := by
  induction entries with
  | nil => exact ⟨[], rfl, 0, fun _ _ => reads_pure []⟩
  | cons e entries ih =>
    obtain ⟨k, v⟩ := e
    rw [List.forall_mem_cons] at hkey hvalue
    obtain ⟨bs₁, hs₁, n₁, hn₁⟩ := hkey.1
    obtain ⟨bs₂, hs₂, n₂, hn₂⟩ := hvalue.1
    obtain ⟨bs₃, hs₃, n₃, hn₃⟩ := ih hkey.2 hvalue.2
    refine ⟨bs₁ ++ (bs₂ ++ bs₃), ?_, max n₁ (max n₂ n₃), fun depth hd => ?_⟩
    · rw [serializeEntries, hs₁, hs₂, hs₃]
      rfl
    · exact (hn₁ depth (by omega)).bind
        ((hn₂ depth (by omega)).bind ((hn₃ depth (by omega)).map ((k, v) :: ·)))

/-- A struct or a tuple is its fields. -/
theorem RoundTrips.of_fields {vs : List Value} {ts : List Ty} {v : Value} {t : Ty} (make : List Value → Value)
    (hv : v = make vs) (hs : serialize v = serializeElements vs)
    (hd : ∀ depth, deserialize env (depth + 1) t = make <$> visitFields (deserialize env depth) ts.length ts)
    (h : FieldsRoundTrip env vs ts) : RoundTrips env v t := by
  obtain ⟨bs, hbs, n, hn⟩ := h
  refine .of_succ bs n (hs.trans hbs) fun depth hle => ?_
  rw [hd, hv]
  exact (hn depth hle).map make

/-- A variant is its index and its content. -/
theorem RoundTrips.of_variant {i : BitVec 32} {variants : List Variant} {variant : Variant} {v : Value}
    (bs : List UInt8) (n : Nat) (hi : variants[i.toNat]? = some variant)
    (hs : serialize v = .ok (serializeVariantIndex i ++ bs))
    (h : ∀ depth, n ≤ depth → Reads (visitVariant (deserialize env depth) i variant) bs v) :
    RoundTrips env v (.enum variants) := by
  refine .of_succ _ n hs fun depth hle => ?_
  refine Reads.bind (reads_getNum .u32 i) ?_
  simp only [hi]
  exact h depth hle

theorem roundTrips_of_hasType {v : Value} {t : Ty} (h : HasType env v t) : RoundTrips env v t := by
  induction h with
  | bool v => exact .of_succ (serializeBool v) 0 rfl fun _ _ => (reads_deserializeBool v).map Value.bool
  | num kind v => exact .of_succ (serializeNum kind v) 0 rfl fun _ _ => (reads_deserializeNum kind v).map (Value.num kind)
  | char v => exact .of_succ (serializeChar v) 0 rfl fun _ _ => (reads_deserializeChar v).map Value.char
  | str v => exact .of_succ (serializeStr v) 0 rfl fun _ _ => (reads_deserializeString v).map Value.str
  | bytes v => exact .of_succ (serializeBytes v) 0 rfl fun _ _ => (reads_deserializeByteBuf v).map Value.bytes
  | none t =>
    exact .of_succ [0] 0 rfl fun _ _ => (reads_getUint (w := 1) (n := 0) (by decide)).bind_nil (reads_pure Value.none)
  | @some v t _ ih =>
    obtain ⟨bs, hs, n, hn⟩ := ih
    refine .of_succ ([1] ++ bs) n ?_ fun depth hd => ?_
    · rw [serialize, hs]
      rfl
    · exact (reads_getUint (w := 1) (n := 1) (by decide)).bind ((hn depth hd).map Value.some)
  | unit => exact .of_succ [] 0 rfl fun _ _ => reads_pure Value.unit
  | unitStruct => exact .of_succ [] 0 rfl fun _ _ => reads_pure Value.unitStruct
  | newtypeStruct _ ih =>
    obtain ⟨bs, hs, n, hn⟩ := ih
    exact .of_succ bs n hs fun depth hd => (hn depth hd).map Value.newtypeStruct
  | @seq vs t hlen _ ih =>
    obtain ⟨bs, hs, n, hn⟩ := elementsRoundTrip ih
    refine .of_succ (toBE 8 vs.length ++ bs) n ?_ fun depth hd => ?_
    · rw [serialize, hs]
      rfl
    · exact (reads_deserializeLen hlen).bind ((hn depth hd).map Value.seq)
  | tuple hlen _ ih => exact .of_fields Value.tuple rfl rfl (fun _ => rfl) (fieldsRoundTrip hlen ih)
  | tupleStruct hlen _ ih => exact .of_fields Value.tupleStruct rfl rfl (fun _ => rfl) (fieldsRoundTrip hlen ih)
  | @map entries key value hlen _ _ ihkey ihvalue =>
    obtain ⟨bs, hs, n, hn⟩ := entriesRoundTrip ihkey ihvalue
    refine .of_succ (toBE 8 entries.length ++ bs) n ?_ fun depth hd => ?_
    · rw [serialize, hs]
      rfl
    · exact (reads_deserializeLen hlen).bind ((hn depth hd).map Value.map)
  | struct hlen _ ih => exact .of_fields Value.struct rfl rfl (fun _ => rfl) (fieldsRoundTrip hlen ih)
  | @unitVariant i variants hi =>
    refine .of_variant [] 0 hi ?_ fun _ _ => reads_pure _
    rw [List.append_nil]
    rfl
  | @newtypeVariant i variants v t hi _ ih =>
    obtain ⟨bs, hs, n, hn⟩ := ih
    refine .of_variant bs n hi ?_ fun depth hd => (hn depth hd).map (Value.newtypeVariant i)
    rw [serialize, hs]
    rfl
  | @tupleVariant i variants vs ts hi hlen _ ih =>
    obtain ⟨bs, hs, n, hn⟩ := fieldsRoundTrip hlen ih
    refine .of_variant bs n hi ?_ fun depth hd => (hn depth hd).map (Value.tupleVariant i)
    rw [serialize, hs]
    rfl
  | @structVariant i variants vs ts hi hlen _ ih =>
    obtain ⟨bs, hs, n, hn⟩ := fieldsRoundTrip hlen ih
    refine .of_variant bs n hi ?_ fun depth hd => (hn depth hd).map (Value.structVariant i)
    rw [serialize, hs]
    rfl
  | named _ ih =>
    obtain ⟨bs, hs, n, hn⟩ := ih
    exact .of_succ bs n hs fun depth hd => hn depth hd

theorem eachRoundTrip {vs : List Value} {ts : List Ty} (h : List.Forall₂ (HasType env) vs ts) :
    ∃ bss, List.Forall₂ (fun v bs => serialize v = .ok bs) vs bss ∧
      ∃ n, ∀ depth, n ≤ depth → Reads (deserializeEach env depth ts) bss.flatten vs := by
  induction h with
  | nil => exact ⟨[], .nil, 0, fun _ _ => reads_pure []⟩
  | @cons v t vs ts hv _ ih =>
    obtain ⟨bs, hs, n, hn⟩ := roundTrips_of_hasType hv
    obtain ⟨bss, hss, n', hn'⟩ := ih
    refine ⟨bs :: bss, .cons hs hss, max n n', fun depth hd => ?_⟩
    exact (hn depth (by omega)).bind ((hn' depth (by omega)).map (v :: ·))

end

/-- Every value of a type is serialised, and read back from its bytes with just
what follows them left over, by every stack that is deep enough. The bytes of
several values in a row are read back as these values. -/
theorem deserialise_serialise (env : String → Ty) :
    (∀ v t, HasType env v t → ∃ bs, serialize v = .ok bs ∧ ∃ n, ∀ depth, n ≤ depth → ∀ rest,
      deserialize env depth t (bs ++ rest) = .ok (.ok (v, rest))) ∧
    (∀ vs ts, List.Forall₂ (HasType env) vs ts →
      ∃ bss, List.Forall₂ (fun v bs => serialize v = .ok bs) vs bss ∧ ∃ n, ∀ depth, n ≤ depth → ∀ rest,
        deserializeEach env depth ts (bss.flatten ++ rest) = .ok (.ok (vs, rest))) :=
  ⟨fun _ _ h => roundTrips_of_hasType h, fun _ _ h => eachRoundTrip h⟩

/-- A list type, which refers to itself. -/
def listOf (t : Ty) : Ty := .enum [.unit, .tuple [t, .named "List"]]

/-- A list of one number is read back. -/
theorem deserialise_serialise_list :
    let env := fun _ => listOf (.num .u32)
    let v := Value.tupleVariant 1 [.num .u32 (7 : BitVec 32), .unitVariant 0]
    HasType env v (.named "List") ∧ ∃ bs, serialize v = .ok bs ∧ ∃ n, ∀ depth, n ≤ depth → ∀ rest,
      deserialize env depth (.named "List") (bs ++ rest) = .ok (.ok (v, rest)) := by
  intro env v
  have hv : HasType env v (.named "List") := by
    refine .named (.tupleVariant rfl rfl ?_)
    intro p hp
    simp only [List.zip_cons_cons, List.zip_nil_right, List.mem_cons, List.not_mem_nil, or_false] at hp
    rcases hp with rfl | rfl
    · exact .num .u32 7
    · exact .named (.unitVariant rfl)
  exact ⟨hv, (deserialise_serialise env).1 v _ hv⟩

end Kompact.Serde
