import Mathlib.Data.List.Range

/-!
# Bit fields

Sub-byte fields of a byte array: a field sits at a bit position, counted over
the whole array, with a width of at most a byte. `store` sets its bits one by
one and `getAs` reads them back. Nothing keeps two fields from overlapping.
-/

namespace Kompact.Bitfields

inductive Error where
  /-- The bitfield overflowed into the next primitive. -/
  | overflow
  /-- The value could not be converted. -/
  | tryFromErr
  deriving DecidableEq, Repr

/-- Where a field is stored, and how its values are converted. -/
structure BitField (α : Type) where
  pos : Nat
  width : Nat
  into : α → UInt8
  tryFrom : UInt8 → Option α

def bitsPerByte : Nat := 8

def getBit (target : UInt8) (pos : Nat) : UInt8 := (target >>> .ofNat pos) &&& 1

def setBitTo (target : UInt8) (pos : Nat) (val : UInt8) : UInt8 :=
  (target &&& ~~~((1 : UInt8) <<< .ofNat pos)) ||| (val <<< .ofNat pos)

variable {α : Type}

/-- Whether the field fits in the array. -/
def checkField (storage : List UInt8) (field : BitField α) : Except Error Unit :=
  if bitsPerByte < field.width then .error .overflow
  else if bitsPerByte * storage.length < field.pos + field.width then .error .overflow
  else .ok ()

/-- Store a value, bit by bit. -/
def store (storage : List UInt8) (field : BitField α) (value : α) : Except Error (List UInt8) := do
  checkField storage field
  let repr := field.into value
  return (List.range field.width).foldl (fun storage i =>
    let idx := field.pos + i
    storage.modify (idx / 8) fun b => setBitTo b (idx % 8) (getBit repr i)) storage

/-- Read a value, bit by bit. -/
def getAs (storage : List UInt8) (field : BitField α) : Except Error α := do
  checkField storage field
  let repr := (List.range field.width).foldl (fun repr i =>
    let idx := field.pos + i
    setBitTo repr i (getBit (storage.getD (idx / 8) 0) (idx % 8))) 0
  match field.tryFrom repr with
  | some value => return value
  | none => throw .tryFromErr

end Kompact.Bitfields
