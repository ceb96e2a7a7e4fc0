import Kompact.Framework.Buf

/-!
# Vectors of bytes and strings

Rust's `Vec<u8>` and `String`, with what holds of each value: it fits into
memory, and a string is UTF-8. On the wire both have their length in front
(`putVec`, `getVec`).
-/

namespace Kompact

/-- A vector of bytes. -/
@[ext] structure ByteVec where
  bytes : List UInt8
  /-- No allocation is larger than `isize::MAX`. -/
  fits : bytes.length < 2 ^ 63
  deriving DecidableEq

/-- A string, by the bytes of its UTF-8 encoding. -/
@[ext] structure RustString extends ByteVec where
  valid : bytes.toByteArray.IsValidUTF8
  deriving DecidableEq

namespace RustString

/-- `String::from_utf8` -/
def fromUtf8 (data : ByteVec) : Option RustString :=
  if h : data.bytes.toByteArray.IsValidUTF8 then some ⟨data, h⟩ else none

theorem fromUtf8_toByteVec (s : RustString) : fromUtf8 s.toByteVec = some s := dif_pos s.valid

end RustString

/-- The length, and then the bytes. -/
def putVec (data : ByteVec) : List UInt8 := toBE 8 data.bytes.length ++ data.bytes

namespace Buf

variable {β : Type}

/-- A vector of the length that comes first. Too large a vector cannot be
allocated. -/
def getVec (B : Buf β) (buf : β) : Except String (ByteVec × β) := do
  let (len, buf) ← B.getUint buf 8
  if len < 2 ^ 63 then
    let (bs, buf) ← B.copyToSlice buf len
    if h : bs.length < 2 ^ 63 then return (⟨bs, h⟩, buf) else throw "capacity overflow"
  else throw "capacity overflow"

theorem getVec_putVec (data : ByteVec) (rest : List UInt8) :
    bytes.getVec (putVec data ++ rest) = .ok (data, rest) := by
  have hfits := data.fits
  have hlen : data.bytes.length < 256 ^ 8 := by omega
  have hget := ByteBuf.getUint_toBE hlen (data.bytes ++ rest)
  have hcopy := ByteBuf.copyToSlice_append data.bytes rest
  rw [putVec, List.append_assoc, getVec, show bytes.getUint = ByteBuf.getUint from rfl, hget]
  simp only [bind, Except.bind, hfits, if_true, show bytes.copyToSlice = ByteBuf.copyToSlice from rfl, hcopy]
  rfl

theorem Shows.getVec_at {B : Buf β} {view : β → List UInt8} {ok : β → Prop} {b₀ b : β} {bs : List UInt8}
    (h : B.Shows view ok) (hok : ok b₀) (ha : B.At view b₀ b bs) :
    ExceptRel (B.SameAt view b₀) (B.getVec b) (Buf.bytes.getVec bs) := by
  refine (h.getUint_at hok ha 8).bind fun x y hxy => ?_
  obtain ⟨len, b₁⟩ := x
  obtain ⟨len', bs₁⟩ := y
  obtain ⟨rfl, ha₁⟩ := hxy
  simp only
  split
  · refine (h.copyToSlice_at hok ha₁ len).bind fun x y hxy => ?_
    obtain ⟨data, b₂⟩ := x
    obtain ⟨data', bs₂⟩ := y
    obtain ⟨rfl, ha₂⟩ := hxy
    simp only
    split
    · exact .ok ⟨rfl, ha₂⟩
    · exact .error _
  · exact .error _

end Buf

end Kompact
