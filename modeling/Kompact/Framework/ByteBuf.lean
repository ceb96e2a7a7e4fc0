import Kompact.Framework.BigEndian

/-!
# Reading byte strings

A byte string as a buffer that is read from its front. The reads panic when
the buffer is too short; what is left of it is returned with the value. Each
reads back what was put in front (`copyToSlice_append`, `getUint_toBE`).
-/

namespace Kompact.ByteBuf

/-- The next `n` bytes. -/
def copyToSlice (buf : List UInt8) (n : Nat) : Except String (List UInt8 × List UInt8) :=
  if buf.length < n then .error "advance out of bounds" else .ok (buf.take n, buf.drop n)

/-- The next `w` bytes, as a big-endian number. -/
def getUint (buf : List UInt8) (w : Nat) : Except String (Nat × List UInt8) := do
  let (bs, buf) ← copyToSlice buf w
  return (ofBE bs, buf)

theorem copyToSlice_append (bs rest : List UInt8) : copyToSlice (bs ++ rest) bs.length = .ok (bs, rest) := by
  have h : ¬ (bs ++ rest).length < bs.length := by rw [List.length_append]; omega
  rw [copyToSlice, if_neg h, List.take_left' rfl, List.drop_left' rfl]

theorem copyToSlice_toBE (w n : Nat) (rest : List UInt8) :
    copyToSlice (toBE w n ++ rest) w = .ok (toBE w n, rest) := by
  have h := copyToSlice_append (toBE w n) rest
  rwa [length_toBE] at h

theorem getUint_toBE {w n : Nat} (hn : n < 256 ^ w) (rest : List UInt8) :
    getUint (toBE w n ++ rest) w = .ok (n, rest) := by
  rw [getUint, copyToSlice_toBE]
  show Except.ok (ofBE (toBE w n), rest) = _
  rw [ofBE_toBE_of_lt hn]

end Kompact.ByteBuf
