import Mathlib.Data.Nat.Basic
import Mathlib.Algebra.Order.Ring.Nat
import Mathlib.Tactic.Ring

/-!
# Fixed-width big-endian numbers

`toBE w n` is the `w` bytes of `n`, most significant first, dropping what
does not fit; `ofBE` reads such bytes back. They are inverse to each other up
to the truncation (`ofBE_toBE`, `toBE_ofBE`), so a fixed-width word survives
the trip (`bitVec_ofBE_toBE`).
-/

namespace Kompact

/-- The `w` big-endian bytes of `n`; the bits above `8 * w` are dropped. -/
def toBE : Nat → Nat → List UInt8
  | 0, _ => []
  | w + 1, n => UInt8.ofNat (n / 256 ^ w) :: toBE w n

/-- The number with the given big-endian bytes. -/
def ofBE : List UInt8 → Nat
  | [] => 0
  | b :: bs => b.toNat * 256 ^ bs.length + ofBE bs

@[simp] theorem length_toBE (w n : Nat) : (toBE w n).length = w := by
  induction w with
  | zero => rfl
  | succ w ih => simp only [toBE, List.length_cons, ih]

theorem ofBE_lt (bs : List UInt8) : ofBE bs < 256 ^ bs.length := by
  induction bs with
  | nil => simp [ofBE]
  | cons b bs ih =>
    have hb : b.toNat < 256 := b.toNat_lt
    have hm : b.toNat * 256 ^ bs.length ≤ 255 * 256 ^ bs.length := Nat.mul_le_mul_right _ (by omega)
    simp only [ofBE, List.length_cons, pow_succ]
    omega

theorem ofBE_toBE (w n : Nat) : ofBE (toBE w n) = n % 256 ^ w := by
  induction w with
  | zero => simp [toBE, ofBE, Nat.mod_one]
  | succ w ih =>
    have e : n % 256 ^ (w + 1) = n % 256 ^ w + 256 ^ w * (n / 256 ^ w % 256) := by
      rw [Nat.pow_succ, Nat.mod_mul]
    simp only [toBE, ofBE, length_toBE, ih, UInt8.toNat_ofNat', Nat.reducePow]
    rw [e, Nat.mul_comm, Nat.add_comm]

theorem ofBE_toBE_of_lt {w n : Nat} (h : n < 256 ^ w) : ofBE (toBE w n) = n := by
  rw [ofBE_toBE, Nat.mod_eq_of_lt h]

/-- A word of `8 * w` bits, written as `w` bytes and read back. -/
theorem bitVec_ofBE_toBE {k w : Nat} (v : BitVec k) (hk : k = 8 * w) :
    BitVec.ofNat k (ofBE (toBE w v.toNat)) = v := by
  have hlt : v.toNat < 256 ^ w := by
    have h256 : (256 : Nat) ^ w = 2 ^ k := by rw [hk, pow_mul, show (2 : Nat) ^ 8 = 256 from rfl]
    rw [h256]
    exact v.isLt
  rw [ofBE_toBE_of_lt hlt, BitVec.ofNat_toNat, BitVec.setWidth_eq]

end Kompact
