import Mathlib.Data.List.Range
import Mathlib.Data.Nat.Bitwise

/-!
# Bits of a byte array

The bits of an array of bytes are counted over the whole array, from the least
significant bit of each byte. `Writes` says that one array is another one with
some bits, next to each other, written over it. A write of bits one by one is
a `Writes` by `Writes.zero` and `Writes.succ`, and writes to disjoint ranges
commute (`Writes.comm`).
-/

namespace Kompact

/-! ## Bytes -/

def byteBit (b : UInt8) (k : Nat) : Bool := b.toBitVec.getLsbD k

theorem byte_ext {a b : UInt8} (h : ∀ k < 8, byteBit a k = byteBit b k) : a = b :=
  UInt8.toBitVec_inj.mp (BitVec.eq_of_getLsbD_eq h)

theorem byteBit_ofNat (n : Nat) {k : Nat} (hk : k < 8) : byteBit (.ofNat n) k = n.testBit k := by
  unfold byteBit
  rw [UInt8.toBitVec_ofNat', BitVec.getLsbD_ofNat, decide_eq_true hk, Bool.true_and]

@[simp] theorem byteBit_zero (k : Nat) : byteBit 0 k = false := BitVec.getLsbD_zero

@[simp] theorem byteBit_or (a b : UInt8) (k : Nat) : byteBit (a ||| b) k = (byteBit a k || byteBit b k) :=
  BitVec.getLsbD_or ..

@[simp] theorem byteBit_and (a b : UInt8) (k : Nat) : byteBit (a &&& b) k = (byteBit a k && byteBit b k) :=
  BitVec.getLsbD_and ..

theorem byteBit_not (a : UInt8) {k : Nat} (hk : k < 8) : byteBit (~~~a) k = !byteBit a k := by
  unfold byteBit
  rw [UInt8.toBitVec_not, BitVec.getLsbD_not, decide_eq_true hk, Bool.true_and]

theorem byteBit_one (k : Nat) : byteBit 1 k = decide (k = 0) := BitVec.getLsbD_one ..

theorem toNat_shift {p : Nat} (hp : p < 8) : ((UInt8.ofNat p).toBitVec % 8).toNat = p := by
  have h : p % 256 = p := Nat.mod_eq_of_lt (by omega)
  simp [BitVec.toNat_umod, h, Nat.mod_eq_of_lt hp]

theorem byteBit_shiftLeft (b : UInt8) {p k : Nat} (hp : p < 8) (hk : k < 8) :
    byteBit (b <<< .ofNat p) k = (decide (p ≤ k) && byteBit b (k - p)) := by
  unfold byteBit
  rw [UInt8.toBitVec_shiftLeft, BitVec.shiftLeft_eq', toNat_shift hp, BitVec.getLsbD_shiftLeft, decide_eq_true hk,
    Bool.true_and, ← decide_not, decide_eq_decide.mpr Nat.not_lt]

theorem byteBit_shiftRight (b : UInt8) {p : Nat} (hp : p < 8) (k : Nat) :
    byteBit (b >>> .ofNat p) k = byteBit b (p + k) := by
  unfold byteBit
  rw [UInt8.toBitVec_shiftRight, BitVec.ushiftRight_eq', toNat_shift hp, BitVec.getLsbD_ushiftRight]

/-! ## Arrays -/

def bitAt (bytes : List UInt8) (k : Nat) : Bool := byteBit (bytes.getD (k / 8) 0) (k % 8)

theorem bytes_ext {a b : List UInt8} (hlen : a.length = b.length) (h : ∀ k, bitAt a k = bitAt b k) : a = b := by
  refine List.ext_getElem hlen fun i ha hb => byte_ext fun k hk => ?_
  have hbit := h (8 * i + k)
  have hdiv : (8 * i + k) / 8 = i := by omega
  have hmod : (8 * i + k) % 8 = k := by omega
  rwa [bitAt, bitAt, hdiv, hmod, List.getD_eq_getElem _ _ ha, List.getD_eq_getElem _ _ hb] at hbit

/-- A change of one byte, bit by bit. -/
theorem bitAt_modify {bytes : List UInt8} {i : Nat} (hi : i < bytes.length) (f : UInt8 → UInt8) (k : Nat) :
    bitAt (bytes.modify i f) k = if k / 8 = i then byteBit (f (bytes.getD i 0)) (k % 8) else bitAt bytes k := by
  unfold bitAt
  rw [List.getD_eq_getElem?_getD, List.getElem?_modify]
  by_cases hk : i = k / 8
  · subst hk
    simp [hi]
  · rw [if_neg (Ne.symm hk)]
    simp [hk]

/-! ## Writes -/

/-- `b` is `a` with `n` bits written over it from the bit `pos` on. -/
structure Writes (a b : List UInt8) (pos n : Nat) (bits : Nat → Bool) : Prop where
  length : b.length = a.length
  inside : ∀ i < n, bitAt b (pos + i) = bits i
  outside : ∀ k, ¬(pos ≤ k ∧ k < pos + n) → bitAt b k = bitAt a k

variable {a b c a' b' c' : List UInt8} {pos n p m : Nat} {bits cs : Nat → Bool}

theorem Writes.zero (a : List UInt8) (pos : Nat) (bits : Nat → Bool) : Writes a a pos 0 bits where
  length := rfl
  inside _ hi := absurd hi (Nat.not_lt_zero _)
  outside _ _ := rfl

/-- One more bit. -/
theorem Writes.succ (h : Writes a b pos n bits) (h' : Writes b c (pos + n) 1 fun _ => bits n) :
    Writes a c pos (n + 1) bits where
  length := h'.length.trans h.length
  inside i hi := by
    rcases Nat.lt_succ_iff_lt_or_eq.mp hi with hi | rfl
    · rw [h'.outside _ (by omega), h.inside i hi]
    · exact h'.inside 0 Nat.one_pos
  outside k hk := by rw [h'.outside k (by omega), h.outside k (by omega)]

/-- A bit after a write. -/
theorem Writes.bitAt_eq (h : Writes a b pos n bits) (k : Nat) :
    bitAt b k = if pos ≤ k ∧ k < pos + n then bits (k - pos) else bitAt a k := by
  split
  · rename_i hk
    have heq : pos + (k - pos) = k := Nat.add_sub_cancel' hk.1
    rw [← heq, h.inside (k - pos) (by omega), heq]
  · rename_i hk
    exact h.outside k hk

/-- Writes to disjoint ranges commute. -/
theorem Writes.comm (hd : ∀ k, pos ≤ k ∧ k < pos + n → ¬(p ≤ k ∧ k < p + m)) (hb : Writes a b pos n bits)
    (hc : Writes b c p m cs) (hb' : Writes a b' p m cs) (hc' : Writes b' c' pos n bits) : c = c' := by
  refine bytes_ext ?_ fun k => ?_
  · rw [hc.length, hb.length, hc'.length, hb'.length]
  · rw [hc.bitAt_eq, hb.bitAt_eq, hc'.bitAt_eq, hb'.bitAt_eq]
    by_cases hk : pos ≤ k ∧ k < pos + n
    · rw [if_pos hk, if_pos hk, if_neg (hd k hk)]
    · rw [if_neg hk, if_neg hk]

end Kompact
