import Kompact.Framework.BigEndian

/-!
# Writing to a buffer

A `BufMut` is anything that bytes can be appended to: `putSlice` appends some,
or panics where there is no room for them. `Appends` is its law, with the bytes
`written` so far, of which there may be any representation.

`Puts` says what a sequence of writes did, and composes (`Puts.append`); a
function that only writes is followed with `Appends.bind` and `Appends.fields`.
-/

namespace Kompact

variable {δ : Type}

/-- A buffer that is written to at its end. -/
structure BufMut (δ : Type) where
  remainingMut : δ → Nat
  putSlice : δ → List UInt8 → Except String δ

namespace BufMut

/-- A number as `w` bytes in big-endian order, which keep its low bits. -/
def putUint (B : BufMut δ) (dst : δ) (w v : Nat) : Except String δ := B.putSlice dst (toBE w v)

/-- The bytes `bs` were written, and took up their room. -/
structure Puts (B : BufMut δ) (written : δ → List UInt8) (d : δ) (bs : List UInt8) (d' : δ) : Prop where
  written : written d' = written d ++ bs
  room : B.remainingMut d' = B.remainingMut d - bs.length

/-- Bytes for which there is room are appended. -/
def Appends (B : BufMut δ) (written : δ → List UInt8) : Prop :=
  ∀ d bs, bs.length ≤ B.remainingMut d → ∃ d', B.putSlice d bs = .ok d' ∧ B.Puts written d bs d'

variable {B : BufMut δ} {written : δ → List UInt8} {d d' d'' : δ} {bs bs' : List UInt8}

theorem Puts.nil (d : δ) : B.Puts written d [] d := ⟨(List.append_nil _).symm, rfl⟩

theorem Puts.append (h : B.Puts written d bs d') (h' : B.Puts written d' bs' d'') :
    B.Puts written d (bs ++ bs') d'' := by
  refine ⟨?_, ?_⟩
  · rw [h'.written, h.written, List.append_assoc]
  · rw [h'.room, h.room, List.length_append, Nat.sub_sub]

/-- Writing some bytes and going on with the others. -/
theorem Appends.bind {α : Type} (hB : B.Appends written) (hl : bs.length ≤ B.remainingMut d)
    (k : δ → Except String α) : ∃ d', (B.putSlice d bs >>= k) = k d' ∧ B.Puts written d bs d' := by
  obtain ⟨d', hd, hp⟩ := hB d bs hl
  exact ⟨d', by rw [hd]; rfl, hp⟩

/-- Writing three fields. -/
theorem Appends.fields (hB : B.Appends written) {x y z : List UInt8}
    (hl : x.length + y.length + z.length ≤ B.remainingMut d) :
    ∃ d', (B.putSlice d x >>= fun d => B.putSlice d y >>= fun d => B.putSlice d z) = .ok d' ∧
      B.Puts written d (x ++ y ++ z) d' := by
  obtain ⟨d₁, h₁, hp₁⟩ := hB.bind (show x.length ≤ B.remainingMut d by omega)
    fun d => B.putSlice d y >>= fun d => B.putSlice d z
  have hr₁ := hp₁.room
  obtain ⟨d₂, h₂, hp₂⟩ := hB.bind (show y.length ≤ B.remainingMut d₁ by omega) fun d => B.putSlice d z
  have hr₂ := hp₂.room
  obtain ⟨d₃, h₃, hp₃⟩ := hB d₂ z (by omega)
  refine ⟨d₃, ?_, (hp₁.append hp₂).append hp₃⟩
  rw [h₁, h₂, h₃]

/-- A vector with a limit: its bytes, and the room that is left. -/
def vec : BufMut (List UInt8 × Nat) where
  remainingMut := Prod.snd
  putSlice d bs := if bs.length ≤ d.2 then .ok (d.1 ++ bs, d.2 - bs.length) else .error "advance out of bounds"

theorem appends_vec : vec.Appends Prod.fst := by
  intro d bs hl
  exact ⟨_, if_pos hl, rfl, rfl⟩

end BufMut

end Kompact
