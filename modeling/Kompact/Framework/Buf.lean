import Kompact.Framework.ByteBuf

/-!
# Reading from a buffer

A `Buf` is anything that bytes can be read from, in order: `copyToSlice` takes
the next ones or panics, and `advance` skips some. It `Shows` the bytes that
are not read yet, of which there may be any representation, as for a chain of
slices.

A function that only reads gives the same on a buffer as on the byte string it
shows. This is proved along the function with `ExceptRel`, which relates two
computations that fail alike or return related values (`ExceptRel.bind`), and
with the relation `At` of a buffer that was read up to where a byte string is
left (`copyToSlice_at`, `getUint_at`).
-/

namespace Kompact

variable {α α' γ γ' β ε : Type}

/-- Both fail with the same error, or return related values. -/
inductive ExceptRel (R : α → α' → Prop) : Except ε α → Except ε α' → Prop
  | error (e : ε) : ExceptRel R (.error e) (.error e)
  | ok {a : α} {a' : α'} (h : R a a') : ExceptRel R (.ok a) (.ok a')

theorem ExceptRel.bind {R : α → α' → Prop} {S : γ → γ' → Prop} {x : Except ε α} {x' : Except ε α'}
    {f : α → Except ε γ} {f' : α' → Except ε γ'} (h : ExceptRel R x x')
    (hf : ∀ a a', R a a' → ExceptRel S (f a) (f' a')) : ExceptRel S (x >>= f) (x' >>= f') := by
  cases h with
  | error e => exact .error e
  | ok h => exact hf _ _ h

/-- The left one goes on with what cannot fail on the right. -/
theorem ExceptRel.bind_left {R : α → α' → Prop} {S : γ → α' → Prop} {x : Except ε α} {x' : Except ε α'}
    {f : α → Except ε γ} (h : ExceptRel R x x') (hf : ∀ a a', R a a' → ExceptRel S (f a) (.ok a')) :
    ExceptRel S (x >>= f) x' := by
  cases h with
  | error e => exact .error e
  | ok h => exact hf _ _ h

theorem ExceptRel.of_ok {R : α → α' → Prop} {a : α} {x' : Except ε α'} (h : ExceptRel R (.ok a) x') :
    ∃ a', x' = .ok a' ∧ R a a' := by
  cases h with
  | ok h => exact ⟨_, rfl, h⟩

theorem ExceptRel.of_ok_right {R : α → α' → Prop} {a' : α'} {x : Except ε α} (h : ExceptRel R x (.ok a')) :
    ∃ a, x = .ok a ∧ R a a' := by
  cases h with
  | ok h => exact ⟨_, rfl, h⟩

/-- A buffer that is read from its front. -/
structure Buf (β : Type) where
  remaining : β → Nat
  advance : β → Nat → β
  copyToSlice : β → Nat → Except String (List UInt8 × β)

namespace Buf

/-- The next `w` bytes, as a big-endian number. -/
def getUint (B : Buf β) (buf : β) (w : Nat) : Except String (Nat × β) := do
  let (bs, buf) ← B.copyToSlice buf w
  return (ofBE bs, buf)

/-- The buffers that are `ok` are read as the bytes they show. -/
structure Shows (B : Buf β) (view : β → List UInt8) (ok : β → Prop) : Prop where
  remaining : ∀ b, ok b → B.remaining b = (view b).length
  copy : ∀ b n, ok b → n ≤ (view b).length → B.copyToSlice b n = .ok ((view b).take n, B.advance b n)
  short : ∀ b n, ok b → (view b).length < n → B.copyToSlice b n = .error "advance out of bounds"
  advance : ∀ b n, ok b → n ≤ (view b).length → ok (B.advance b n) ∧ view (B.advance b n) = (view b).drop n
  advance_advance : ∀ b i j, B.advance (B.advance b i) j = B.advance b (i + j)
  advance_zero : ∀ b, B.advance b 0 = b

/-- The buffer `b₀`, read up to where `bs` is left. -/
def At (B : Buf β) (view : β → List UInt8) (b₀ b : β) (bs : List UInt8) : Prop :=
  ∃ k ≤ (view b₀).length, b = B.advance b₀ k ∧ bs = (view b₀).drop k

variable {B : Buf β} {view : β → List UInt8} {ok : β → Prop} {b₀ b : β} {bs : List UInt8}

theorem Shows.at_start (h : B.Shows view ok) (b₀ : β) : B.At view b₀ b₀ (view b₀) :=
  ⟨0, Nat.zero_le _, (h.advance_zero b₀).symm, rfl⟩

theorem Shows.at_view (h : B.Shows view ok) (hok : ok b₀) (ha : B.At view b₀ b bs) : ok b ∧ view b = bs := by
  obtain ⟨k, hk, rfl, rfl⟩ := ha
  exact h.advance b₀ k hok hk

theorem Shows.remaining_at (h : B.Shows view ok) (hok : ok b₀) (ha : B.At view b₀ b bs) :
    B.remaining b = bs.length := by
  obtain ⟨hb, hv⟩ := h.at_view hok ha
  rw [h.remaining b hb, hv]

/-- A number and what is left, as read from both. -/
def SameAt (B : Buf β) (view : β → List UInt8) (b₀ : β) {α : Type} (x : α × β) (y : α × List UInt8) : Prop :=
  x.1 = y.1 ∧ B.At view b₀ x.2 y.2

theorem Shows.copyToSlice_at (h : B.Shows view ok) (hok : ok b₀) (ha : B.At view b₀ b bs) (n : Nat) :
    ExceptRel (B.SameAt view b₀) (B.copyToSlice b n) (ByteBuf.copyToSlice bs n) := by
  obtain ⟨hb, hv⟩ := h.at_view hok ha
  obtain ⟨k, hk, rfl, rfl⟩ := ha
  rw [ByteBuf.copyToSlice]
  by_cases hn : ((view b₀).drop k).length < n
  · rw [if_pos hn, h.short _ n hb (by rw [hv]; exact hn)]
    exact .error _
  · rw [if_neg hn, h.copy _ n hb (by rw [hv]; omega), hv]
    refine .ok ⟨rfl, k + n, ?_, h.advance_advance b₀ k n, List.drop_drop ..⟩
    rw [List.length_drop] at hn
    omega

theorem Shows.getUint_at (h : B.Shows view ok) (hok : ok b₀) (ha : B.At view b₀ b bs) (w : Nat) :
    ExceptRel (B.SameAt view b₀) (B.getUint b w) (ByteBuf.getUint bs w) := by
  refine (h.copyToSlice_at hok ha w).bind fun x y hxy => ?_
  obtain ⟨h₁, h₂⟩ := hxy
  exact .ok ⟨congrArg ofBE h₁, h₂⟩

/-- A byte string, as a buffer. -/
def bytes : Buf (List UInt8) where
  remaining := List.length
  advance bs n := bs.drop n
  copyToSlice := ByteBuf.copyToSlice

theorem shows_bytes : bytes.Shows id (fun _ => True) where
  remaining _ _ := rfl
  copy bs n _ hn := if_neg (show ¬ bs.length < n from Nat.not_lt.mpr hn)
  short bs n _ hn := if_pos (show bs.length < n from hn)
  advance _ _ _ _ := ⟨trivial, rfl⟩
  advance_advance _ _ _ := List.drop_drop ..
  advance_zero _ := List.drop_zero

end Buf

end Kompact
