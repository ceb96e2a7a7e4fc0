import Mathlib.Data.List.Range
import Mathlib.Data.List.DropRight

/-!
# Chunk memory

The memory of the pooled chunks, byte by byte: `BufferChunk`s own a chunk of
it, and leases and references point into it with slices, which stay valid
while the chunk is written elsewhere. `Mem.bytes` reads a range of a chunk,
`Mem.write` overwrites one; a write leaves the bytes of every range apart
from it unchanged (`Mem.bytes_write_of_sep`).

A computation that can panic returns `Panics`, with the panic's message.
-/

namespace Kompact

/-- A computation that may panic, with the message of the panic. -/
abbrev Panics (α : Type) := Except String α

/-- A computation that did not panic, or fail: neither did its first part, nor what followed. -/
theorem Panics.bind_eq_ok {ε α β : Type} {x : Except ε α} {f : α → Except ε β} {b : β} :
    (x >>= f) = .ok b ↔ ∃ a, x = .ok a ∧ f a = .ok b := by
  cases x with
  | error e =>
    constructor
    · intro h
      cases h
    · rintro ⟨a, h, -⟩
      cases h
  | ok a =>
    constructor
    · intro h
      exact ⟨a, rfl, h⟩
    · rintro ⟨a', ha, h⟩
      rw [Except.ok.inj ha]
      exact h

/-- The identity of an allocated chunk (the pointer `*mut dyn Chunk`). -/
abbrev ChunkId := Nat

/-- The contents of all chunks. -/
abbrev Mem := ChunkId → Nat → UInt8

namespace Mem

/-- The `n` bytes of chunk `c` from offset `o`. -/
def bytes (m : Mem) (c : ChunkId) (o n : Nat) : List UInt8 := (List.range n).map fun i => m c (o + i)

/-- Overwrite chunk `c` from offset `o` with `bs`. -/
def write (m : Mem) (c : ChunkId) (o : Nat) (bs : List UInt8) : Mem := fun c' i =>
  if c' = c ∧ o ≤ i ∧ i < o + bs.length then bs.getD (i - o) 0 else m c' i

@[simp] theorem length_bytes (m : Mem) (c : ChunkId) (o n : Nat) : (m.bytes c o n).length = n := by
  simp [bytes]

theorem getElem?_bytes (m : Mem) (c : ChunkId) (o n i : Nat) :
    (m.bytes c o n)[i]? = if i < n then some (m c (o + i)) else none := by
  by_cases h : i < n <;> simp [bytes, h]

@[simp] theorem bytes_zero (m : Mem) (c : ChunkId) (o : Nat) : m.bytes c o 0 = [] := rfl

theorem bytes_congr {m m' : Mem} {c : ChunkId} {o n : Nat} (h : ∀ i < n, m' c (o + i) = m c (o + i)) :
    m'.bytes c o n = m.bytes c o n :=
  List.map_congr_left fun i hi => h i (List.mem_range.mp hi)

/-- A range of a chunk is the range of its first bytes and that of the others. -/
theorem bytes_add (m : Mem) (c : ChunkId) (o a b : Nat) :
    m.bytes c o (a + b) = m.bytes c o a ++ m.bytes c (o + a) b := by
  simp only [bytes, List.range_add, List.map_append, List.map_map, Function.comp_def, Nat.add_assoc]

theorem take_bytes (m : Mem) (c : ChunkId) (o : Nat) {k n : Nat} (h : k ≤ n) :
    (m.bytes c o n).take k = m.bytes c o k := by
  obtain ⟨b, rfl⟩ := Nat.exists_eq_add_of_le h
  rw [bytes_add, List.take_left' (length_bytes ..)]

theorem drop_bytes (m : Mem) (c : ChunkId) (o : Nat) {k n : Nat} (h : k ≤ n) :
    (m.bytes c o n).drop k = m.bytes c (o + k) (n - k) := by
  obtain ⟨b, rfl⟩ := Nat.exists_eq_add_of_le h
  rw [bytes_add, List.drop_left' (length_bytes ..), Nat.add_sub_cancel_left]

/-- The bytes just written. -/
theorem bytes_write_self (m : Mem) (c : ChunkId) (o : Nat) (bs : List UInt8) :
    (m.write c o bs).bytes c o bs.length = bs := by
  apply List.ext_getElem?
  intro i
  rw [getElem?_bytes]
  by_cases h : i < bs.length
  · simp [write, h]
  · simp [h]

/-- The ranges `[o, o + n)` of `c` and `[o', o' + n')` of `c'` do not overlap. -/
def Sep (c : ChunkId) (o n : Nat) (c' : ChunkId) (o' n' : Nat) : Prop :=
  c = c' → o + n ≤ o' ∨ o' + n' ≤ o

/-- A write leaves the bytes of a range apart from it unchanged. -/
theorem bytes_write_of_sep {m : Mem} {c c' : ChunkId} {o n o' : Nat} {bs : List UInt8}
    (h : Sep c o n c' o' bs.length) : (m.write c' o' bs).bytes c o n = m.bytes c o n :=
  bytes_congr fun i hi => by
    simp only [write]
    refine ite_cond_eq_false _ _ (eq_false fun ⟨hc, hl, hu⟩ => ?_)
    rcases h hc with h | h <;> omega

end Mem

/-- A slice of a chunk (`&'static [u8]`, whose lock keeps the chunk alive). -/
structure Slice where
  chunk : ChunkId
  off : Nat
  len : Nat
  deriving DecidableEq, Repr

namespace Slice

/-- The bytes a slice points to. -/
def bytes (m : Mem) (s : Slice) : List UInt8 := m.bytes s.chunk s.off s.len

@[simp] theorem length_bytes (m : Mem) (s : Slice) : (s.bytes m).length = s.len := Mem.length_bytes ..

/-- The sub-slice `&s[from..]`. -/
def dropFirst (s : Slice) (n : Nat) : Slice := ⟨s.chunk, s.off + n, s.len - n⟩

/-- The sub-slice `&s[..n]`. -/
def takeFirst (s : Slice) (n : Nat) : Slice := ⟨s.chunk, s.off, n⟩

/-- No byte is in both slices. -/
def Apart (s t : Slice) : Prop := Mem.Sep s.chunk s.off s.len t.chunk t.off t.len

theorem Apart.symm {s t : Slice} (h : s.Apart t) : t.Apart s := fun hc => (h hc.symm).symm

theorem bytes_dropFirst (m : Mem) (s : Slice) {n : Nat} (h : n ≤ s.len) :
    (s.dropFirst n).bytes m = (s.bytes m).drop n :=
  (Mem.drop_bytes m s.chunk s.off h).symm

theorem bytes_takeFirst (m : Mem) (s : Slice) {n : Nat} (h : n ≤ s.len) :
    (s.takeFirst n).bytes m = (s.bytes m).take n :=
  (Mem.take_bytes m s.chunk s.off h).symm

end Slice

/-- A lockable chunk of memory. `len` is the chunk's length, `refCount` the
number of locks on it (`Arc::strong_count`, one of which is its own). -/
structure BufferChunk where
  chunk : ChunkId
  len : Nat
  refCount : Nat
  locked : Bool
  deriving DecidableEq, Repr

namespace BufferChunk

/-- The slice from `lo` to `hi` of an unlocked chunk. -/
def getSlice (b : BufferChunk) (lo hi : Nat) : Panics Slice :=
  if lo < hi ∧ hi ≤ b.len ∧ !b.locked then .ok ⟨b.chunk, lo, hi - lo⟩
  else .error "assertion failed: from < to && to <= self.len() && !self.locked"

/-- Clones the lock: the chunk stays locked until all locks are gone. -/
def getLock (b : BufferChunk) : ChunkId × BufferChunk := (b.chunk, { b with refCount := b.refCount + 1 })

/-- Whether the chunk is available again; unlocks it when it is. -/
def free (b : BufferChunk) : Bool × BufferChunk :=
  if b.locked then
    if b.refCount < 2 then (true, { b with locked := false }) else (false, b)
  else (true, b)

/-- Locks the chunk: neither writable nor leased until it is unlocked. -/
def lock (b : BufferChunk) : BufferChunk := { b with locked := true }

theorem free_unlocked {b : BufferChunk} (h : b.free.1 = true) :
    b.free.2.locked = false ∧ b.free.2.chunk = b.chunk ∧ b.free.2.len = b.len := by
  unfold free at *
  split at h
  · split at h
    · rename_i hl hr
      simp [hl, hr]
    · cases h
  · rename_i hl
    simp only [hl]
    simpa using hl

end BufferChunk

end Kompact
