import Kompact.Buffers.ChunkChain

/-!
# Serialised frames

A frame on its way to the network is a byte string, a lease or a reference.
What is sent next of it is its first contiguous `chunk`, and what was sent is
skipped with `advance`. Of a frame that is `Sendable` there is something left,
its chunk is a beginning of it (`Sendable.chunk_spec`), and the frame goes on
behind what was sent (`Sendable.advance`).
-/

namespace Kompact

/-- A framed value for transfer to the network thread. -/
inductive SerialisedFrame where
  | bytes (bs : List UInt8)
  | chunkLease (chunk : ChunkLease)
  | chunkRef (chunk : ChunkRef)
  deriving DecidableEq, Repr

namespace SerialisedFrame

/-- The number of bytes in this frame. -/
def len : SerialisedFrame → Nat
  | bytes bs => bs.length
  | chunkLease chunk => chunk.remaining
  | chunkRef chunk => chunk.remaining

/-- The data in this frame as a slice; of a chain only the front. -/
def chunk (m : Mem) : SerialisedFrame → Panics (List UInt8)
  | bytes bs => .ok bs
  | chunkLease chunk => chunk.chunk.map (Slice.bytes m)
  | chunkRef chunk => chunk.lease.chunk.map (Slice.bytes m)

/-- The frame behind its first `n` bytes: what is left of a byte string that was split,
and a chain with its read pointer advanced. -/
def advance (n : Nat) : SerialisedFrame → SerialisedFrame
  | bytes bs => bytes (bs.drop n)
  | chunkLease chunk => chunkLease (chunk.advance n)
  | chunkRef chunk => chunkRef (chunk.advance n)

/-- All bytes that are left. -/
def unread (m : Mem) : SerialisedFrame → List UInt8
  | bytes bs => bs
  | chunkLease chunk => chunk.unread m
  | chunkRef chunk => chunk.unread m

/-- The lengths that a chain stores are right. -/
def Sized : SerialisedFrame → Prop
  | bytes _ => True
  | chunkLease chunk => chunk.Sized
  | chunkRef chunk => chunk.lease.Sized

/-- A frame that is not empty. -/
structure Sendable (f : SerialisedFrame) : Prop where
  sized : f.Sized
  pos : 0 < f.len

variable {m : Mem} {f : SerialisedFrame} {n : Nat}

theorem Sized.length_unread (h : f.Sized) (m : Mem) : (f.unread m).length = f.len := by
  cases f with
  | bytes bs => rfl
  | chunkLease chunk => exact (ChunkLease.Sized.measured h).remaining m
  | chunkRef chunk => exact (ChunkLease.Sized.measured h).remaining m

theorem unread_advance (m : Mem) (f : SerialisedFrame) (n : Nat) : (f.advance n).unread m = (f.unread m).drop n := by
  cases f with
  | bytes bs => rfl
  | chunkLease chunk => exact ChunkLease.unread_advance m chunk n
  | chunkRef chunk => exact ChunkLease.unread_advance m chunk.lease n

/-- A chain that is not at its end offers some of its bytes. -/
theorem chunk_lease_spec {l : ChunkLease} (h : l.Sized) (hpos : 0 < l.remaining) (m : Mem) :
    ∃ bs, l.chunk.map (Slice.bytes m) = .ok bs ∧ 0 < bs.length ∧ bs <+: l.unread m := by
  rcases ChunkLease.getChunkAt_cases h.headed l.readPointer with ⟨-, s, hs, h0, hpre⟩ | ⟨hge, -⟩
  · refine ⟨s.bytes m, ?_, by rw [Slice.length_bytes]; exact h0, hpre m⟩
    rw [ChunkLease.chunk, hs]
    rfl
  · rw [h.held_eq] at hge
    have : 0 < l.capacity - l.readPointer := hpos
    omega

/-- What a frame offers is a beginning of what is left of it. -/
theorem Sendable.chunk_spec (h : f.Sendable) (m : Mem) :
    ∃ bs, f.chunk m = .ok bs ∧ 0 < bs.length ∧ bs <+: f.unread m := by
  cases f with
  | bytes bs => exact ⟨bs, rfl, h.pos, List.prefix_refl _⟩
  | chunkLease chunk => exact chunk_lease_spec h.sized h.pos m
  | chunkRef chunk => exact chunk_lease_spec h.sized h.pos m

theorem Sized.advance (h : f.Sized) (n : Nat) : (f.advance n).Sized := by
  cases f with
  | bytes bs => trivial
  | chunkLease chunk => exact ChunkLease.Sized.advance h n
  | chunkRef chunk => exact ChunkLease.Sized.advance h n

theorem Sendable.len_advance (h : f.Sendable) (n : Nat) : (f.advance n).len = f.len - n := by
  rw [← (h.sized.advance n).length_unread fun _ _ => 0, unread_advance, List.length_drop, h.sized.length_unread]

theorem Sendable.advance (h : f.Sendable) (hn : n < f.len) : (f.advance n).Sendable :=
  ⟨h.sized.advance n, by rw [h.len_advance]; omega⟩

end SerialisedFrame

end Kompact
