import Kompact.Messaging.Serialised
import Kompact.Network.Outbound

/-!
# Draining the outbound queue

`try_drain` on the frames as they are queued: byte strings, leases and
references, of which the stream is offered one contiguous chunk at a time.

The stream may take any part of what it is offered (`Fits`). The loop then does
what `Outbound.tryDrain` does on the bytes of the frames (`tryDrain_refines`),
and it ends. So no byte is lost or sent twice, whatever the stream answers
(`tryDrain_conserves`).
-/

namespace Kompact

namespace Draining

/-- The answers of a stream: to the write with number `i`, of the bytes it is offered. -/
abbrev Stream := Nat → List UInt8 → WriteResult

/-- A write takes some of the bytes it is offered, if it takes any. -/
def Fits (stream : Stream) : Prop := ∀ i chunk n, stream i chunk = .ok n → 1 ≤ n ∧ n ≤ chunk.length

/-- What `try_drain` leaves: its result, the number of bytes sent or an error, the queue, and
the bytes that the stream took. -/
structure Drained where
  result : Option Nat
  queue : List SerialisedFrame
  accepted : List UInt8
  deriving DecidableEq, Repr

/-- The loop of `try_drain`, for at most `fuel` writes; none where these are not enough. -/
def drainLoop (m : Mem) (stream : Stream) : (fuel i sentBytes interrupts : Nat) → List SerialisedFrame →
    List UInt8 → Option (Panics Drained)
  | _, _, sentBytes, _, [], accepted => some (.ok ⟨some sentBytes, [], accepted⟩)
  | 0, _, _, _, _ :: _, _ => none
  | fuel + 1, i, sentBytes, interrupts, frame :: queue, accepted =>
    match frame.chunk m with
    | .error e => some (.error e)
    | .ok chunk =>
      match stream i chunk with
      | .ok n =>
        let queue := if n < frame.len then frame.advance n :: queue else queue
        drainLoop m stream fuel (i + 1) (sentBytes + n) interrupts queue (accepted ++ chunk.take n)
      | .wouldBlock => some (.ok ⟨some sentBytes, frame :: queue, accepted⟩)
      | .interrupted =>
        if maxInterrupts ≤ interrupts + 1 then some (.ok ⟨none, frame :: queue, accepted⟩)
        else drainLoop m stream fuel (i + 1) sentBytes (interrupts + 1) (frame :: queue) accepted
      | .error => some (.ok ⟨none, frame :: queue, accepted⟩)

def tryDrain (m : Mem) (stream : Stream) (fuel : Nat) (queue : List SerialisedFrame) : Option (Panics Drained) :=
  drainLoop m stream fuel 0 0 0 queue []

/-- The number of bytes that are left to be sent. -/
def unsentLen (queue : List SerialisedFrame) : Nat := (queue.map SerialisedFrame.len).sum

variable {m : Mem} {stream : Stream}

/-- The loop ends, and does on the frames what the loop of the outbound queue does on their
bytes, for some answers of its stream. By induction on the fuel: a write that takes something
leaves fewer bytes, and there are only so many interrupts. -/
theorem drainLoop_refines (hs : Fits stream) (fuel i sent interrupts : Nat) (queue : List SerialisedFrame)
    (accepted : List UInt8) (hq : ∀ f ∈ queue, f.Sendable)
    (hf : unsentLen queue + (maxInterrupts - interrupts) ≤ fuel) :
    ∃ d, drainLoop m stream fuel i sent interrupts queue accepted = some (.ok d) ∧
      (∀ f ∈ d.queue, f.Sendable) ∧
      ∃ rs, Outbound.tryDrain ⟨queue.map (SerialisedFrame.unread m), accepted⟩ sent interrupts rs =
        (⟨d.queue.map (SerialisedFrame.unread m), d.accepted⟩, d.result) := by
  induction fuel generalizing i sent interrupts queue accepted with
  | zero =>
    cases queue with
    | nil => exact ⟨_, rfl, hq, [], rfl⟩
    | cons frame queue =>
      have hpos := (hq frame (List.mem_cons_self ..)).pos
      simp only [unsentLen, List.map_cons, List.sum_cons] at hf
      omega
  | succ fuel ih =>
    cases queue with
    | nil => exact ⟨_, rfl, hq, [], rfl⟩
    | cons frame queue =>
      have hframe := hq frame (List.mem_cons_self ..)
      have hrest : ∀ f ∈ queue, f.Sendable := fun f hmem => hq f (List.mem_cons_of_mem _ hmem)
      have hpos := hframe.pos
      obtain ⟨chunk, hchunk, -, hpre⟩ := hframe.chunk_spec m
      have hlen := hframe.sized.length_unread m
      have hle : chunk.length ≤ frame.len := by rw [← hlen]; exact hpre.length_le
      rw [drainLoop, hchunk]
      simp only [unsentLen, List.map_cons, List.sum_cons] at hf
      cases hr : stream i chunk with
      | ok n =>
        obtain ⟨h1, hn⟩ := hs i chunk n hr
        simp only [hr]
        have hq' : ∀ f ∈ (if n < frame.len then frame.advance n :: queue else queue), f.Sendable := by
          split
          · rename_i hlt
            intro f hmem
            rcases List.mem_cons.mp hmem with rfl | hmem
            · exact hframe.advance hlt
            · exact hrest f hmem
          · exact hrest
        have hlen' : unsentLen (if n < frame.len then frame.advance n :: queue else queue) + n ≤
            frame.len + unsentLen queue := by
          split
          · simp only [unsentLen, List.map_cons, List.sum_cons, hframe.len_advance]
            omega
          · omega
        have hmap : (if n < frame.len then frame.advance n :: queue else queue).map (SerialisedFrame.unread m) =
            if n < (frame.unread m).length then (frame.unread m).drop n :: queue.map (SerialisedFrame.unread m)
            else queue.map (SerialisedFrame.unread m) := by
          rw [hlen]
          split
          · rw [List.map_cons, SerialisedFrame.unread_advance]
          · rfl
        have htake : chunk.take n = (frame.unread m).take n := by
          obtain ⟨rest, hrest⟩ := hpre
          rw [← hrest, List.take_append_of_le_length hn]
        obtain ⟨d, hd, hqd, rs, hrs⟩ := ih (i + 1) (sent + n) interrupts _ (accepted ++ chunk.take n) hq'
          (by simp only [unsentLen] at hlen' ⊢; omega)
        refine ⟨d, hd, hqd, .ok n :: rs, ?_⟩
        rw [Outbound.tryDrain]
        simp only [List.map_cons]
        rw [Nat.min_eq_left (by omega), ← htake, ← hmap]
        exact hrs
      | wouldBlock => exact ⟨⟨some sent, frame :: queue, accepted⟩, by simp only [hr], hq, [.wouldBlock], rfl⟩
      | interrupted =>
        simp only [hr]
        by_cases hmax : maxInterrupts ≤ interrupts + 1
        · rw [if_pos hmax]
          refine ⟨_, rfl, hq, [.interrupted], ?_⟩
          simp only [Outbound.tryDrain, List.map_cons, if_pos hmax]
        · rw [if_neg hmax]
          obtain ⟨d, hd, hqd, rs, hrs⟩ := ih (i + 1) sent (interrupts + 1) (frame :: queue) accepted hq
            (by simp only [unsentLen, List.map_cons, List.sum_cons]; omega)
          refine ⟨d, hd, hqd, .interrupted :: rs, ?_⟩
          rw [Outbound.tryDrain]
          simp only [List.map_cons, if_neg hmax]
          exact hrs
      | error => exact ⟨⟨none, frame :: queue, accepted⟩, by simp only [hr], hq, [.error], rfl⟩

theorem tryDrain_refines (hs : Fits stream) {queue : List SerialisedFrame} (hq : ∀ f ∈ queue, f.Sendable) {fuel : Nat}
    (hf : unsentLen queue + maxInterrupts ≤ fuel) :
    ∃ d, tryDrain m stream fuel queue = some (.ok d) ∧ (∀ f ∈ d.queue, f.Sendable) ∧
      ∃ rs, Outbound.tryDrain ⟨queue.map (SerialisedFrame.unread m), []⟩ 0 0 rs =
        (⟨d.queue.map (SerialisedFrame.unread m), d.accepted⟩, d.result) :=
  drainLoop_refines hs fuel 0 0 0 queue [] hq hf

/-- The number that is returned counts the bytes that the stream took. -/
theorem sent_tryDrain {c : Outbound} {sent interrupts n : Nat} {rs : List WriteResult}
    (h : (c.tryDrain sent interrupts rs).2 = some n) :
    n + c.stream.length = sent + (c.tryDrain sent interrupts rs).1.stream.length := by
  induction rs generalizing c sent interrupts with
  | nil =>
    obtain rfl := Option.some.inj h
    rfl
  | cons r rs ih =>
    unfold Outbound.tryDrain at h ⊢
    cases hq : c.queue with
    | nil =>
      simp only [hq] at h ⊢
      obtain rfl := Option.some.inj h
      rfl
    | cons frame queue =>
      simp only [hq] at h ⊢
      cases r with
      | ok k =>
        have hrec := ih h
        simp only [List.length_append, List.length_take] at hrec ⊢
        omega
      | wouldBlock =>
        obtain rfl := Option.some.inj h
        rfl
      | interrupted =>
        simp only at h ⊢
        by_cases hmax : maxInterrupts ≤ interrupts + 1
        · rw [if_pos hmax] at h
          cases h
        · rw [if_neg hmax] at h ⊢
          exact ih h
      | error => cases h

/-- Whatever the stream answers, `try_drain` returns, and the bytes that the stream took and
those of the frames left in the queue are the bytes of the queue, in order. The number it
returns is that of the bytes taken. Also when it fails, the frames left are those that were in
the queue, without the bytes that were taken from their front. -/
theorem tryDrain_conserves (m : Mem) (stream : Stream) (hs : Fits stream) (queue : List SerialisedFrame)
    (hq : ∀ f ∈ queue, f.Sendable) (fuel : Nat) (hf : unsentLen queue + maxInterrupts ≤ fuel) :
    ∃ d, tryDrain m stream fuel queue = some (.ok d) ∧
      d.accepted ++ (d.queue.map (SerialisedFrame.unread m)).flatten =
        (queue.map (SerialisedFrame.unread m)).flatten ∧
      (∀ n, d.result = some n → n = d.accepted.length) ∧
      d.queue.map (SerialisedFrame.unread m) = cut (queue.map (SerialisedFrame.unread m)) d.accepted.length := by
  obtain ⟨d, hd, -, rs, hrs⟩ := tryDrain_refines (m := m) hs hq hf
  have hne : ∀ f ∈ queue.map (SerialisedFrame.unread m), f ≠ [] := by
    intro f hmem
    obtain ⟨g, hg, rfl⟩ := List.mem_map.mp hmem
    rw [← List.length_pos_iff, (hq g hg).sized.length_unread]
    exact (hq g hg).pos
  have hstart : Outbound.Holds ⟨queue.map (SerialisedFrame.unread m), []⟩ (queue.map (SerialisedFrame.unread m)) :=
    ⟨Nat.zero_le _, (cut_zero hne).symm, rfl⟩
  have hend : (Outbound.tryDrain ⟨queue.map (SerialisedFrame.unread m), []⟩ 0 0 rs).1.Holds
      (queue.map (SerialisedFrame.unread m)) := hstart.tryDrain hne 0 0
  rw [hrs] at hend
  refine ⟨d, hd, ?_, fun n hn => ?_, hend.queue⟩
  · have hqueue : d.queue.map (SerialisedFrame.unread m) =
        cut (queue.map (SerialisedFrame.unread m)) d.accepted.length := hend.queue
    have htook : d.accepted = (queue.map (SerialisedFrame.unread m)).flatten.take d.accepted.length := hend.stream
    rw [hqueue, flatten_cut]
    calc d.accepted ++ (queue.map (SerialisedFrame.unread m)).flatten.drop d.accepted.length
        = (queue.map (SerialisedFrame.unread m)).flatten.take d.accepted.length ++
            (queue.map (SerialisedFrame.unread m)).flatten.drop d.accepted.length := by rw [← htook]
      _ = (queue.map (SerialisedFrame.unread m)).flatten := List.take_append_drop ..
  · have hresult : (Outbound.tryDrain ⟨queue.map (SerialisedFrame.unread m), []⟩ 0 0 rs).2 = some n := by
      rw [hrs]
      exact hn
    have hsent := sent_tryDrain hresult
    rw [hrs] at hsent
    simpa using hsent

/-- A stream that takes one byte at a time, is interrupted once, and fails later. -/
def slowStream : Stream := fun i chunk =>
  if chunk = [] then .wouldBlock else if i = 2 then .interrupted else if i = 6 then .error else .ok 1

theorem fits_slowStream : Fits slowStream := by
  intro i chunk n h
  unfold slowStream at h
  split at h
  · cases h
  rename_i hne
  split at h
  · cases h
  split at h
  · cases h
  obtain rfl := WriteResult.ok.inj h
  exact ⟨Nat.le_refl _, List.length_pos_iff.mpr hne⟩

/-- A byte string, a lease of two slices, and a reference of which one byte was sent. -/
def mixedQueue : List SerialisedFrame :=
  [.bytes [1, 2], .chunkLease ((ChunkLease.new ⟨1, 0, 1⟩ 1).appendToChain (.new ⟨2, 4, 2⟩ 2)),
    .chunkRef ⟨(ChunkLease.new ⟨3, 0, 2⟩ 3).advance 1⟩]

theorem sendable_mixedQueue : ∀ f ∈ mixedQueue, f.Sendable := by
  intro f hf
  simp only [mixedQueue, List.mem_cons, List.not_mem_nil, or_false] at hf
  rcases hf with rfl | rfl | rfl
  · exact ⟨trivial, by decide⟩
  · exact ⟨⟨rfl, rfl, rfl, rfl⟩, by decide⟩
  · exact ⟨⟨rfl, rfl⟩, by decide⟩

/-- The stream fails when the rest of the reference is next. -/
theorem tryDrain_conserves_mixed :
    (∃ d, tryDrain (fun _ i => .ofNat i) slowStream 20 mixedQueue = some (.ok d) ∧
      d.accepted ++ (d.queue.map (SerialisedFrame.unread fun _ i => .ofNat i)).flatten =
        (mixedQueue.map (SerialisedFrame.unread fun _ i => .ofNat i)).flatten ∧
      (∀ n, d.result = some n → n = d.accepted.length) ∧
      d.queue.map (SerialisedFrame.unread fun _ i => .ofNat i) =
        cut (mixedQueue.map (SerialisedFrame.unread fun _ i => .ofNat i)) d.accepted.length) ∧
      (tryDrain (fun _ i => .ofNat i) slowStream 20 mixedQueue).map (Except.map Drained.accepted) =
        some (.ok [1, 2, 0, 4, 5]) := by
  refine ⟨tryDrain_conserves _ slowStream fits_slowStream mixedQueue sendable_mixedQueue 20 (by decide), ?_⟩
  decide

end Draining

end Kompact
