import Kompact.Net.Address
import Kompact.Network.SendPath

/-!
# Sending datagrams

A frame for the UDP socket is queued with its address. `try_write` takes the
frames from the queue, makes each contiguous and sends it as one datagram; a
frame that the socket did not take is put back in front.

* `makeContiguous_spec`: a chain becomes a byte string, and its lease is dropped;
* `tryWrite_spec`: the loop ends, what it sent and what is left is what was
  queued, in this order, and so are the leases it dropped and those that are left.
-/

namespace Kompact

namespace SerialisedFrame

/-- The frame as one slice, and the locks that are released with the chain it was. -/
def makeContiguous (m : Mem) (f : SerialisedFrame) : Panics (SerialisedFrame × List ChunkId) := do
  let len := f.len
  if (← f.chunk m).length < len then
    match f with
    | chunkLease chunk => return (bytes (← chunk.copyToSlice m len).1, chunk.locks)
    | chunkRef chunk => return (bytes (← chunk.lease.copyToSlice m len).1, chunk.lease.locks)
    | bytes _ => .error "Impossible error, can't convert uncontiguous Bytes to contiguous"
  else return (f, [])

variable {m : Mem} {f : SerialisedFrame}

/-- What is made of a frame: it has the same bytes in one piece, and the leases that were dropped
and those it holds are the ones it held. -/
structure Contiguous (m : Mem) (f g : SerialisedFrame) (dropped : List ChunkLease) : Prop where
  sendable : g.Sendable
  unread : g.unread m = f.unread m
  chunk : g.chunk m = .ok (f.unread m)
  leases : leasesOf [f] = dropped ++ leasesOf [g]

theorem copyToSlice_all {l : ChunkLease} (h : l.Sized) (hpos : 0 < l.remaining) (m : Mem) :
    ∃ l', l.copyToSlice m l.remaining = .ok (l.unread m, l') := by
  have hlen : (l.unread m).length = l.remaining := h.measured.remaining m
  have hcap : l.readPointer + l.remaining ≤ l.capacity := by
    have : 0 < l.capacity - l.readPointer := hpos
    show l.readPointer + (l.capacity - l.readPointer) ≤ l.capacity
    omega
  refine ⟨l.advance l.remaining, ?_⟩
  rw [h.headed.copyToSlice m h.held_eq hcap, ← hlen, List.take_length]

theorem makeContiguous_spec (h : f.Sendable) (m : Mem) :
    ∃ g dropped, f.makeContiguous m = .ok (g, locksOf dropped) ∧ f.Contiguous m g dropped := by
  obtain ⟨bs, hchunk, hpos, hpre⟩ := h.chunk_spec m
  have hlen := h.sized.length_unread m
  unfold makeContiguous
  simp only [hchunk, bind, Except.bind]
  by_cases hlt : bs.length < f.len
  · rw [if_pos hlt]
    cases f with
    | bytes b =>
      obtain rfl := Except.ok.inj hchunk
      exact absurd hlt (Nat.lt_irrefl _)
    | chunkLease l =>
      obtain ⟨l', hcopy⟩ := copyToSlice_all h.sized h.pos m
      refine ⟨bytes (l.unread m), [l.rewind], ?_, ⟨trivial, by rw [← hlen] at hlt; exact Nat.zero_lt_of_lt hlt⟩, rfl,
        rfl, rfl⟩
      simp only [show (chunkLease l).len = l.remaining from rfl, hcopy]
      rw [locksOf, List.flatMap_singleton, ChunkLease.locks_rewind]
      rfl
    | chunkRef r =>
      obtain ⟨l', hcopy⟩ := copyToSlice_all h.sized h.pos m
      refine ⟨bytes (r.unread m), [r.lease.rewind], ?_, ⟨trivial, by rw [← hlen] at hlt; exact Nat.zero_lt_of_lt hlt⟩,
        rfl, rfl, rfl⟩
      simp only [show (chunkRef r).len = r.lease.remaining from rfl, hcopy]
      rw [locksOf, List.flatMap_singleton, ChunkLease.locks_rewind]
      rfl
  · rw [if_neg hlt]
    refine ⟨f, [], rfl, h, rfl, ?_, rfl⟩
    rw [hchunk, hpre.eq_of_length_le (by omega)]

end SerialisedFrame

namespace Datagrams

/-- What `send_to` gives. -/
inductive SendResult where
  | ok (n : Nat)
  | wouldBlock
  | interrupted
  | error
  deriving DecidableEq, Repr

/-- The answers of a socket: to the call with number `i`, for the address and the bytes it is given. -/
abbrev Socket := Nat → SocketAddr → List UInt8 → SendResult

/-- A datagram is sent as a whole, or not. -/
def SendsWhole (socket : Socket) : Prop := ∀ i addr bs n, socket i addr bs = .ok n → n = bs.length

/-- What `try_write` leaves: its result, the number of bytes sent or an error, the queue, the
datagrams that the socket took, and the locks that were released. -/
structure Written where
  result : Option Nat
  queue : List (SocketAddr × SerialisedFrame)
  sent : List (SocketAddr × List UInt8)
  released : List ChunkId
  deriving DecidableEq, Repr

/-- The loop of `try_write`, for at most `fuel` calls; none where these are not enough. -/
def writeLoop (m : Mem) (socket : Socket) : (fuel i sentBytes interrupts : Nat) →
    List (SocketAddr × SerialisedFrame) → List (SocketAddr × List UInt8) → List ChunkId → Option (Panics Written)
  | _, _, sentBytes, _, [], sent, released => some (.ok ⟨some sentBytes, [], sent, released⟩)
  | 0, _, _, _, _ :: _, _, _ => none
  | fuel + 1, i, sentBytes, interrupts, (addr, frame) :: queue, sent, released =>
    match frame.makeContiguous m with
    | .error e => some (.error e)
    | .ok (frame, locks) =>
      match frame.chunk m with
      | .error e => some (.error e)
      | .ok bs =>
        match socket i addr bs with
        | .ok n =>
          if n = frame.len then
            writeLoop m socket fuel (i + 1) (sentBytes + n) interrupts queue (sent ++ [(addr, bs)])
              (released ++ (locks ++ frame.locks))
          else some (.error "A UDP frame was written incompletely!")
        | .wouldBlock => some (.ok ⟨some sentBytes, (addr, frame) :: queue, sent, released ++ locks⟩)
        | .interrupted =>
          if maxInterrupts ≤ interrupts + 1 then
            some (.ok ⟨none, (addr, frame) :: queue, sent, released ++ locks⟩)
          else
            writeLoop m socket fuel (i + 1) sentBytes (interrupts + 1) ((addr, frame) :: queue) sent
              (released ++ locks)
        | .error => some (.ok ⟨none, (addr, frame) :: queue, sent, released ++ locks⟩)

/-- Each call but the interrupted ones takes a frame from the queue. -/
def tryWrite (m : Mem) (socket : Socket) (queue : List (SocketAddr × SerialisedFrame)) : Option (Panics Written) :=
  writeLoop m socket (queue.length + maxInterrupts) 0 0 0 queue [] []

/-- The datagrams that the frames in a queue are. -/
def contents (m : Mem) (queue : List (SocketAddr × SerialisedFrame)) : List (SocketAddr × List UInt8) :=
  queue.map fun (addr, frame) => (addr, frame.unread m)

/-- The leases in a queue. -/
def leases (queue : List (SocketAddr × SerialisedFrame)) : List ChunkLease :=
  SerialisedFrame.leasesOf (queue.map Prod.snd)

variable {m : Mem} {socket : Socket} {queue queue' : List (SocketAddr × SerialisedFrame)}

theorem leases_cons (addr : SocketAddr) (frame : SerialisedFrame) :
    leases ((addr, frame) :: queue) = SerialisedFrame.leasesOf [frame] ++ leases queue :=
  List.filterMap_append (l := [frame])

theorem leases_append : leases (queue ++ queue') = leases queue ++ leases queue' := by
  rw [leases, List.map_append]
  exact List.filterMap_append

/-- How a queue is written: some of its datagrams were sent, and the leases of these were dropped,
perhaps with that of the first one which is left. -/
structure Split (m : Mem) (queue queue' : List (SocketAddr × SerialisedFrame)) (sent : List (SocketAddr × List UInt8))
    (dropped : List ChunkLease) : Prop where
  sendable : ∀ f ∈ queue', f.2.Sendable
  contents : contents m queue = sent ++ contents m queue'
  leases : leases queue = dropped ++ leases queue'

/-- The first frame was made contiguous. -/
theorem split_contiguous {addr : SocketAddr} {f g : SerialisedFrame} {dropped : List ChunkLease}
    (h : f.Contiguous m g dropped) (hq : ∀ f ∈ queue, f.2.Sendable) :
    Split m ((addr, f) :: queue) ((addr, g) :: queue) [] dropped where
  sendable x hx := by
    rcases List.mem_cons.mp hx with rfl | hx
    · exact h.sendable
    · exact hq x hx
  contents := by
    show (addr, f.unread m) :: _ = (addr, g.unread m) :: _
    rw [h.unread]
  leases := by rw [leases_cons, leases_cons, h.leases, List.append_assoc]

/-- The first frame was sent. -/
theorem split_sent {addr : SocketAddr} {frame : SerialisedFrame} (hq : ∀ f ∈ queue, f.2.Sendable) :
    Split m ((addr, frame) :: queue) queue [(addr, frame.unread m)] (SerialisedFrame.leasesOf [frame]) :=
  ⟨hq, rfl, leases_cons addr frame⟩

theorem Split.trans {queue₁ queue₂ queue₃ : List (SocketAddr × SerialisedFrame)}
    {sent sent' : List (SocketAddr × List UInt8)} {ds ds' : List ChunkLease} (h : Split m queue₁ queue₂ sent ds)
    (h' : Split m queue₂ queue₃ sent' ds') : Split m queue₁ queue₃ (sent ++ sent') (ds ++ ds') where
  sendable := h'.sendable
  contents := by rw [h.contents, h'.contents, List.append_assoc]
  leases := by rw [h.leases, h'.leases, List.append_assoc]

theorem locksOf_append (ds ds' : List ChunkLease) : locksOf (ds ++ ds') = locksOf ds ++ locksOf ds' :=
  List.flatMap_append ..

theorem locksOf_leasesOf_singleton (frame : SerialisedFrame) :
    locksOf (SerialisedFrame.leasesOf [frame]) = frame.locks := by
  rw [SerialisedFrame.locksOf_leasesOf, List.flatMap_singleton]

/-- By induction on the fuel: a frame that was sent leaves the queue, and there are only so many
interrupts. -/
theorem writeLoop_spec (hs : SendsWhole socket) (fuel i sentBytes interrupts : Nat)
    (queue : List (SocketAddr × SerialisedFrame)) (sent : List (SocketAddr × List UInt8)) (released : List ChunkId)
    (hq : ∀ f ∈ queue, f.2.Sendable) (hf : queue.length + (maxInterrupts - interrupts) ≤ fuel) :
    ∃ w new dropped, writeLoop m socket fuel i sentBytes interrupts queue sent released = some (.ok w) ∧
      w.sent = sent ++ new ∧ w.released = released ++ locksOf dropped ∧ Split m queue w.queue new dropped := by
  induction fuel generalizing i sentBytes interrupts queue sent released with
  | zero =>
    cases queue with
    | nil => exact ⟨_, [], [], rfl, (List.append_nil _).symm, (List.append_nil _).symm, hq, rfl, rfl⟩
    | cons f queue =>
      rw [List.length_cons] at hf
      omega
  | succ fuel ih =>
    cases queue with
    | nil => exact ⟨_, [], [], rfl, (List.append_nil _).symm, (List.append_nil _).symm, hq, rfl, rfl⟩
    | cons f queue =>
      obtain ⟨addr, f⟩ := f
      have hrest : ∀ f ∈ queue, f.2.Sendable := fun f hf => hq f (List.mem_cons_of_mem _ hf)
      obtain ⟨g, ds, hg, hcont⟩ := SerialisedFrame.makeContiguous_spec (hq _ (List.mem_cons_self ..)) m
      have hfirst : Split m ((addr, f) :: queue) ((addr, g) :: queue) [] ds := split_contiguous hcont hrest
      have hback : ∃ new dropped, sent = sent ++ new ∧ released ++ locksOf ds = released ++ locksOf dropped ∧
          Split m ((addr, f) :: queue) ((addr, g) :: queue) new dropped :=
        ⟨[], ds, (List.append_nil _).symm, rfl, hfirst⟩
      rw [List.length_cons] at hf
      simp only [writeLoop, hg, hcont.chunk]
      cases hr : socket i addr (f.unread m) with
      | ok n =>
        have hn : n = g.len := by
          rw [hs i addr _ n hr, ← hcont.unread, hcont.sendable.sized.length_unread]
        simp only [if_pos hn]
        obtain ⟨w, new, ds', hrun, hsent, hrel, hsplit⟩ := ih (i + 1) (sentBytes + n) interrupts queue
          (sent ++ [(addr, f.unread m)]) (released ++ (locksOf ds ++ g.locks)) hrest (by omega)
        have hsecond : Split m ((addr, g) :: queue) queue [(addr, g.unread m)] _ := split_sent hrest
        rw [hcont.unread] at hsecond
        refine ⟨w, [(addr, f.unread m)] ++ new, ds ++ SerialisedFrame.leasesOf [g] ++ ds', hrun, ?_, ?_,
          (hfirst.trans hsecond).trans hsplit⟩
        · rw [hsent, List.append_assoc]
        · simp only [hrel, locksOf_append, locksOf_leasesOf_singleton, List.append_assoc]
      | wouldBlock =>
        obtain ⟨new, ds', h₁, h₂, h₃⟩ := hback
        exact ⟨_, new, ds', rfl, h₁, h₂, h₃⟩
      | interrupted =>
        by_cases hmax : maxInterrupts ≤ interrupts + 1
        · simp only [if_pos hmax]
          obtain ⟨new, ds', h₁, h₂, h₃⟩ := hback
          exact ⟨_, new, ds', rfl, h₁, h₂, h₃⟩
        · simp only [if_neg hmax]
          obtain ⟨w, new, ds', hrun, hsent, hrel, hsplit⟩ := ih (i + 1) sentBytes (interrupts + 1)
            ((addr, g) :: queue) sent (released ++ locksOf ds) hfirst.sendable (by rw [List.length_cons]; omega)
          refine ⟨w, new, ds ++ ds', hrun, hsent, ?_, hfirst.trans hsplit⟩
          rw [hrel, locksOf_append, List.append_assoc]
      | error =>
        obtain ⟨new, ds', h₁, h₂, h₃⟩ := hback
        exact ⟨_, new, ds', rfl, h₁, h₂, h₃⟩

theorem tryWrite_spec (hs : SendsWhole socket) (hq : ∀ f ∈ queue, f.2.Sendable) :
    ∃ w dropped, tryWrite m socket queue = some (.ok w) ∧ w.released = locksOf dropped ∧
      Split m queue w.queue w.sent dropped := by
  obtain ⟨w, new, dropped, hrun, hsent, hrel, hsplit⟩ :=
    writeLoop_spec (m := m) hs (queue.length + maxInterrupts) 0 0 0 queue [] [] hq (Nat.le_refl _)
  rw [List.nil_append] at hsent hrel
  rw [← hsent] at hsplit
  exact ⟨w, dropped, hrun, hrel, hsplit⟩

end Datagrams

end Kompact
