import Kompact.Messaging.DispatchData
import Kompact.Network.Drain
import Kompact.Serialisation.Reservation

/-!
# From the encode buffer to the stream

The network thread serialises a message into its encode buffer and queues the
lease on a channel. The bytes stay where they are until the stream has taken
them; then the lease is dropped, and the chunk may be handed out again.

* `serialiseMsg_outcome`: the lease is one of its own, and also where
  serialising fails all other leases keep their bytes. The reservation leaves
  room for the head, so that no padding fails;
* `serialiseDispatchData_outcome`: the same for the thread, after the encoder
  was dropped (`Idle`);
* `tryDrain_leases`: the frames that are left in a queue hold the leases that
  they held before, however far they were read.
-/

namespace Kompact

namespace EncodeBuffer

variable {e : EncodeBuffer} {leases leases' ds : List ChunkLease}

/-- A buffer that no encoder is using, while the given leases are live. -/
structure Idle (e : EncodeBuffer) (leases : List ChunkLease) : Prop where
  inv : e.Inv leases
  aligned : e.readOffset = e.writeOffset
  roomy : 128 ≤ e.bufferPool.chunkSize

theorem Idle.perm (h : e.Idle leases) (hp : leases.Perm leases') : e.Idle leases' :=
  ⟨h.inv.perm hp, h.aligned, h.roomy⟩

/-- Some of the leases are dropped. -/
theorem Idle.dropLocks (h : e.Idle (ds ++ leases)) : (e.dropLocks (locksOf ds)).Idle leases := by
  have hs : e.bufferPool.Sound [e.buffer] (locksOf ds ++ locksOf leases) := by
    have hs := h.inv.sound
    rwa [locksOf, List.flatMap_append] at hs
  have hr := recounted_dropLocks hs
  refine ⟨h.inv.recounted hr fun l hl => List.mem_append_right _ hl, ?_, ?_⟩
  · rw [hr.readOffset, hr.writeOffset]
    exact h.aligned
  · rw [hr.chunkSize]
    exact h.roomy

theorem Inv.regular (h : e.Inv leases) (hr : 128 ≤ e.bufferPool.chunkSize) : e.Regular :=
  ⟨h.offsets.trans h.bound, h.bound, h.active, h.size,
    fun b hb => h.sound.ledger.size b (List.mem_append_right _ hb), hr⟩

end EncodeBuffer

/-! ## Serialising -/

namespace BufferEncoder

variable {w w' : BufferEncoder} {leases : List ChunkLease}

/-- Where there is room for it a padding does not fail. -/
theorem not_padFails_of_room {cnt : Nat} (h : w.Inv leases) (hr : 128 ≤ w.encodeBuffer.bufferPool.chunkSize)
    (he : w.serError = none) (hc : cnt ≤ 128) (hroom : cnt ≤ w.room) : ¬ w.padFails cnt := by
  intro hf
  obtain ⟨w₁, hpad, htakes⟩ := takes_pad (h.buffer.regular hr) he hc hroom
  obtain ⟨w₂, hpad', herr, -⟩ := pad_fails h hf
  rw [hpad] at hpad'
  obtain rfl := Except.ok.inj hpad'
  rw [htakes.error] at herr
  cases herr

/-- The memory is not part of the invariant. -/
theorem Inv.setMem (h : w.Inv leases) (m : Mem) : BufferEncoder.Inv { w with mem := m } leases :=
  ⟨h.buffer, h.chain_own⟩

/-- What a producer leaves: the leases that were live have their bytes, and it returns a lease of
its own, of what was written before and the bytes `o`, or an error. -/
structure Produced (w : BufferEncoder) (leases : List ChunkLease) (o : Option (List UInt8))
    (r : Except SerError ChunkLease) (w' : BufferEncoder) : Prop where
  kept : ∀ l ∈ leases, l.bytes w'.mem = l.bytes w.mem
  roomy : 128 ≤ w'.encodeBuffer.bufferPool.chunkSize
  ok : ∀ l, r = .ok l → w'.Inv (l :: leases) ∧ l.Own leases ∧ w.serError = none ∧
    ∃ bs, o = some bs ∧ l.bytes w'.mem = w.written ++ bs
  error : ∀ err, r = .error err → w'.Inv leases

/-- What was put becomes a lease. -/
theorem lease_outcome {f : BufferEncoder → Panics (Encoded Unit)} {o : Option (List UInt8)} (hf : Puts f o)
    (h : w.Inv leases) (hr : 128 ≤ w.encodeBuffer.bufferPool.chunkSize) :
    ∃ r w', tryThen (f w) (fun _ w => w.getChunkLease) = .ok (r, w') ∧ w.Produced leases o r w' := by
  obtain ⟨r, w₁, bs, hput, hw, hok⟩ := hf.puts w leases h (by omega)
  rw [hput]
  cases r with
  | error err =>
    exact ⟨.error err, w₁, rfl, hw.kept, hw.size ▸ hr, (fun l hl => by cases hl), fun _ _ => hw.inv⟩
  | ok _ =>
    rcases getChunkLease_spec hw.inv with
      ⟨err, w', hget, hinv, hmem, -, hsize⟩ | ⟨l, w', hget, hn, hinv, hmem, -, -, hown, hb, -, hsize⟩
    · refine ⟨.error err, w', hget, fun l hl => ?_, by rw [hsize, hw.size]; exact hr, (fun l hl => by cases hl),
        fun _ _ => hinv⟩
      rw [hmem]
      exact hw.kept l hl
    · refine ⟨.ok l, w', hget, fun l' hl' => ?_, by rw [hsize, hw.size]; exact hr, fun l' hl' => ?_,
        (fun err he => by cases he)⟩
      · rw [hmem]
        exact hw.kept l' hl'
      · obtain rfl := Except.ok.inj hl'
        obtain ⟨hn₀, hb₀⟩ := hw.written hn
        exact ⟨hinv, hown, hn₀, bs, hok rfl, hb.trans hb₀⟩

/-- The head is written into the memory, and nothing else changes. -/
theorem insertDataHead_mem {l l' : ChunkLease} {len : Nat} (h : insertDataHead l len w = .ok (l', w')) :
    w' = { w with mem := w'.mem } := by
  obtain ⟨⟨m, l₁⟩, -, h⟩ := Panics.bind_eq_ok.mp h
  obtain ⟨-, rfl⟩ := Prod.mk.inj (Except.ok.inj h)
  rfl

/-- `serialise_msg` returns the frame of the message, as a lease of its own, or an error; either
way the buffer is in order. -/
theorem serialiseMsg_outcome (h : w.Blank leases) (src dst : ActorPath) (msg : Message) :
    ∃ r w', serialiseMsg src dst msg w = .ok (r, w') ∧
      (∀ l ∈ leases, l.bytes w'.mem = l.bytes w.mem) ∧ 128 ≤ w'.encodeBuffer.bufferPool.chunkSize ∧
      (∀ l, r = .ok l → w'.Inv (l :: leases) ∧ l.Own leases ∧
        frameOf src dst msg.serId msg.payload = some (l.bytes w'.mem)) ∧
      ∀ err, r = .error err → w'.Inv leases := by
  unfold serialiseMsg
  simp only
  obtain ⟨r₀, w₀, hres, hw₀, hn₀⟩ :=
    tryReserve_spec h.inv (msg.sizeHint.getD 0 + src.sizeHint.getD 0 + dst.sizeHint.getD 0 + frameHeadLen)
  have hroomy : 128 ≤ w₀.encodeBuffer.bufferPool.chunkSize := hw₀.size ▸ h.roomy
  rw [hres]
  cases r₀ with
  | error err => exact ⟨.error err, w₀, rfl, hw₀.kept, hroomy, (fun l hl => by cases hl), fun _ _ => hw₀.inv⟩
  | ok _ =>
    have hn : w₀.serError = none := hn₀.trans h.noError
    have hroom := room_tryReserve (h.inv.buffer.regular h.roomy) hres
    -- the reservation leaves room for the head
    have hpad : ¬ w₀.padFails frameHeadLen :=
      not_padFails_of_room hw₀.inv hroomy hn (by decide) (Nat.le_trans (Nat.le_add_left ..) hroom)
    obtain ⟨w₁, junk, hrun, hjunk, hw₁⟩ :=
      pad_spec hw₀.inv (Nat.le_trans (show frameHeadLen ≤ 128 by decide) hroomy) hpad
    have hroomy₁ : 128 ≤ w₁.encodeBuffer.bufferPool.chunkSize := hw₁.size ▸ hroomy
    obtain ⟨r, w₂, hput, hprod⟩ := lease_outcome (puts_content src dst msg.serId (puts_payload msg)) hw₁.inv hroomy₁
    have hkept : ∀ l ∈ leases, l.bytes w₂.mem = l.bytes w.mem := fun l hl =>
      (hprod.kept l hl).trans ((hw₁.kept l hl).trans (hw₀.kept l hl))
    have hrest : ∀ w : BufferEncoder, (tryThen (src.serialiseInto w) fun _ buf =>
        tryThen (dst.serialiseInto buf) fun _ buf => tryThen (putSerId msg.serId buf) fun _ buf =>
        tryThen (msg.serialiseInto buf) fun _ buf => tryThen buf.getChunkLease frameLease) =
        tryThen (tryThen (tryThen (src.serialiseInto w) fun _ w => tryThen (dst.serialiseInto w) fun _ w =>
          tryThen (putSerId msg.serId w) fun _ w => msg.serialiseInto w) fun _ w => w.getChunkLease) frameLease := by
      intro w
      simp only [tryThen_assoc]
    show ∃ r w', (w₀.pad frameHeadLen).bind _ = _ ∧ _
    rw [hrun]
    show ∃ r w', tryThen _ _ = _ ∧ _
    rw [hrest, hput]
    cases r with
    | error err => exact ⟨.error err, w₂, rfl, hkept, hprod.roomy, (fun l hl => by cases hl), hprod.error⟩
    | ok l =>
      obtain ⟨hinv, hown, hn₁, bs, ho, hb⟩ := hprod.ok l rfl
      rw [(hw₁.written hn₁).2, (hw₀.written hn).2, h.written, List.nil_append, List.nil_append] at hb
      obtain ⟨hsub, hcap, w₃, hins, hframe⟩ := framed_lease_spec hown hjunk hb
      obtain ⟨w₄, hins', -, hkept'⟩ := insertDataHead_spec hown hjunk hb bs.length
      have hmem := insertDataHead_mem hins
      rw [hins] at hins'
      obtain ⟨-, rfl⟩ := Prod.mk.inj (Except.ok.inj hins')
      refine ⟨.ok l, w₃, ?_, fun l' hl' => (hkept' l' hl').trans (hkept l' hl'), ?_, fun l' hl' => ?_,
        (fun err he => by cases he)⟩
      · show frameLease l w₂ = _
        simp only [frameLease, bind, Except.bind, hsub, hins, assertEq, if_pos hcap]
        rfl
      · rw [hmem]
        exact hprod.roomy
      · obtain rfl := Except.ok.inj hl'
        refine ⟨?_, hown, by rw [frameOf, ho, Option.map_some, ← hframe]⟩
        rw [hmem]
        exact hinv.setMem _

end BufferEncoder

/-! ## The thread's encode buffer -/

namespace Sending

/-- `serialise_dispatch_data`; the encoder is dropped at its end. -/
def serialiseDispatchData (m : Mem) (encodeBuffer : EncodeBuffer) (data : Messaging.DispatchData) :
    Panics (Except SerError SerialisedFrame × Mem × EncodeBuffer) :=
  match data with
  | .serialised frame => return (.ok frame, m, encodeBuffer)
  | data => do
    match ← encodeBuffer.getBufferEncoder m with
    | .error (err, encodeBuffer) => return (.error err, m, encodeBuffer)
    | .ok buf =>
      let (r, buf) ← data.intoSerialised buf
      return (r, buf.mem, (Encoding.closeEncoder buf).encodeBuffer)

/-- The encoder is dropped. -/
theorem idle_closeEncoder {w : BufferEncoder} {leases : List ChunkLease} (h : w.Inv leases)
    (hr : 128 ≤ w.encodeBuffer.bufferPool.chunkSize) : (Encoding.closeEncoder w).encodeBuffer.Idle leases := by
  have hs : Encoding.Inv ⟨w, true, leases⟩ := ⟨h, hr, (fun hc => by cases hc)⟩
  have hc := hs.closeEncoder
  obtain ⟨hch, -, hal⟩ := hc.closed rfl
  have hlive : (Encoding.closeEncoder w).live leases = leases := by rw [BufferEncoder.live, hch]; rfl
  exact ⟨hlive ▸ hc.encoder.buffer, hal, hc.roomy⟩

/-- A message is serialised: what the leases hold is not touched, and the frame is a lease of its
own, of the bytes of the message. Where there is an error, there is no lease more. -/
theorem serialiseDispatchData_outcome {m : Mem} {e : EncodeBuffer} {leases : List ChunkLease} (h : e.Idle leases)
    (src dst : ActorPath) (msg : Message) :
    ∃ r m' e', serialiseDispatchData m e (.lazy msg src dst) = .ok (r, m', e') ∧
      (∀ l ∈ leases, l.bytes m' = l.bytes m) ∧
      (∀ frame, r = .ok frame → ∃ l, frame = .chunkLease l ∧ e'.Idle (l :: leases) ∧ l.Own leases ∧
        frameOf src dst msg.serId msg.payload = some (l.bytes m')) ∧
      ∀ err, r = .error err → e'.Idle leases := by
  unfold serialiseDispatchData
  rcases BufferEncoder.getBufferEncoder_spec h.inv h.aligned m with ⟨e₁, hget, -⟩ | ⟨err, hget⟩
  · obtain ⟨hblank, -⟩ := blank_of_getBufferEncoder h.inv h.aligned h.roomy hget
    obtain ⟨r, w', hrun, hkept, hroomy, hok, herr⟩ := BufferEncoder.serialiseMsg_outcome hblank src dst msg
    refine ⟨r.map .chunkLease, w'.mem, (Encoding.closeEncoder w').encodeBuffer, ?_, hkept, fun frame hf => ?_,
      fun err he => ?_⟩
    · simp only [hget, bind, Except.bind, Messaging.DispatchData.intoSerialised, hrun, tryThen]
      cases r <;> rfl
    · cases r with
      | error err => cases hf
      | ok l =>
        obtain ⟨hinv, hown, hframe⟩ := hok l rfl
        exact ⟨l, (Except.ok.inj hf).symm, idle_closeEncoder hinv hroomy, hown, hframe⟩
    · cases r with
      | error err' => exact idle_closeEncoder (herr err' rfl) hroomy
      | ok l => cases he
  · refine ⟨.error err, m, e, ?_, fun _ _ => rfl, (fun frame hf => by cases hf), fun _ _ => h⟩
    simp only [hget, bind, Except.bind]
    rfl

end Sending

/-! ## The leases in a queue -/

namespace ChunkLease

/-- The lease, read from its start. -/
def rewind (l : ChunkLease) : ChunkLease := l.mapNode fun n => { n with readPointer := 0 }

@[simp] theorem rewind_advance (l : ChunkLease) (n : Nat) : (l.advance n).rewind = l.rewind := by
  cases l <;> rfl

@[simp] theorem locks_rewind (l : ChunkLease) : l.rewind.locks = l.locks := by
  cases l <;> rfl

@[simp] theorem bytes_rewind (m : Mem) (l : ChunkLease) : l.rewind.bytes m = l.bytes m := by
  cases l <;> rfl

theorem rewind_eq {l : ChunkLease} (h : l.readPointer = 0) : l.rewind = l := by
  obtain n | ⟨n, c⟩ := l
  all_goals
    obtain ⟨content, writePointer, readPointer, chainHeadLen, lock, chainLen⟩ := n
    obtain rfl : readPointer = 0 := h
    rfl

end ChunkLease

namespace SerialisedFrame

/-- The lease that a frame holds. -/
def base : SerialisedFrame → Option ChunkLease
  | bytes _ => none
  | chunkLease chunk => some chunk.rewind
  | chunkRef chunk => some chunk.lease.rewind

/-- The locks that are released when a frame is dropped. -/
def locks : SerialisedFrame → List ChunkId
  | bytes _ => []
  | chunkLease chunk => chunk.locks
  | chunkRef chunk => chunk.lease.locks

@[simp] theorem base_advance (f : SerialisedFrame) (n : Nat) : (f.advance n).base = f.base := by
  cases f with
  | bytes bs => rfl
  | chunkLease l => exact congrArg some (l.rewind_advance n)
  | chunkRef r => exact congrArg some (r.lease.rewind_advance n)

/-- A frame has the bytes that its lease has. -/
theorem unread_congr {m m' : Mem} {f : SerialisedFrame} (h : ∀ l ∈ f.base, l.bytes m' = l.bytes m) :
    f.unread m' = f.unread m := by
  have hlease : ∀ l : ChunkLease, f.base = some l.rewind → l.unread m' = l.unread m := by
    intro l hl
    have hb := h _ hl
    rw [ChunkLease.bytes_rewind, ChunkLease.bytes_rewind] at hb
    rw [ChunkLease.unread, ChunkLease.unread, hb]
  cases f with
  | bytes bs => rfl
  | chunkLease l => exact hlease l rfl
  | chunkRef r => exact hlease r.lease rfl

/-- The leases in a queue. -/
def leasesOf (queue : List SerialisedFrame) : List ChunkLease := queue.filterMap base

theorem locksOf_leasesOf (queue : List SerialisedFrame) : locksOf (leasesOf queue) = queue.flatMap locks := by
  induction queue with
  | nil => rfl
  | cons f queue ih =>
    rw [List.flatMap_cons, ← ih]
    cases f with
    | bytes bs => rfl
    | chunkLease l =>
      show l.rewind.locks ++ _ = _
      rw [ChunkLease.locks_rewind]
      rfl
    | chunkRef r =>
      show r.lease.rewind.locks ++ _ = _
      rw [ChunkLease.locks_rewind]
      rfl

theorem leasesOf_eq_of_base {queue queue' : List SerialisedFrame} (h : queue.map base = queue'.map base) :
    leasesOf queue = leasesOf queue' := by
  have hmap : ∀ q : List SerialisedFrame, leasesOf q = (q.map base).filterMap id := fun q => by
    rw [List.filterMap_map]
    rfl
  rw [hmap, hmap, h]

end SerialisedFrame

namespace Draining

variable {m : Mem} {stream : Stream}

/-- What is left of a queue are its last frames, the first of them perhaps read further. By
induction on the fuel. -/
theorem drainLoop_base {fuel i sent interrupts : Nat} {queue : List SerialisedFrame} {accepted : List UInt8}
    {d : Drained} (h : drainLoop m stream fuel i sent interrupts queue accepted = some (.ok d)) :
    ∃ k, k + d.queue.length = queue.length ∧
      d.queue.map SerialisedFrame.base = (queue.drop k).map SerialisedFrame.base := by
  induction fuel generalizing i sent interrupts queue accepted with
  | zero =>
    cases queue with
    | nil =>
      obtain rfl := Except.ok.inj (Option.some.inj h)
      exact ⟨0, rfl, rfl⟩
    | cons frame queue => cases h
  | succ fuel ih =>
    cases queue with
    | nil =>
      obtain rfl := Except.ok.inj (Option.some.inj h)
      exact ⟨0, rfl, rfl⟩
    | cons frame queue =>
      rw [drainLoop] at h
      cases hc : frame.chunk m with
      | error e =>
        simp only [hc] at h
        cases Option.some.inj h
      | ok chunk =>
        simp only [hc] at h
        cases hr : stream i chunk with
        | ok n =>
          simp only [hr] at h
          obtain ⟨k, hk, hbase⟩ := ih h
          by_cases hlt : n < frame.len
          · rw [if_pos hlt] at hk hbase
            refine ⟨k, hk, ?_⟩
            rw [hbase, List.map_drop, List.map_drop, List.map_cons, List.map_cons, SerialisedFrame.base_advance]
          · rw [if_neg hlt] at hk hbase
            exact ⟨k + 1, by rw [List.length_cons]; omega, hbase⟩
        | wouldBlock =>
          simp only [hr] at h
          obtain rfl := Except.ok.inj (Option.some.inj h)
          exact ⟨0, Nat.zero_add _, rfl⟩
        | interrupted =>
          simp only [hr] at h
          by_cases hmax : maxInterrupts ≤ interrupts + 1
          · rw [if_pos hmax] at h
            obtain rfl := Except.ok.inj (Option.some.inj h)
            exact ⟨0, Nat.zero_add _, rfl⟩
          · rw [if_neg hmax] at h
            exact ih h
        | error =>
          simp only [hr] at h
          obtain rfl := Except.ok.inj (Option.some.inj h)
          exact ⟨0, Nat.zero_add _, rfl⟩

/-- The frames that left the queue, in `try_drain`. -/
def popped (queue : List SerialisedFrame) (d : Drained) : List SerialisedFrame :=
  queue.take (queue.length - d.queue.length)

/-- The leases of a queue are those of the frames that left it and of those that are left. -/
theorem tryDrain_leases {fuel : Nat} {queue : List SerialisedFrame} {d : Drained}
    (h : tryDrain m stream fuel queue = some (.ok d)) :
    SerialisedFrame.leasesOf queue =
      SerialisedFrame.leasesOf (popped queue d) ++ SerialisedFrame.leasesOf d.queue := by
  obtain ⟨k, hk, hbase⟩ := drainLoop_base h
  have hpop : popped queue d = queue.take k := by
    rw [popped, show queue.length - d.queue.length = k by omega]
  rw [SerialisedFrame.leasesOf_eq_of_base hbase, hpop, SerialisedFrame.leasesOf, SerialisedFrame.leasesOf,
    SerialisedFrame.leasesOf, ← List.filterMap_append, List.take_append_drop]

/-- What is accepted is taken from the front of the queue, in order. -/
theorem tryDrain_bytes (hs : Fits stream) {queue : List SerialisedFrame} (hq : ∀ f ∈ queue, f.Sendable) {fuel : Nat}
    (hf : unsentLen queue + maxInterrupts ≤ fuel) :
    ∃ d, tryDrain m stream fuel queue = some (.ok d) ∧ (∀ f ∈ d.queue, f.Sendable) ∧
      (queue.map (SerialisedFrame.unread m)).flatten =
        d.accepted ++ (d.queue.map (SerialisedFrame.unread m)).flatten := by
  obtain ⟨d, hd, hqd, rs, hrs⟩ := tryDrain_refines (m := m) hs hq hf
  have hne : ∀ f ∈ queue.map (SerialisedFrame.unread m), f ≠ [] := by
    intro f hmem
    obtain ⟨g, hg, rfl⟩ := List.mem_map.mp hmem
    rw [← List.length_pos_iff, (hq g hg).sized.length_unread]
    exact (hq g hg).pos
  have hstart : Outbound.Holds ⟨queue.map (SerialisedFrame.unread m), []⟩ (queue.map (SerialisedFrame.unread m)) :=
    ⟨Nat.zero_le _, (cut_zero hne).symm, rfl⟩
  have hend : (Outbound.tryDrain ⟨queue.map (SerialisedFrame.unread m), []⟩ 0 0 rs).1.Holds
      (queue.map (SerialisedFrame.unread m)) := hstart.tryDrain hne 0 0
  rw [hrs] at hend
  refine ⟨d, hd, hqd, ?_⟩
  have hqueue : d.queue.map (SerialisedFrame.unread m) =
      cut (queue.map (SerialisedFrame.unread m)) d.accepted.length := hend.queue
  have htook : d.accepted = (queue.map (SerialisedFrame.unread m)).flatten.take d.accepted.length := hend.stream
  rw [hqueue, flatten_cut]
  conv_lhs => rw [← List.take_append_drop d.accepted.length (queue.map (SerialisedFrame.unread m)).flatten]
  rw [← htook]

end Draining

end Kompact
