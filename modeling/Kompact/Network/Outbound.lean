import Kompact.Buffers.Frames
import Kompact.Framework.FrameQueue

/-!
# The outbound queue of a channel

Control frames and serialised messages share one queue. `tryDrain` offers it
to the stream, which takes as much as it likes of a frame; what it did not
take stays at the front of the queue. When the connection is gone, all that is
left in the queue is handed back to the dispatcher (`takeOutbound`), to be
sent on another session.

What is left are whole messages exactly where the stream has stopped at the
end of a frame that no control frame follows (`OnBoundary`); then what is
written on each session are whole frames, and its own control frames.
-/

namespace Kompact

/-- What the stream answers to a write. -/
inductive WriteResult where
  | ok (n : Nat)
  | wouldBlock
  | interrupted
  | error
  deriving DecidableEq, Repr

/-- How many interrupts are too many. -/
def maxInterrupts : Nat := 9

/-- The queue of a channel, with the rest of each frame, and all bytes its stream took. -/
structure Outbound where
  queue : List (List UInt8)
  stream : List UInt8
  deriving DecidableEq, Repr

namespace Outbound

def new : Outbound := ⟨[], []⟩

/-- The loop of `try_drain`, with the answers of the stream: it would block
after the last of them. Returns the number of bytes sent, or an error. -/
def tryDrain (c : Outbound) (sentBytes interrupts : Nat) : List WriteResult → Outbound × Option Nat
  | [] => (c, some sentBytes)
  | r :: rs =>
    match c.queue with
    | [] => (c, some sentBytes)
    | frame :: queue =>
      match r with
      | .ok n =>
        -- a write takes at most what it is offered
        let n := min n frame.length
        let stream := c.stream ++ frame.take n
        let queue := if n < frame.length then frame.drop n :: queue else queue
        tryDrain { queue, stream } (sentBytes + n) interrupts rs
      | .wouldBlock => (c, some sentBytes)
      | .interrupted =>
        if maxInterrupts ≤ interrupts + 1 then (c, none) else tryDrain c sentBytes (interrupts + 1) rs
      | .error => (c, none)

def enqueueSerialised (c : Outbound) (serialized : List UInt8) : Outbound :=
  { c with queue := c.queue ++ [serialized] }

/-- Queue a control frame and try to drain. -/
def sendFrame (c : Outbound) (frame : WireFrame) (rs : List WriteResult) : Outbound :=
  ((c.enqueueSerialised frame.encode).tryDrain 0 0 rs).1

/-- Queue a `Bye` and try to drain; whether it was sent. -/
def sendBye (c : Outbound) (rs : List WriteResult) : Outbound × Bool :=
  let c := c.sendFrame .bye rs
  (c, c.queue.isEmpty)

def takeOutbound (c : Outbound) : List (List UInt8) × Outbound := (c.queue, { c with queue := [] })

end Outbound

/-! ## Runs -/

/-- The operations on the outbound queue. -/
inductive OutboundOp where
  | sendFrame (frame : WireFrame) (rs : List WriteResult)
  | enqueueSerialised (serialized : List UInt8)
  | tryDrain (rs : List WriteResult)
  | sendBye (rs : List WriteResult)
  deriving DecidableEq, Repr

/-- Something that was queued: a control frame, or a serialised message. -/
inductive OutboundItem where
  | control (frame : WireFrame)
  | message (serialized : List UInt8)
  deriving DecidableEq, Repr

namespace OutboundItem

def bytes : OutboundItem → List UInt8
  | control frame => frame.encode
  | message serialized => serialized

def isMessage : OutboundItem → Bool
  | control _ => false
  | message _ => true

end OutboundItem

namespace OutboundOp

/-- What the operation queues. -/
def items : OutboundOp → List OutboundItem
  | sendFrame frame _ => [.control frame]
  | enqueueSerialised serialized => [.message serialized]
  | tryDrain _ => []
  | sendBye _ => [.control .bye]

def apply (c : Outbound) : OutboundOp → Outbound
  | sendFrame frame rs => c.sendFrame frame rs
  | enqueueSerialised serialized => c.enqueueSerialised serialized
  | tryDrain rs => (c.tryDrain 0 0 rs).1
  | sendBye rs => (c.sendBye rs).1

end OutboundOp

namespace Outbound

def run (ops : List OutboundOp) : Outbound := ops.foldl OutboundOp.apply new

/-- All that was queued in a run. -/
def items (ops : List OutboundOp) : List OutboundItem := ops.flatMap OutboundOp.items

/-- The encodings of what was queued in a run. -/
def frames (ops : List OutboundOp) : List (List UInt8) := (items ops).map OutboundItem.bytes

/-- The queue holds what the stream has not taken of the frames. -/
structure Holds (c : Outbound) (fs : List (List UInt8)) : Prop where
  le : c.stream.length ≤ fs.flatten.length
  queue : c.queue = cut fs c.stream.length
  stream : c.stream = fs.flatten.take c.stream.length

variable {c : Outbound} {fs : List (List UInt8)}

theorem Holds.enqueue {f : List UInt8} (h : c.Holds fs) (hf : f ≠ []) :
    (c.enqueueSerialised f).Holds (fs ++ [f]) := by
  refine ⟨?_, ?_, ?_⟩
  · rw [List.flatten_append, List.length_append]
    exact Nat.le_add_right_of_le h.le
  · show c.queue ++ [f] = cut (fs ++ [f]) c.stream.length
    rw [h.queue, cut_append h.le (by simpa using hf)]
  · show c.stream = (fs ++ [f]).flatten.take c.stream.length
    rw [List.flatten_append, List.take_append_of_le_length h.le]
    exact h.stream

/-- One write moves bytes from the front of the queue to the stream. -/
theorem Holds.write {f : List UInt8} {q : List (List UInt8)} {n : Nat} (h : c.Holds fs) (hfs : ∀ f ∈ fs, f ≠ [])
    (hq : c.queue = f :: q) (hn : n ≤ f.length) :
    Outbound.Holds ⟨if n < f.length then f.drop n :: q else q, c.stream ++ f.take n⟩ fs := by
  have hlen : (c.stream ++ f.take n).length = c.stream.length + n := by
    rw [List.length_append, List.length_take, Nat.min_eq_left hn]
  have hrest : fs.flatten.drop c.stream.length = f ++ q.flatten := by
    rw [← flatten_cut, ← h.queue, hq, List.flatten_cons]
  have hflat : fs.flatten = c.stream ++ (f ++ q.flatten) := by
    conv_lhs => rw [← List.take_append_drop c.stream.length fs.flatten]
    rw [hrest, ← h.stream]
  refine ⟨?_, ?_, ?_⟩
  · rw [hlen, hflat, List.length_append, List.length_append]
    omega
  · have hcut : cut (f :: q) n = if n < f.length then f.drop n :: q else q := by
      rw [cut]
      by_cases hlt : n < f.length
      · rw [if_neg (by omega), if_pos hlt]
      · rw [if_pos (by omega), if_neg hlt, show n - f.length = 0 by omega]
        refine cut_zero (fun g hg => ?_)
        refine ne_nil_of_mem_cut (n := c.stream.length) hfs ?_
        rw [← h.queue, hq]
        exact List.mem_cons_of_mem _ hg
    show (if n < f.length then f.drop n :: q else q) = _
    rw [hlen, ← cut_cut, ← h.queue, hq, hcut]
  · show c.stream ++ f.take n = _
    rw [hlen, hflat, List.take_length_add_append, List.take_append_of_le_length hn]

theorem Holds.tryDrain {rs : List WriteResult} (h : c.Holds fs) (hfs : ∀ f ∈ fs, f ≠ []) (sent interrupts : Nat) :
    (c.tryDrain sent interrupts rs).1.Holds fs := by
  induction rs generalizing c sent interrupts with
  | nil => exact h
  | cons r rs ih =>
    unfold Outbound.tryDrain
    split
    · exact h
    · rename_i frame queue hq
      cases r with
      | ok n => exact ih (h.write hfs hq (Nat.min_le_right n frame.length)) _ _
      | wouldBlock => exact h
      | interrupted =>
        simp only
        split
        · exact h
        · exact ih h _ _
      | error => exact h

theorem encode_ne_nil (f : WireFrame) : f.encode ≠ [] := by
  intro h
  have := congrArg List.length h
  rw [WireFrame.encode, List.length_append, length_encode_head] at this
  simp [frameHeadLen] at this

theorem Holds.apply {op : OutboundOp} (h : c.Holds fs) (hfs : ∀ f ∈ fs, f ≠ [])
    (hop : ∀ f ∈ op.items.map OutboundItem.bytes, f ≠ []) :
    (op.apply c).Holds (fs ++ op.items.map OutboundItem.bytes) := by
  have hall : ∀ {f : List UInt8}, f ≠ [] → ∀ g ∈ fs ++ [f], g ≠ [] := by
    intro f hf g hg
    rcases List.mem_append.mp hg with hg | hg
    · exact hfs g hg
    · rw [List.mem_singleton.mp hg]; exact hf
  cases op with
  | sendFrame frame rs => exact (h.enqueue (encode_ne_nil frame)).tryDrain (hall (encode_ne_nil frame)) 0 0
  | enqueueSerialised serialized => exact h.enqueue (hop serialized (List.mem_singleton_self _))
  | tryDrain rs =>
    rw [show (OutboundOp.tryDrain rs).items = [] from rfl, List.map_nil, List.append_nil]
    exact h.tryDrain hfs 0 0
  | sendBye rs => exact (h.enqueue (encode_ne_nil .bye)).tryDrain (hall (encode_ne_nil .bye)) 0 0

theorem holds_run {ops : List OutboundOp} (h : ∀ f ∈ frames ops, f ≠ []) : (run ops).Holds (frames ops) := by
  have hgen : ∀ {c fs}, c.Holds fs → (∀ f ∈ fs ++ frames ops, f ≠ []) →
      (ops.foldl OutboundOp.apply c).Holds (fs ++ frames ops) := by
    clear h
    induction ops with
    | nil =>
      intro c fs hc _
      rw [show frames [] = [] from rfl, List.append_nil]
      exact hc
    | cons op ops ih =>
      intro c fs hc hne
      have hsplit : frames (op :: ops) = op.items.map OutboundItem.bytes ++ frames ops := by
        simp only [frames, items, List.flatMap_cons, List.map_append]
      rw [hsplit, ← List.append_assoc] at hne ⊢
      refine ih (hc.apply (fun f hf => hne f ?_) (fun f hf => hne f ?_)) hne
      · exact List.mem_append_left _ (List.mem_append_left _ hf)
      · exact List.mem_append_left _ (List.mem_append_right _ hf)
  have hnew : Holds new [] := ⟨Nat.le_refl _, rfl, rfl⟩
  exact hgen hnew h

/-! ## What is handed back -/

/-- The complete encoding of a message. -/
def IsMessage (f : List UInt8) : Prop := ∃ payload, f = (WireFrame.data payload).encode

/-- The messages that were queued in a run. -/
def messages (ops : List OutboundOp) : List (List UInt8) :=
  (items ops).filterMap fun
    | .control _ => none
    | .message serialized => some serialized

/-- The control frames that were queued in a run. -/
def controls (ops : List OutboundOp) : List WireFrame :=
  (items ops).filterMap fun
    | .control frame => some frame
    | .message _ => none

/-- What is left after the run are whole messages: the last ones that were queued, and no control frame. -/
def HandsBackWhole (ops : List OutboundOp) : Prop :=
  ∃ k, (run ops).takeOutbound.1 = ((items ops).drop k).map OutboundItem.bytes ∧
    ∀ i ∈ (items ops).drop k, i.isMessage = true

/-- The last byte the stream took is the last of a frame, and only messages
were queued behind that frame. -/
def OnBoundary (ops : List OutboundOp) : Prop :=
  ∃ k, (run ops).stream.length = (((items ops).take k).map OutboundItem.bytes).flatten.length ∧
    ∀ i ∈ (items ops).drop k, i.isMessage = true

variable {ops : List OutboundOp}

theorem mem_messages {f : List UInt8} : f ∈ messages ops ↔ .message f ∈ items ops := by
  unfold messages
  rw [List.mem_filterMap]
  constructor
  · rintro ⟨i, hi, h⟩
    cases i with
    | control frame => cases h
    | message serialized => obtain rfl := Option.some.inj h; exact hi
  · exact fun h => ⟨_, h, rfl⟩

theorem mem_controls {f : WireFrame} : f ∈ controls ops ↔ .control f ∈ items ops := by
  unfold controls
  rw [List.mem_filterMap]
  constructor
  · rintro ⟨i, hi, h⟩
    cases i with
    | control frame => obtain rfl := Option.some.inj h; exact hi
    | message serialized => cases h
  · exact fun h => ⟨_, h, rfl⟩

theorem frames_ne_nil (h : ∀ f ∈ messages ops, IsMessage f) : ∀ f ∈ frames ops, f ≠ [] := by
  intro f hf
  obtain ⟨i, hi, rfl⟩ := List.mem_map.mp hf
  cases i with
  | control frame => exact encode_ne_nil frame
  | message serialized =>
    obtain ⟨payload, rfl⟩ := h serialized (mem_messages.mpr hi)
    exact encode_ne_nil _

theorem handsBackWhole_iff (h : ∀ f ∈ messages ops, IsMessage f) : HandsBackWhole ops ↔ OnBoundary ops := by
  have hne := frames_ne_nil h
  have hrun := holds_run hne
  have htake : ∀ k, (frames ops).take k = ((items ops).take k).map OutboundItem.bytes := fun k => List.map_take.symm
  have hdrop : ∀ k, (frames ops).drop k = ((items ops).drop k).map OutboundItem.bytes := fun k => List.map_drop.symm
  constructor
  · rintro ⟨k, hq, hm⟩
    refine ⟨k, ?_, hm⟩
    rw [← htake]
    refine eq_length_of_cut hrun.le ?_
    rw [← hrun.queue, hdrop]
    exact hq
  · rintro ⟨k, hl, hm⟩
    refine ⟨k, ?_, hm⟩
    show (run ops).queue = _
    rw [hrun.queue, hl, ← htake, ← hdrop]
    calc cut (frames ops) ((frames ops).take k).flatten.length
        = cut ((frames ops).take k ++ (frames ops).drop k) ((frames ops).take k).flatten.length := by
          rw [List.take_append_drop]
      _ = (frames ops).drop k := cut_length (fun g hg => hne g (List.mem_of_mem_drop hg))

/-! ## Sessions -/

/-- One session: the run of its channel, and the answers of the stream to the
`Bye` that `lost_connection` sends after the rest was handed back, if it does. -/
structure Session where
  ops : List OutboundOp
  bye : Option (List WriteResult)
  deriving DecidableEq, Repr

namespace Session

def handedBack (s : Session) : List (List UInt8) := (run s.ops).takeOutbound.1

/-- All bytes written on the session. -/
def stream (s : Session) : List UInt8 :=
  match s.bye with
  | none => (run s.ops).stream
  | some rs => ((run s.ops).takeOutbound.2.sendBye rs).1.stream

/-- The control frames sent on the session. -/
def controls (s : Session) : List WireFrame :=
  Outbound.controls s.ops ++ match s.bye with
    | none => []
    | some _ => [.bye]

/-- The messages of each session are new ones, or were handed back before. -/
def Resubmits : List (List UInt8) → List Session → Prop
  | _, [] => True
  | back, s :: rest =>
    (∀ f ∈ messages s.ops, IsMessage f ∨ f ∈ back) ∧ Resubmits (back ++ s.handedBack) rest

/-- What is written are frames of the session, up to a point. -/
def WritesFrames (s : Session) : Prop :=
  ∃ fs : List WireFrame, s.stream <+: (fs.map WireFrame.encode).flatten ∧
    ∀ f ∈ fs, (∃ payload, f = .data payload) ∨ f ∈ s.controls

theorem handedBack_messages {s : Session} (hm : ∀ f ∈ messages s.ops, IsMessage f) (hb : OnBoundary s.ops) :
    ∀ f ∈ s.handedBack, IsMessage f := by
  obtain ⟨k, hq, hk⟩ := (handsBackWhole_iff hm).mpr hb
  intro f hf
  rw [handedBack, hq] at hf
  obtain ⟨i, hi, rfl⟩ := List.mem_map.mp hf
  cases i with
  | control frame => exact absurd (hk _ hi) Bool.false_ne_true
  | message serialized => exact hm _ (mem_messages.mpr (List.mem_of_mem_drop hi))

/-- The frames that were queued on the session. -/
theorem exists_frames {l : List OutboundItem} (hm : ∀ f, .message f ∈ l → IsMessage f) :
    ∃ fs : List WireFrame, fs.map WireFrame.encode = l.map OutboundItem.bytes ∧
      ∀ f ∈ fs, (∃ payload, f = .data payload) ∨ .control f ∈ l := by
  induction l with
  | nil => exact ⟨[], rfl, fun f hf => by cases hf⟩
  | cons i l ih =>
    obtain ⟨fs, hfs, hall⟩ := ih (fun f hf => hm f (List.mem_cons_of_mem _ hf))
    have hrest : ∀ f ∈ fs, (∃ payload, f = .data payload) ∨ OutboundItem.control f ∈ i :: l :=
      fun f hf => (hall f hf).imp id (List.mem_cons_of_mem _)
    cases i with
    | control frame =>
      refine ⟨frame :: fs, by rw [List.map_cons, List.map_cons, hfs]; rfl, fun f hf => ?_⟩
      rcases List.mem_cons.mp hf with rfl | hf
      · exact .inr (List.mem_cons_self ..)
      · exact hrest f hf
    | message serialized =>
      obtain ⟨payload, hp⟩ := hm serialized (List.mem_cons_self ..)
      refine ⟨.data payload :: fs, by rw [List.map_cons, List.map_cons, hfs, ← hp]; rfl, fun f hf => ?_⟩
      rcases List.mem_cons.mp hf with rfl | hf
      · exact .inl ⟨payload, rfl⟩
      · exact hrest f hf

theorem writesFrames {s : Session} (hm : ∀ f ∈ messages s.ops, IsMessage f) (hb : OnBoundary s.ops) :
    s.WritesFrames := by
  have hrun := holds_run (frames_ne_nil hm)
  rcases hbye : s.bye with _ | rs
  · obtain ⟨fs, hfs, hall⟩ := exists_frames (l := items s.ops) (fun f hf => hm f (mem_messages.mpr hf))
    refine ⟨fs, ?_, fun f hf => (hall f hf).imp id (fun hc => ?_)⟩
    · rw [stream, hbye, hfs, hrun.stream]
      exact List.take_prefix ..
    · rw [controls]
      exact List.mem_append_left _ (mem_controls.mpr hc)
  · -- the stream has taken whole frames, and the `Bye` follows them
    obtain ⟨k, hl, -⟩ := hb
    obtain ⟨fs, hfs, hall⟩ := exists_frames (l := (items s.ops).take k)
      (fun f hf => hm f (mem_messages.mpr (List.mem_of_mem_take hf)))
    have hstream : (run s.ops).stream = (fs.map WireFrame.encode).flatten := by
      rw [hrun.stream, hl, hfs, frames]
      conv_lhs => rw [← List.take_append_drop k (items s.ops), List.map_append, List.flatten_append]
      rw [List.take_append_drop]
      exact List.take_left' rfl
    have hne : ∀ f ∈ fs.map WireFrame.encode, f ≠ [] := by
      intro f hf
      obtain ⟨g, -, rfl⟩ := List.mem_map.mp hf
      exact encode_ne_nil g
    have hempty : (run s.ops).takeOutbound.2.Holds (fs.map WireFrame.encode) := by
      refine ⟨by rw [takeOutbound, hstream], ?_, ?_⟩
      · show [] = cut (fs.map WireFrame.encode) (run s.ops).stream.length
        have hcut := @cut_length _ (fs.map WireFrame.encode) [] (fun g hg => by cases hg)
        rw [List.append_nil] at hcut
        rw [hstream, hcut]
      · show (run s.ops).stream = _
        rw [takeOutbound, hstream, List.take_length]
    have hbyes : ((OutboundOp.sendBye rs).apply (run s.ops).takeOutbound.2).Holds _ :=
      hempty.apply hne (fun f hf => by rw [List.mem_singleton.mp hf]; exact encode_ne_nil .bye)
    refine ⟨fs ++ [.bye], ?_, fun f hf => ?_⟩
    · rw [stream, hbye, List.map_append]
      show ((run s.ops).takeOutbound.2.sendBye rs).1.stream <+: _
      rw [show ((run s.ops).takeOutbound.2.sendBye rs).1.stream = _ from hbyes.stream]
      exact List.take_prefix ..
    · rw [controls, hbye]
      rcases List.mem_append.mp hf with hf | hf
      · refine (hall f hf).imp id (fun hc => List.mem_append_left _ (mem_controls.mpr ?_))
        exact List.mem_of_mem_take hc
      · exact .inr (List.mem_append_right _ hf)

theorem resubmits_messages {back : List (List UInt8)} {sessions : List Session} (h : Resubmits back sessions)
    (hback : ∀ f ∈ back, IsMessage f) (hb : ∀ s ∈ sessions, OnBoundary s.ops) :
    ∀ s ∈ sessions, ∀ f ∈ messages s.ops, IsMessage f := by
  induction sessions generalizing back with
  | nil => exact fun s hs => by cases hs
  | cons s rest ih =>
    have hm : ∀ f ∈ messages s.ops, IsMessage f := fun f hf => (h.1 f hf).elim id (hback f)
    have hrest := ih h.2 (fun f hf => ?_) (fun s' hs' => hb s' (List.mem_cons_of_mem _ hs'))
    · intro s' hs'
      rcases List.mem_cons.mp hs' with rfl | hs'
      · exact hm
      · exact hrest s' hs'
    · rcases List.mem_append.mp hf with hf | hf
      · exact hback f hf
      · exact handedBack_messages hm (hb s (List.mem_cons_self ..)) f hf

end Session

/-- What a run hands back are whole messages exactly where it ends on a
boundary; and over any number of sessions that all do, what is handed back are
messages, and what is written are messages and the session's own control frames. -/
theorem handsBack_whole_iff_onBoundary (ops : List OutboundOp) (sessions : List Session) :
    ((∀ f ∈ messages ops, IsMessage f) → (HandsBackWhole ops ↔ OnBoundary ops)) ∧
    (Session.Resubmits [] sessions → (∀ s ∈ sessions, OnBoundary s.ops) →
      ∀ s ∈ sessions, (∀ f ∈ s.handedBack, IsMessage f) ∧ s.WritesFrames) := by
  refine ⟨fun h => handsBackWhole_iff h, fun hr hb s hs => ?_⟩
  have hm := Session.resubmits_messages hr (fun f hf => by cases hf) hb s hs
  exact ⟨Session.handedBack_messages hm (hb s hs), Session.writesFrames hm (hb s hs)⟩

/-- A message that was not written is handed back and sent on the next session. -/
theorem handsBack_whole_iff_onBoundary_resubmitted :
    let first : Session := ⟨[.sendFrame .ack [.ok 9], .enqueueSerialised (WireFrame.data [1, 2]).encode,
      .tryDrain [.wouldBlock]], some [.ok 9]⟩
    let second : Session := ⟨[.sendFrame .ack [.ok 9], .enqueueSerialised (WireFrame.data [1, 2]).encode,
      .tryDrain [.ok 5, .ok 6]], none⟩
    HandsBackWhole first.ops ∧ second.WritesFrames := by
  intro first second
  have hfirst : OnBoundary first.ops := ⟨1, by decide, by decide⟩
  have hsecond : OnBoundary second.ops := ⟨2, by decide, by decide⟩
  have hmsg : IsMessage (WireFrame.data [1, 2]).encode := ⟨[1, 2], rfl⟩
  have hm : ∀ f ∈ messages first.ops, IsMessage f := fun f hf => by rw [List.mem_singleton.mp hf]; exact hmsg
  obtain ⟨hwhole, hsessions⟩ := handsBack_whole_iff_onBoundary first.ops [first, second]
  refine ⟨(hwhole hm).mpr hfirst, ?_⟩
  refine (hsessions ⟨fun f hf => .inl (hm f hf), ?_, trivial⟩ ?_ second (by decide)).2
  · exact fun f hf => .inl (by rw [List.mem_singleton.mp hf]; exact hmsg)
  · intro s hs
    rcases List.mem_cons.mp hs with rfl | hs
    · exact hfirst
    · rw [List.mem_singleton.mp hs]; exact hsecond

theorem head?_isMessage {f : List UInt8} (h : IsMessage f) : f.head? = some 0xC0 ∧ f[8]? = some 0x02 := by
  obtain ⟨payload, rfl⟩ := h
  refine ⟨rfl, ?_⟩
  rw [WireFrame.encode, List.getElem?_append_left (by rw [length_encode_head]; decide), FrameHead.encode,
    List.getElem?_append_right (by simp)]
  simp [WireFrame.frameType, FrameType.toByte]

/-- An `Ack` that could not be written yet is handed back, and so is the rest
of a message of which the stream took a part. -/
theorem not_handsBack_ack_and_tail :
    (∃ f ∈ (run [.sendFrame .ack [.wouldBlock]]).takeOutbound.1, f = WireFrame.ack.encode ∧ ¬ IsMessage f) ∧
    ∃ f ∈ (run [.enqueueSerialised (WireFrame.data [1, 2]).encode, .tryDrain [.ok 5, .wouldBlock]]).takeOutbound.1,
      f = (WireFrame.data [1, 2]).encode.drop 5 ∧ ¬ IsMessage f := by
  refine ⟨⟨_, List.mem_cons_self .., rfl, fun h => ?_⟩, ⟨_, List.mem_cons_self .., by decide, fun h => ?_⟩⟩
  · exact absurd (head?_isMessage h).2 (by decide)
  · exact absurd (head?_isMessage h).1 (by decide)

end Outbound

end Kompact
