import Kompact.Network.ChannelMaps
import Kompact.Network.Outbound

/-!
# Closing gracefully

Each side of a connection that is closed gracefully sends a `Bye`. A channel
whose peer has said goodbye is closed when its own `Bye` is gone, at once or in a
later `write_tcp`; a channel that has said goodbye first is closed when the peer
answers.

`write_tcp` closes the channel whenever `try_drain` succeeds, also where the
stream would block with frames left, and the answer of the peer closes a channel
whose `Bye` may not be gone. `closes_after_bye` says what holds in the runs in
which neither happens (`Sent`): all that was queued has been written, the `Bye`
last. Frames are wholes there; `Represents` connects them with the bytes that
the stream has taken, whatever it answers to the single writes.
-/

namespace Kompact

/-! ## Frames and bytes -/

namespace Outbound

variable {α : Type} {o : Outbound} {c : TcpChannel α} {enc : NetFrame α → List UInt8}

/-- The stream has taken all bytes of the frames that were written, and not all of the next one. -/
structure Represents (o : Outbound) (enc : NetFrame α → List UInt8) (c : TcpChannel α) : Prop where
  holds : o.Holds ((c.written ++ c.outboundQueue).map enc)
  written : (c.written.map enc).flatten.length ≤ o.stream.length
  queued : ∀ f rest, c.outboundQueue = f :: rest → o.stream.length < ((c.written ++ [f]).map enc).flatten.length

theorem represents_new (enc : NetFrame α → List UInt8) (ownAddr address : SocketAddr) (state : ChannelState) :
    new.Represents enc (.new ownAddr address state) :=
  ⟨⟨Nat.le_refl _, rfl, rfl⟩, Nat.le_refl _, (fun _ _ h => by cases h)⟩

theorem Represents.enqueue (h : o.Represents enc c) (f : NetFrame α) (hf : enc f ≠ []) :
    (o.enqueueSerialised (enc f)).Represents enc (c.enqueueSerialised f) := by
  refine ⟨?_, h.written, fun g rest hg => ?_⟩
  · rw [show (c.enqueueSerialised f).written ++ (c.enqueueSerialised f).outboundQueue =
      c.written ++ c.outboundQueue ++ [f] from (List.append_assoc ..).symm, List.map_append]
    exact h.holds.enqueue hf
  · -- what is at the front was there before, or the queue was empty
    cases hq : c.outboundQueue with
    | nil =>
      have hcons : [f] = g :: rest := by
        rw [← hg]
        show [f] = c.outboundQueue ++ [f]
        rw [hq]
        rfl
      obtain ⟨rfl, -⟩ := List.cons.inj hcons
      have hle := h.holds.le
      rw [hq, List.append_nil] at hle
      have hpos := List.length_pos_iff.mpr hf
      show o.stream.length < ((c.written ++ [f]).map enc).flatten.length
      simp only [List.map_append, List.map_cons, List.map_nil, List.flatten_append, List.flatten_cons,
        List.flatten_nil, List.append_nil, List.length_append]
      omega
    | cons g' rest' =>
      have hcons : g' :: (rest' ++ [f]) = g :: rest := by
        rw [← hg]
        show _ = c.outboundQueue ++ [f]
        rw [hq]
        rfl
      obtain ⟨rfl, -⟩ := List.cons.inj hcons
      exact h.queued g' rest' hq

/-- Where nothing is queued any more, all bytes have been written. -/
theorem Represents.all_written (h : o.Represents enc c) (hq : c.outboundQueue = []) :
    o.stream = (c.written.map enc).flatten := by
  have hs := h.holds.stream
  rw [hq, List.append_nil] at hs
  exact hs.trans (List.take_of_length_le h.written)

/-- The stream only grows. -/
theorem length_stream_tryDrain (rs : List WriteResult) (o : Outbound) (sent interrupts : Nat) :
    o.stream.length ≤ (o.tryDrain sent interrupts rs).1.stream.length := by
  induction rs generalizing o sent interrupts with
  | nil => exact Nat.le_refl _
  | cons r rs ih =>
    unfold Outbound.tryDrain
    split
    · exact Nat.le_refl _
    · rename_i frame queue hq
      cases r with
      | ok n =>
        refine Nat.le_trans ?_ (ih _ _ _)
        show o.stream.length ≤ (o.stream ++ _).length
        rw [List.length_append]
        omega
      | wouldBlock => exact Nat.le_refl _
      | interrupted =>
        simp only
        split
        · exact Nat.le_refl _
        · exact ih _ _ _
      | error => exact Nat.le_refl _

/-- Whatever the stream answers, a number of frames is written. -/
theorem Represents.tryDrain (h : o.Represents enc c) (henc : ∀ f, enc f ≠ []) (rs : List WriteResult) :
    ∃ n, (o.tryDrain 0 0 rs).1.Represents enc (c.tryDrain n) := by
  have hne : ∀ f ∈ (c.written ++ c.outboundQueue).map enc, f ≠ [] := by
    intro f hf
    obtain ⟨g, -, rfl⟩ := List.mem_map.mp hf
    exact henc g
  have hlen : o.stream.length ≤ (o.tryDrain 0 0 rs).1.stream.length := length_stream_tryDrain rs o 0 0
  have hwritten : (c.written.map enc).flatten.length ≤ (o.tryDrain 0 0 rs).1.stream.length := h.written.trans hlen
  obtain ⟨n, hn, hrest⟩ := exists_whole (c.outboundQueue.map enc)
    ((o.tryDrain 0 0 rs).1.stream.length - (c.written.map enc).flatten.length)
  refine ⟨n, ?_, ?_, fun f rest hf => ?_⟩
  · have hcat : (c.tryDrain n).written ++ (c.tryDrain n).outboundQueue = c.written ++ c.outboundQueue := by
      simp only [TcpChannel.tryDrain, List.append_assoc, List.take_append_drop]
    rw [hcat]
    exact h.holds.tryDrain hne 0 0
  · simp only [TcpChannel.tryDrain, List.map_append, List.map_take, List.flatten_append, List.length_append]
    omega
  · have hlt := hrest (enc f) (rest.map enc) (by rw [← List.map_drop]; exact congrArg (List.map enc) hf)
    simp only [TcpChannel.tryDrain, List.map_append, List.map_take, List.flatten_append, List.length_append,
      List.map_cons, List.map_nil, List.flatten_cons, List.flatten_nil, List.length_nil]
    omega

/-- The operations of a channel on whole frames are what it does with their bytes. -/
structure Refines (enc : NetFrame α → List UInt8) : Prop where
  new : ∀ ownAddr address state, Outbound.new.Represents enc (.new ownAddr address state)
  enqueue : ∀ (o : Outbound) (c : TcpChannel α) f,
    o.Represents enc c → (o.enqueueSerialised (enc f)).Represents enc (c.enqueueSerialised f)
  tryDrain : ∀ (o : Outbound) (c : TcpChannel α) rs,
    o.Represents enc c → ∃ n, (o.tryDrain 0 0 rs).1.Represents enc (c.tryDrain n)
  written : ∀ (o : Outbound) (c : TcpChannel α),
    o.Represents enc c → c.outboundQueue = [] → o.stream = (c.written.map enc).flatten

theorem refines (henc : ∀ f, enc f ≠ []) : Refines enc where
  new := represents_new enc
  enqueue _ _ f h := h.enqueue f (henc f)
  tryDrain _ _ rs h := h.tryDrain henc rs
  written _ _ h := h.all_written

end Outbound

/-! ## Channels that are closing -/

/-- The channel is waiting for its own `Bye` to be written, or has failed. -/
def ChannelState.waits : ChannelState → Bool
  | closeReceived _ _ => true
  | error => true
  | _ => false

namespace TcpChannel

variable {α : Type} {c c' c'' : TcpChannel α}

/-- The last frame a closing channel has queued is its `Bye`. -/
def ByeLast (c : TcpChannel α) : Prop :=
  c.state.isClosing = true → ∃ frames, c.written ++ c.outboundQueue = frames ++ [.bye]

/-- A channel that waits goes on waiting, and the `Bye` of one that is closing stays the last frame. -/
structure Steady (c c' : TcpChannel α) : Prop where
  waits : c.state.waits = true → c'.state.waits = true
  bye : c.ByeLast → c'.ByeLast

theorem Steady.refl (c : TcpChannel α) : Steady c c := ⟨id, id⟩

theorem Steady.trans (h : Steady c c') (h' : Steady c' c'') : Steady c c'' :=
  ⟨fun hw => h'.waits (h.waits hw), fun hb => h'.bye (h.bye hb)⟩

/-- What is queued and what is written are the same frames as before. -/
theorem Steady.of_same (hs : c'.state = c.state)
    (hf : c'.written ++ c'.outboundQueue = c.written ++ c.outboundQueue) : Steady c c' := by
  refine ⟨fun hw => by rw [hs]; exact hw, fun hb hc => ?_⟩
  rw [hf]
  rw [hs] at hc
  exact hb hc

theorem Steady.of_open (hw : c.state.waits = false) (hc : c'.state.isClosing = false) : Steady c c' := by
  refine ⟨fun h => absurd (hw.symm.trans h) Bool.false_ne_true, fun _ h => ?_⟩
  exact absurd (hc.symm.trans h) Bool.false_ne_true

theorem written_sendFrame (f : NetFrame α) (n : Nat) :
    (c.sendFrame f n).written ++ (c.sendFrame f n).outboundQueue = c.written ++ c.outboundQueue ++ [f] := by
  simp only [sendFrame, tryDrain, enqueueSerialised, List.append_assoc, List.take_append_drop]

theorem steady_tryDrain (n : Nat) : Steady c (c.tryDrain n) :=
  .of_same rfl (by simp only [tryDrain, List.append_assoc, List.take_append_drop])

theorem steady_readState (pending : Bool) : Steady c (c.readState pending) := by
  unfold readState
  split
  · exact ⟨fun _ => rfl, (fun _ hc => by cases hc)⟩
  · exact .refl c

theorem steady_handleHello (addr : SocketAddr) (n : Nat) : Steady c (c.handleHello addr n) := by
  unfold handleHello
  split
  · rename_i hst
    exact .of_open (by rw [hst]; rfl) rfl
  · exact .refl c

theorem steady_handleStart (addr : SocketAddr) (id : SessionId) (n : Nat) : Steady c (c.handleStart addr id n) := by
  unfold handleStart
  split
  · rename_i hst
    exact .of_open (by rw [hst]; rfl) rfl
  · exact .refl c

theorem steady_handleAck : Steady c c.handleAck := by
  unfold handleAck
  split
  · rename_i hst
    exact .of_open (by rw [hst]; rfl) rfl
  · exact .refl c

/-- A `Bye` is queued on a channel that is connected. -/
theorem Steady.sendBye {st : ChannelState} (hw : c.state.waits = false) (n : Nat) :
    Steady c ({ c with state := st }.sendBye n) :=
  ⟨fun h => absurd (hw.symm.trans h) Bool.false_ne_true, fun _ _ => ⟨_, written_sendFrame .bye n⟩⟩

theorem steady_handleBye (n : Nat) : Steady c (c.handleBye n) := by
  unfold handleBye
  split
  · rename_i hst
    simp only
    split
    · exact .of_open (by rw [hst]; rfl) rfl
    · exact .sendBye (by rw [hst]; rfl) n
  · rename_i hst
    exact .of_open (by rw [hst]; rfl) rfl
  · exact .refl c

theorem steady_graceful (n : Nat) : Steady c (c.initiateGracefulShutdown n) := by
  unfold initiateGracefulShutdown
  split
  · rename_i hst
    exact .sendBye (by rw [hst]; rfl) n
  · exact .refl c

theorem steady_shutdown : Steady c c.shutdown := by
  unfold shutdown
  split
  · rename_i hst
    exact .of_open (by rw [hst]; rfl) rfl
  · exact .refl c

theorem steady_countMessage : Steady c c.countMessage := .of_same rfl rfl

theorem steady_enqueue (hc : c.connected = true) (f : NetFrame α) : Steady c (c.enqueueSerialised f) := by
  unfold connected at hc
  cases hst : c.state with
  | connected addr id =>
    refine .of_open (by rw [hst]; rfl) ?_
    show c.state.isClosing = false
    rw [hst]
    rfl
  | _ => rw [hst] at hc; cases hc

/-- What is queued is handed back, and a `Bye` sent all the same. -/
theorem steady_lost (n : Nat) : Steady c (sendBye { c with outboundQueue := [] } n).shutdown := by
  have hsend : Steady c (sendBye { c with outboundQueue := [] } n) :=
    ⟨fun hw => hw, fun _ _ => ⟨_, written_sendFrame .bye n⟩⟩
  exact hsend.trans steady_shutdown

end TcpChannel

namespace NetworkThread

variable {α : Type} {t t' t'' : NetworkThread α} {a b : SocketAddr} {i j : Nat} {c : TcpChannel α} {env : Env}

def closedReport? : NetworkDispatcherEvent (DispatchData α) → Option (SocketAddr × SessionId)
  | .network (.connectionClosed addr id) => some (addr, id)
  | _ => none

/-- The connections that the thread has reported closed. -/
def closedReports (t : NetworkThread α) : List (SocketAddr × SessionId) := t.toDispatcher.filterMap closedReport?

/-- No channel that waits is closed, no `Bye` is overtaken, and no connection is reported closed. -/
structure Steady (t t' : NetworkThread α) : Prop where
  token : t.token ≤ t'.token
  waits : ∀ i < t.token, (t.channel i).state.waits = true → (t'.channel i).state.waits = true
  bye : ∀ i, (t.channel i).ByeLast → (t'.channel i).ByeLast
  reports : t'.closedReports = t.closedReports

theorem Steady.trans (h : Steady t t') (h' : Steady t' t'') : Steady t t'' where
  token := h.token.trans h'.token
  waits i hi hw := h'.waits i (Nat.lt_of_lt_of_le hi h.token) (h.waits i hi hw)
  bye i hb := h'.bye i (h.bye i hb)
  reports := h'.reports.trans h.reports

/-- Only the maps, the rules and other reports change. -/
theorem Steady.of_channel (ht : t'.token = t.token) (hc : t'.channel = t.channel)
    (hr : t'.closedReports = t.closedReports) : Steady t t' :=
  ⟨by rw [ht], fun i _ hw => by rw [hc]; exact hw, fun i hb => by rw [hc]; exact hb, hr⟩

theorem Steady.refl (t : NetworkThread α) : Steady t t := .of_channel rfl rfl rfl

theorem steady_setChannel (h : (t.channel i).Steady c) : Steady t (t.setChannel i c) := by
  refine ⟨Nat.le_refl _, fun j _ hw => ?_, fun j hb => ?_, rfl⟩
  · rw [channel_setChannel]
    split
    · subst_vars; exact h.waits hw
    · exact hw
  · rw [channel_setChannel]
    split
    · subst_vars; exact h.bye hb
    · exact hb

theorem steady_notify {status : NetworkStatus} (h : closedReport? (α := α) (.network status) = none) :
    Steady t (t.notifyNetworkStatus status) := by
  refine .of_channel rfl rfl ?_
  unfold closedReports notifyNetworkStatus
  rw [List.filterMap_append, List.filterMap_cons_none h, List.filterMap_nil, List.append_nil]

theorem closedReports_rejected {fs : List (NetFrame α)}
    (h : t'.toDispatcher = t.toDispatcher ++ fs.map (fun f => .rejectedData a (.serialised f))) :
    t'.closedReports = t.closedReports := by
  have hz : (fs.map (fun f => NetworkDispatcherEvent.rejectedData a (DispatchData.serialised f))).filterMap
      closedReport? = [] := by
    refine List.filterMap_eq_nil_iff.mpr (fun ev hev => ?_)
    obtain ⟨f, -, rfl⟩ := List.mem_map.mp hev
    rfl
  unfold closedReports
  rw [h, List.filterMap_append, hz, List.append_nil]

theorem steady_rejectDispatchData {data : DispatchData α} : Steady t (t.rejectDispatchData a data) := by
  refine .of_channel rfl rfl ?_
  unfold closedReports rejectDispatchData
  rw [List.filterMap_append]
  exact List.append_nil _

theorem steady_updateLru : Steady t (t.updateLru i) :=
  .of_channel token_updateLru channel_updateLru (by unfold closedReports; rw [toDispatcher_updateLru])

theorem steady_deregister : Steady t (t.deregisterChannel i) := .of_channel rfl rfl rfl

theorem steady_reregister : Steady t (t.reregisterChannelAddress a b) := by
  unfold reregisterChannelAddress
  split
  · exact .of_channel rfl rfl rfl
  · exact .refl t

theorem steady_dropChannel : Steady t (t.dropChannel i) := by
  have hs : Steady t (t.setChannel i (t.channel i).shutdown) := steady_setChannel TcpChannel.steady_shutdown
  exact hs.trans (.of_channel rfl rfl rfl)

theorem steady_lostConnection : Steady t (t.lostConnection i env) := by
  have hbury : ∀ t : NetworkThread α, Steady t (t.bury i env) := by
    intro t
    have hc : (t.rejectOutboundForChannel i).channel i = { t.channel i with outboundQueue := [] } :=
      channel_rejectOutbound.trans (if_pos rfl)
    have hs : Steady t (t.setChannel i (TcpChannel.sendBye { t.channel i with outboundQueue := [] } (env.taken i)).shutdown) :=
      steady_setChannel (TcpChannel.steady_lost _)
    refine hs.trans (.of_channel rfl ?_ (closedReports_rejected rfl))
    show ((t.rejectOutboundForChannel i).setChannel i _).channel = _
    unfold NetworkThread.setChannel
    simp only [hc]
    unfold rejectOutboundForChannel NetworkThread.setChannel
    simp only [Function.update_idem]
  rw [lostConnection_eq]
  split
  · exact (steady_notify rfl).trans (hbury _)
  · exact hbury _

/-! ## Opening and closing -/

theorem steady_storeStream {st : ChannelState} (hst : st.isClosing = false) : Steady t (t.storeStream b st env) := by
  refine ⟨Nat.le_succ _, fun j hj hw => ?_, fun j hb => ?_, rfl⟩
  · rw [channel_storeStream (Nat.ne_of_lt hj)]
    exact hw
  · by_cases hj : j = t.token
    · subst hj
      intro hc
      rw [storeStream_new.2, hst] at hc
      cases hc
    · rw [channel_storeStream hj]
      exact hb

theorem steady_parts : KeptByParts (Steady (α := α)) where
  refl := .refl
  trans h h' := h.trans h'
  notify _ status h := by
    refine steady_notify ?_
    cases status with
    | connectionClosed addr id => exact absurd rfl (h addr id)
    | _ => rfl
  setBlockList _ _ := .of_channel rfl rfl rfl
  dropChannel _ _ := steady_dropChannel
  close _ _ n := (steady_setChannel (TcpChannel.steady_graceful n)).trans steady_updateLru

theorem steady_requestStream : Steady t (t.requestStream b env) :=
  steady_parts.requestStream (fun _ => steady_storeStream rfl)

theorem steady_receiveStream : Steady t (t.receiveStream b env) := steady_parts.receiveStream (steady_storeStream rfl)

/-! ## Frames -/

theorem steady_handleHello : Steady t (t.handleHello i b env) := by
  unfold handleHello
  split
  · exact steady_dropChannel
  · exact steady_reregister.trans (steady_setChannel (TcpChannel.steady_handleHello _ _))

theorem steady_startChannel {id : SessionId} (h : t.startChannel i b id env = some t') : Steady t t' := by
  obtain ⟨t₁, h₁, rfl⟩ := startChannel_eq h
  have hrename : Steady t (t.renameChannel i b ((t.channel i).handleStart b id (env.taken i))) := by
    refine steady_reregister.trans (steady_setChannel ?_)
    rw [channel_reregister]
    exact TcpChannel.steady_handleStart _ _ _
  exact (hrename.trans (steady_parts.checkSoft h₁)).trans (steady_notify rfl)

theorem steady_handleStart {id : SessionId} (h : t.handleStart i b id env = some t') : Steady t t' := by
  rcases handleStart_cases h with ⟨-, rfl⟩ | ⟨-, ⟨-, hs⟩ | ⟨other, t₁, -, -, ht₁, hs⟩⟩
  · exact steady_dropChannel
  · exact steady_startChannel hs
  · have h₁ : Steady t t₁ := ht₁ ▸ steady_setChannel (TcpChannel.steady_readState _)
    rcases hs with ⟨-, rfl⟩ | ⟨-, hs | hs⟩
    · exact h₁.trans steady_dropChannel
    · exact (h₁.trans steady_lostConnection).trans (steady_startChannel hs)
    · exact (h₁.trans steady_dropChannel).trans (steady_startChannel hs)

theorem steady_handleAck (h : t.handleAck i env = some t') : Steady t t' := by
  obtain ⟨t₁, h₁, h⟩ := Option.bind_eq_some_iff.mp h
  obtain ⟨id, -, h⟩ := Option.bind_eq_some_iff.mp h
  obtain rfl := Option.some.inj h
  exact ((steady_setChannel TcpChannel.steady_handleAck).trans (steady_parts.checkSoft h₁)).trans (steady_notify rfl)

theorem steady_handleData (h : t.handleData i = some t') : Steady t t' := by
  obtain ⟨id, -, h⟩ := Option.bind_eq_some_iff.mp h
  obtain rfl := Option.some.inj h
  exact steady_setChannel TcpChannel.steady_countMessage

theorem steady_endRead : Steady t t.endRead := .of_channel rfl rfl rfl

/-! ## Writing, and the events of the dispatcher -/

theorem steady_sendTcpMessage {data : DispatchData α} : Steady t (t.sendTcpMessage b data env) := by
  unfold sendTcpMessage
  split
  · simp only
    split
    · rename_i hc
      split
      · rename_i frame _
        refine (steady_updateLru.trans (steady_setChannel (TcpChannel.steady_enqueue hc frame))).trans ?_
        exact .of_channel rfl rfl rfl
      · exact steady_updateLru
    · exact steady_updateLru.trans steady_rejectDispatchData
  · exact steady_rejectDispatchData

theorem steady_handleDispatchEvent {ev : DispatchEvent (DispatchData α)} : Steady t (t.handleDispatchEvent env ev) :=
  steady_parts.handleDispatchEvent (fun _ _ _ => steady_sendTcpMessage) (fun _ _ => steady_requestStream)

theorem steady_stop : Steady t (t.stop env) := by
  have hall : ∀ (addrs : List SocketAddr) (t : NetworkThread α), Steady t (addrs.foldl (stopChannel env) t) := by
    intro addrs
    induction addrs with
    | nil => exact .refl
    | cons b rest ih =>
      intro t
      refine Steady.trans ?_ (ih _)
      unfold stopChannel
      split
      · exact (steady_setChannel (TcpChannel.steady_graceful _)).trans steady_deregister
      · exact .refl t
  exact (hall env.order t).trans (.of_channel rfl rfl rfl)

/-! ## The steps that complete a graceful close -/

/-- The report names the connection of a channel that is closed: its session, and the peer of the
session or the address of the channel. -/
def Names (report : SocketAddr × SessionId) (c : TcpChannel α) : Prop :=
  ∃ addr, c.state = .closed addr report.2 ∧ (report.1 = addr ∨ report.1 = c.address)

/-- The channel has become `c`, which is closed, and this is reported; what `c` has left in its queue is
handed back. -/
structure Completes (t : NetworkThread α) (i : Nat) (c : TcpChannel α) (t' : NetworkThread α) : Prop where
  reports : ∃ report, Names report c ∧ t'.closedReports = t.closedReports ++ [report]
  channel : t'.channel i = { c with outboundQueue := [] }
  others : ∀ j, j ≠ i → t'.channel j = t.channel j
  history : t'.history = t.history ++ c.outboundQueue.map (.handedBack i)

theorem Completes.closed (h : Completes t i c t') : ∃ addr id, c.state = .closed addr id := by
  obtain ⟨⟨_, id⟩, ⟨addr, hst, -⟩, -⟩ := h.reports
  exact ⟨addr, id, hst⟩

/-- The channel is deregistered, the closing reported, and the rest handed back. -/
theorem completes_of_closed {t₁ : NetworkThread α} {id : SessionId} (hn : Names (a, id) c)
    (hi : t₁.channel i = c) (ho : ∀ j, j ≠ i → t₁.channel j = t.channel j) (hh : t₁.history = t.history)
    (hr : t₁.closedReports = t.closedReports) :
    Completes t i c
      (((t₁.deregisterChannel i).notifyNetworkStatus (.connectionClosed a id)).rejectOutboundForChannel i) := by
  refine ⟨⟨(a, id), hn, ?_⟩, ?_, fun j hj => ?_, ?_⟩
  · rw [closedReports_rejected rfl, ← hr]
    exact List.filterMap_append
  · rw [channel_rejectOutbound, if_pos rfl]
    show { t₁.channel i with outboundQueue := [] } = _
    rw [hi]
  · rw [channel_rejectOutbound, if_neg hj]
    exact ho j hj
  · show t₁.history ++ (t₁.channel i).outboundQueue.map (.handedBack i) = _
    rw [hi, hh]

/-- The channel as `write_tcp` leaves it where draining has succeeded. -/
def drained (t : NetworkThread α) (i : Nat) (env : Env) (addr : SocketAddr) (id : SessionId) : TcpChannel α :=
  { (t.channel i).tryDrain (env.taken i) with state := .closed addr id }

theorem writeTcp_cases (res : DrainResult) : Steady t (t.writeTcp i res env) ∨
    ∃ addr id, res = .ok ∧ (t.channel i).state = .closeReceived addr id ∧
      Completes t i (t.drained i env addr id) (t.writeTcp i res env) := by
  have hd : Steady t ((t.updateLru i).setChannel i ((t.channel i).tryDrain (env.taken i))) := by
    refine steady_updateLru.trans (steady_setChannel ?_)
    rw [channel_updateLru]
    exact TcpChannel.steady_tryDrain _
  unfold writeTcp
  cases res with
  | brokenPipe => exact .inl (hd.trans steady_lostConnection)
  | error => exact .inl hd
  | ok =>
    simp only
    split
    · rename_i addr id hst
      rw [channel_setChannel, if_pos rfl] at hst
      refine .inr ⟨addr, id, trivial, hst, completes_of_closed ⟨addr, rfl, .inr ?_⟩ ?_ (fun j hj => ?_) ?_ ?_⟩
      · show (NetworkThread.channel (setChannel _ i _) i).address = _
        rw [channel_setChannel, if_pos rfl, channel_setChannel, if_pos rfl]
        rfl
      · rw [channel_setChannel, if_pos rfl, channel_setChannel, if_pos rfl]
        rfl
      · rw [channel_setChannel, if_neg hj, channel_setChannel, if_neg hj, channel_updateLru]
      · show (t.updateLru i).history = t.history
        unfold updateLru
        split
        · rfl
        · rfl
      · show (t.updateLru i).toDispatcher.filterMap closedReport? = _
        rw [toDispatcher_updateLru]
        rfl
    · exact .inl hd

theorem handleBye_cases : Steady t (t.handleBye i env) ∨
    Completes t i ((t.channel i).handleBye (env.taken i)) (t.handleBye i env) := by
  have hs : Steady t (t.setChannel i ((t.channel i).handleBye (env.taken i))) :=
    steady_setChannel (TcpChannel.steady_handleBye _)
  have hc : (t.setChannel i ((t.channel i).handleBye (env.taken i))).channel i =
      (t.channel i).handleBye (env.taken i) := channel_setChannel.trans (if_pos rfl)
  unfold handleBye
  simp only
  split
  · rename_i addr id hst
    rw [hc] at hst
    refine .inr (completes_of_closed ⟨addr, hst, .inl rfl⟩ hc (fun j hj => ?_) rfl rfl)
    rw [channel_setChannel, if_neg hj]
  · exact .inl hs
  · exact .inl (hs.trans steady_dropChannel)

/-- What a step does: nothing is completed, or a channel is closed by writing or by the `Bye` of its peer. -/
theorem step_cases {act : Action α} (hs : t.step act = some t') : Steady t t' ∨
    (∃ i env addr id, act = .write i .ok env ∧ (t.channel i).state = .closeReceived addr id ∧
      Completes t i (t.drained i env addr id) t') ∨
    ∃ i env, act = .read .bye env ∧ t.reading = some i ∧
      Completes t i ((t.channel i).handleBye (env.taken i)) t' := by
  cases act with
  | accept addr env =>
    obtain ⟨-, rfl⟩ := step_accept hs
    exact .inl steady_receiveStream
  | write i res env =>
    obtain ⟨-, -, rfl⟩ := step_write hs
    rcases writeTcp_cases (t := t) (i := i) res with h | ⟨addr, id, rfl, hst, h⟩
    · exact .inl h
    · exact .inr (.inl ⟨i, env, addr, id, rfl, hst, h⟩)
  | beginRead i =>
    obtain ⟨-, -, rfl⟩ := step_beginRead hs
    exact .inl (steady_updateLru.trans (.of_channel rfl rfl rfl))
  | read frame env =>
    obtain ⟨i, hi, hs⟩ := Option.bind_eq_some_iff.mp hs
    cases frame with
    | data msg => exact .inl (steady_handleData hs)
    | hello addr =>
      obtain rfl := Option.some.inj hs
      exact .inl steady_handleHello
    | start addr id =>
      obtain ⟨t₁, h₁, rfl⟩ := Option.map_eq_some_iff.mp hs
      exact .inl ((steady_handleStart h₁).trans steady_endRead)
    | ack => exact .inl (steady_handleAck hs)
    | bye =>
      obtain rfl := Option.some.inj hs
      rcases handleBye_cases (t := t) (i := i) with h | h
      · exact .inl (h.trans steady_endRead)
      · exact .inr (.inr ⟨i, env, rfl, hi, h.reports, h.channel, h.others, h.history⟩)
  | endRead =>
    obtain ⟨i, -, rfl⟩ := Option.map_eq_some_iff.mp hs
    exact .inl steady_endRead
  | resetRead env =>
    obtain ⟨i, -, rfl⟩ := Option.map_eq_some_iff.mp hs
    exact .inl (steady_lostConnection.trans steady_endRead)
  | noBuffers env =>
    obtain ⟨i, -, rfl⟩ := Option.map_eq_some_iff.mp hs
    split
    · exact .inl steady_endRead
    · exact .inl ((steady_updateLru.trans steady_lostConnection).trans steady_endRead)

/-! ## What is asked -/

/-- All that was queued on the channel has been written, the `Bye` last, and nothing is handed back. -/
structure ByeWritten (t : NetworkThread α) (i : Nat) (t' : NetworkThread α) : Prop where
  bye : ∃ frames, (t'.channel i).written = frames ++ [.bye]
  all : (t.channel i).written ++ (t.channel i).outboundQueue <+: (t'.channel i).written
  empty : (t'.channel i).outboundQueue = []
  history : t'.history = t.history

/-- The `Bye` of the channel is not still queued, and the loop has not dropped the channel before. -/
def byeReady (t : NetworkThread α) (i : Nat) : Bool :=
  match (t.channel i).state with
  | .closeRequested _ _ => (t.channel i).outboundQueue.isEmpty
  | .closed _ _ => false
  | _ => true

/-- Where the stream has taken what it likes of the queue of a channel that waits
for its own `Bye` to be written, it has taken all. -/
def drainsAll (t : NetworkThread α) (i : Nat) (env : Env) : Bool :=
  match (t.channel i).state with
  | .closeReceived _ _ => (t.channel i).outboundQueue.length ≤ env.taken i
  | _ => true

/-- A write that may complete a close drains the queue, and the peer says goodbye to a channel that is ready for it. -/
def Sent (t : NetworkThread α) : Action α → Prop
  | .write i .ok env => t.drainsAll i env = true
  | .read .bye _ => ∀ i ∈ t.reading, t.byeReady i = true
  | _ => True

/-- All that is left after the completing step has been written. -/
theorem Completes.byeWritten (h : Completes t i c t') (hq : c.outboundQueue = [])
    (hb : ∃ frames, c.written = frames ++ [.bye])
    (ha : (t.channel i).written ++ (t.channel i).outboundQueue <+: c.written) : ByeWritten t i t' := by
  have hc := h.channel
  refine ⟨?_, ?_, by rw [hc], ?_⟩
  · rw [hc]
    exact hb
  · rw [hc]
    exact ha
  · rw [h.history, hq, List.map_nil, List.append_nil]

theorem byeWritten_write {addr : SocketAddr} {id : SessionId} (hb : (t.channel i).ByeLast)
    (hst : (t.channel i).state = .closeReceived addr id) (ho : t.drainsAll i env = true)
    (h : Completes t i (t.drained i env addr id) t') : ByeWritten t i t' := by
  have hn : (t.channel i).outboundQueue.length ≤ env.taken i := by
    unfold drainsAll at ho
    rw [hst] at ho
    exact of_decide_eq_true ho
  have hw : (t.drained i env addr id).written = (t.channel i).written ++ (t.channel i).outboundQueue := by
    show (t.channel i).written ++ (t.channel i).outboundQueue.take _ = _
    rw [List.take_of_length_le hn]
  refine h.byeWritten (List.drop_of_length_le hn) ?_ (by rw [hw])
  rw [hw]
  exact hb (by rw [hst]; rfl)

theorem byeWritten_bye (hb : (t.channel i).ByeLast) (ho : t.byeReady i = true)
    (h : Completes t i ((t.channel i).handleBye (env.taken i)) t') : ByeWritten t i t' := by
  obtain ⟨addr, id, hcl⟩ := h.closed
  unfold byeReady at ho
  cases hst : (t.channel i).state with
  | connected addr' id' =>
    -- the `Bye` is sent now, and the channel closed because nothing is left
    have hw := TcpChannel.written_sendFrame (c := { t.channel i with state := .closeReceived addr' id' })
      .bye (env.taken i)
    have hq : ((t.channel i).handleBye (env.taken i)).outboundQueue = [] ∧
        ((t.channel i).handleBye (env.taken i)).written =
          (t.channel i).written ++ (t.channel i).outboundQueue ++ [.bye] := by
      simp only [TcpChannel.handleBye, hst] at hcl ⊢
      split at hcl
      · rename_i hempty
        rw [if_pos hempty]
        have hnil := List.isEmpty_iff.mp hempty
        refine ⟨hnil, ?_⟩
        rw [show TcpChannel.sendFrame _ _ _ = TcpChannel.sendBye _ _ from rfl, hnil, List.append_nil] at hw
        exact hw
      · cases hcl
    exact h.byeWritten hq.1 ⟨_, hq.2⟩ (hq.2 ▸ List.prefix_append _ _)
  | closeRequested addr' id' =>
    rw [hst] at ho
    replace ho := List.isEmpty_iff.mp ho
    have hc : (t.channel i).handleBye (env.taken i) = { t.channel i with state := .closed addr' id' } := by
      simp only [TcpChannel.handleBye, hst]
    obtain ⟨frames, hf⟩ := hb (by rw [hst]; rfl)
    rw [ho, List.append_nil] at hf
    rw [hc] at h
    refine h.byeWritten ho ⟨frames, hf⟩ ?_
    rw [ho, List.append_nil]
  | closed addr' id' =>
    rw [hst] at ho
    cases ho
  | _ =>
    unfold TcpChannel.handleBye at hcl
    rw [hst] at hcl
    simp only [hst] at hcl
    cases hcl

theorem byeLast_step {act : Action α} (hb : ∀ i, (t.channel i).ByeLast) (hs : t.step act = some t') (i : Nat) :
    (t'.channel i).ByeLast := by
  have hcompleted : ∀ {j : Nat} {c : TcpChannel α}, Completes t j c t' → (t'.channel i).ByeLast := by
    intro j c h
    by_cases hi : i = j
    · subst hi
      obtain ⟨addr, id, hcl⟩ := h.closed
      intro hclosing
      rw [h.channel] at hclosing
      change c.state.isClosing = true at hclosing
      rw [hcl] at hclosing
      cases hclosing
    · rw [h.others i hi]
      exact hb i
  rcases step_cases hs with h | ⟨j, env, addr, id, -, -, h⟩ | ⟨j, env, -, -, h⟩
  · exact h.bye i (hb i)
  · exact hcompleted h
  · exact hcompleted h

/-- What closes in a step has sent its `Bye`, and a connection that is reported closed is that of a
channel which has. -/
structure ClosesAfterBye (t : NetworkThread α) (t' : NetworkThread α) : Prop where
  closes : ∀ i < t.token, ∀ addr id, (t.channel i).state = .closeReceived addr id →
    ∀ addr' id', (t'.channel i).state = .closed addr' id' → ByeWritten t i t'
  reports : ∃ reports, t'.closedReports = t.closedReports ++ reports ∧
    ∀ report ∈ reports, ∃ i, Names report (t'.channel i) ∧ ByeWritten t i t'

theorem Steady.closesAfterBye (h : Steady t t') : ClosesAfterBye t t' where
  closes i hi addr id hst addr' id' hst' := by
    have hw := h.waits i hi (by rw [hst]; rfl)
    rw [hst'] at hw
    cases hw
  reports := ⟨[], by rw [h.reports, List.append_nil], fun _ hr => by cases hr⟩

theorem Completes.closesAfterBye (h : Completes t i c t') (hb : ByeWritten t i t') : ClosesAfterBye t t' where
  closes j _ addr id hst addr' id' hst' := by
    by_cases hj : j = i
    · subst hj
      exact hb
    · rw [h.others j hj, hst] at hst'
      cases hst'
  reports := by
    obtain ⟨report, hn, hr⟩ := h.reports
    refine ⟨[report], hr, fun report' hm => ⟨i, ?_, hb⟩⟩
    rw [List.mem_singleton.mp hm, h.channel]
    exact hn

theorem closesAfterBye_step {act : Action α} (hb : ∀ i, (t.channel i).ByeLast) (ho : t.Sent act)
    (hs : t.step act = some t') : ClosesAfterBye t t' := by
  rcases step_cases hs with h | ⟨i, env, addr, id, rfl, hst, h⟩ | ⟨i, env, rfl, hi, h⟩
  · exact h.closesAfterBye
  · exact h.closesAfterBye (byeWritten_write (hb i) hst ho h)
  · exact h.closesAfterBye (byeWritten_bye (hb i) (ho i hi) h)

instance (t : NetworkThread α) : (act : Action α) → Decidable (t.Sent act)
  | .write i .ok env => inferInstanceAs (Decidable (t.drainsAll i env = true))
  | .read .bye _ => inferInstanceAs (Decidable (∀ i ∈ t.reading, t.byeReady i = true))
  | .write _ .brokenPipe _ | .write _ .error _ | .read (.data _) _ | .read (.hello _) _ | .read (.start _ _) _
  | .read .ack _ | .accept _ _ | .beginRead _ | .endRead | .resetRead _ | .noBuffers _ => inferInstanceAs (Decidable True)

end NetworkThread

/-! ## Whole runs -/

namespace RunLoop

open NetworkThread

variable {α : Type} {r r' : RunLoop α} {addr : SocketAddr} {soft hard : Nat}

/-- Nothing that completes a graceful close leaves frames unwritten. -/
def Sent (r : RunLoop α) : Action α → Prop
  | .network act => r.thread.Sent act
  | _ => True

instance (r : RunLoop α) : (act : Action α) → Decidable (r.Sent act)
  | .network act => inferInstanceAs (Decidable (r.thread.Sent act))
  | .dispatch _ _ | .stop _ | .kill => inferInstanceAs (Decidable True)

/-- Only the network completes a graceful close. -/
theorem steady_or_network {act : Action α} (hs : r.step act = some r') :
    r.thread.Steady r'.thread ∨ ∃ nact, act = .network nact ∧ r.thread.step nact = some r'.thread := by
  rcases step_cases hs with ⟨ev, env, -, -, -, ht⟩ | ⟨env, -, -, -, ht⟩ | ⟨-, -, ht⟩ | ht
  · rw [ht]
    exact .inl steady_handleDispatchEvent
  · rw [ht]
    exact .inl steady_stop
  · rw [ht]
    exact .inl (.of_channel rfl rfl rfl)
  · exact .inr ht

/-- In every run, the last frame of a channel that is closing is its `Bye`. -/
theorem byeLast_of_reach {ok : RunLoop α → Action α → Prop} (h : Reach step ok (new addr soft hard) r) (i : Nat) :
    (r.thread.channel i).ByeLast := by
  refine Reach.invariant (fun r => ∀ i, (r.thread.channel i).ByeLast) (fun i hc => by cases hc) ?_ h i
  intro r r' act hb _ hs i
  rcases steady_or_network hs with h | ⟨nact, -, h⟩
  · exact h.bye i (hb i)
  · exact byeLast_step hb h i

/-- In every run in which nothing that completes a graceful close leaves frames
unwritten, a channel is closed, and its connection reported closed, after its `Bye`
and all that was queued before have been written: every byte, whatever the stream
has answered. -/
theorem closes_after_bye {act : Action α} (h : Reach step Sent (new addr soft hard) r) (ho : r.Sent act)
    (hs : r.step act = some r') :
    r.thread.ClosesAfterBye r'.thread ∧
      ∀ enc : NetFrame α → List UInt8, (∀ f, enc f ≠ []) → Outbound.Refines enc := by
  refine ⟨?_, fun enc henc => Outbound.refines henc⟩
  rcases steady_or_network hs with h' | ⟨nact, rfl, h'⟩
  · exact h'.closesAfterBye
  · exact closesAfterBye_step (byeLast_of_reach h) ho h'

/-- The peer closes the connection while a frame is queued, and the stream is slow. -/
def slowlyClosed : List (Action Nat) :=
  [.dispatch (.connect (Dispatcher.localhost 80)) { id := ⟨7⟩ }, .network (.beginRead 0),
    .network (.read (.hello (Dispatcher.localhost 80)) { taken := fun _ => 9 }), .network (.read .ack {}),
    .network .endRead, .dispatch (.sendTcp (Dispatcher.localhost 80) (.serialised (.data 5))) {},
    .network (.beginRead 0), .network (.read .bye {}), .network (.write 0 .error {})]

/-- In the end the stream takes all. -/
theorem closes_after_bye_slowly :
    ∃ r r' : RunLoop Nat, Reach step Sent (new (Dispatcher.localhost 1) 100 100) r ∧
      (r.thread.channel 0).state = .closeReceived (Dispatcher.localhost 80) ⟨7⟩ ∧
      (r.thread.channel 0).outboundQueue = [.data 5, .bye] ∧
      r.step (.network (.write 0 .ok { taken := fun _ => 2 })) = some r' ∧
      (r'.thread.channel 0).state = .closed (Dispatcher.localhost 80) ⟨7⟩ ∧ r.thread.ClosesAfterBye r'.thread := by
  have hrun : ∃ r r' : RunLoop Nat, Reach step Sent (new (Dispatcher.localhost 1) 100 100) r ∧
      (r.thread.channel 0).state = .closeReceived (Dispatcher.localhost 80) ⟨7⟩ ∧
      (r.thread.channel 0).outboundQueue = [.data 5, .bye] ∧
      r.Sent (.network (.write 0 .ok { taken := fun _ => 2 })) ∧
      r.step (.network (.write 0 .ok { taken := fun _ => 2 })) = some r' ∧
      (r'.thread.channel 0).state = .closed (Dispatcher.localhost 80) ⟨7⟩ :=
    ⟨_, _, Reach.of_run slowlyClosed (by decide) (by decide), by decide, by decide, by decide, rfl, by decide⟩
  obtain ⟨r, r', h, hst, hq, ho, hs, hst'⟩ := hrun
  exact ⟨r, r', h, hst, hq, hs, hst', (closes_after_bye h ho hs).1⟩

/-- The stream would block, and the channel is closed and reported closed all the same: the
`Bye` and the frame before it are handed back. -/
theorem not_closes_after_bye_blocked :
    ∃ r r' : RunLoop Nat, Reach step (fun _ _ => True) (new (Dispatcher.localhost 1) 100 100) r ∧
      r.step (.network (.write 0 .ok {})) = some r' ∧
      (r.thread.channel 0).state = .closeReceived (Dispatcher.localhost 80) ⟨7⟩ ∧
      (r'.thread.channel 0).state = .closed (Dispatcher.localhost 80) ⟨7⟩ ∧
      r'.thread.closedReports = r.thread.closedReports ++ [(Dispatcher.localhost 80, ⟨7⟩)] ∧
      .bye ∉ (r'.thread.channel 0).written ∧ .data 5 ∉ (r'.thread.channel 0).written ∧
      ¬ r.thread.ClosesAfterBye r'.thread := by
  have hrun : ∃ r r' : RunLoop Nat, Reach step (fun _ _ => True) (new (Dispatcher.localhost 1) 100 100) r ∧
      r.step (.network (.write 0 .ok {})) = some r' ∧ 0 < r.thread.token ∧
      (r.thread.channel 0).state = .closeReceived (Dispatcher.localhost 80) ⟨7⟩ ∧
      (r'.thread.channel 0).state = .closed (Dispatcher.localhost 80) ⟨7⟩ ∧
      r'.thread.closedReports = r.thread.closedReports ++ [(Dispatcher.localhost 80, ⟨7⟩)] ∧
      .bye ∉ (r'.thread.channel 0).written ∧ .data 5 ∉ (r'.thread.channel 0).written :=
    ⟨_, _, Reach.of_run slowlyClosed (by decide) (runMeets_true _ _), rfl, by decide, by decide, by decide, by decide,
      by decide, by decide⟩
  obtain ⟨r, r', h, hs, ht, hst, hst', hr, hbye, hdata⟩ := hrun
  refine ⟨r, r', h, hs, hst, hst', hr, hbye, hdata, fun hc => ?_⟩
  obtain ⟨frames, hf⟩ := (hc.closes 0 ht _ _ hst _ _ hst').bye
  exact hbye (hf ▸ List.mem_append_right frames (List.mem_singleton_self _))

end RunLoop

end Kompact
