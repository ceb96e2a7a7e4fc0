import Kompact.Network.Registry
import Kompact.Network.System

/-!
# Sessions and what is reported of them

The dispatcher holds an address connected where the thread has a session with
it. The two are kept in step by the status events of the thread alone, so that
the invariant is about the dispatcher's view, the entry with the events on
their way applied to it: `Agrees` relates it to the slot of the address.

`Moves` says of a part of a step that it leaves the slot and the view of an
address in agreement, `Keeps` that it does so for every address and leaves the
maps tidy. `Tidy.keeps_handleDispatchEvent` and `Tidy.keeps_step` are about
the steps of the thread; those that fail are excluded by `DispatchOk` and
`ActionOk`.
-/

namespace Kompact

/-- The polled channel of an address and the dispatcher's view of it. -/
structure Agrees (slot : Option ChannelState) (conn : Option ConnectionState) : Prop where
  connected : ∀ addr id, slot = some (.connected addr id) → conn = some (.connected id)
  held : ∀ id, conn = some (.connected id) → ∃ st, slot = some st ∧ st.isLive = true ∧ st.sessionId = some id

/-- No session, before and after. -/
theorem Agrees.idle {slot slot' : Option ChannelState} {conn : Option ConnectionState} (h : Agrees slot conn)
    (hs : slot.any ChannelState.isLive = false) (hs' : slot'.any ChannelState.isLive = false) : Agrees slot' conn := by
  refine ⟨fun addr id hc => ?_, fun id hc => ?_⟩
  · subst hc
    exact absurd hs'.symm Bool.false_ne_true
  · obtain ⟨st, rfl, hl, -⟩ := h.held id hc
    exact absurd (hl.symm.trans hs).symm Bool.false_ne_true

/-- There is no session, and none is expected. -/
theorem agrees_none {conn : Option ConnectionState} (h : ∀ id, conn ≠ some (.connected id)) : Agrees none conn :=
  ⟨(fun _ _ hc => by cases hc), fun id hc => absurd hc (h id)⟩

/-- The session goes on, though the channel may be closing now. -/
theorem Agrees.closing {st st' : ChannelState} {conn : Option ConnectionState} (h : Agrees (some st) conn)
    (hl : st.isLive = true → st'.isLive = true) (hid : st'.sessionId = st.sessionId)
    (hc : ∀ addr id, st' ≠ .connected addr id) : Agrees (some st') conn := by
  refine ⟨fun addr id he => absurd (Option.some.inj he) (hc addr id), fun id he => ?_⟩
  obtain ⟨st₀, h₀, hl₀, hid₀⟩ := h.held id he
  obtain rfl := Option.some.inj h₀
  exact ⟨st', rfl, hl hl₀, hid.trans hid₀⟩

namespace NetworkThread

variable {α : Type} {t t' t'' : NetworkThread α} {a b : SocketAddr} {i j : Nat} {c : TcpChannel α} {env : Env}

/-! ## Slots and views -/

/-- The thread has sent these events. -/
def Emits (t t' : NetworkThread α) (evs : List (NetworkDispatcherEvent (DispatchData α))) : Prop :=
  t'.toDispatcher = t.toDispatcher ++ evs ∧ ∀ ev ∈ evs, ev ≠ .network .criticalNetworkFailure

variable {evs evs' : List (NetworkDispatcherEvent (DispatchData α))}

theorem Emits.trans (h : Emits t t' evs) (h' : Emits t' t'' evs') : Emits t t'' (evs ++ evs') := by
  refine ⟨by rw [h'.1, h.1, List.append_assoc], fun ev hev => ?_⟩
  rcases List.mem_append.mp hev with hev | hev
  · exact h.2 ev hev
  · exact h'.2 ev hev

theorem emits_nil (h : t'.toDispatcher = t.toDispatcher) : Emits t t' [] :=
  ⟨by rw [h, List.append_nil], (fun _ hev => by cases hev)⟩

theorem emits_network {status : NetworkStatus} (h : t'.toDispatcher = t.toDispatcher ++ [.network status])
    (hn : status ≠ .criticalNetworkFailure) : Emits t t' [.network status] := by
  refine ⟨h, fun ev hev he => ?_⟩
  rw [List.mem_singleton.mp hev] at he
  exact hn (NetworkDispatcherEvent.network.inj he)

/-- The slot and the view of the address stay in agreement. -/
def Moves (a : SocketAddr) (t t' : NetworkThread α) : Prop :=
  ∃ evs, Emits t t' evs ∧ ∀ conn, Agrees (t.slot a) conn → Agrees (t'.slot a) (evs.foldl (viewAfter a) conn)

theorem Moves.trans (h : Moves a t t') (h' : Moves a t' t'') : Moves a t t'' := by
  obtain ⟨evs, he, hv⟩ := h
  obtain ⟨evs', he', hv'⟩ := h'
  refine ⟨evs ++ evs', he.trans he', fun conn hc => ?_⟩
  rw [List.foldl_append]
  exact hv' _ (hv conn hc)

theorem Moves.quiet (hd : t'.toDispatcher = t.toDispatcher)
    (hv : ∀ conn, Agrees (t.slot a) conn → Agrees (t'.slot a) conn) : Moves a t t' :=
  ⟨[], emits_nil hd, hv⟩

theorem Moves.of_slot_eq (hd : t'.toDispatcher = t.toDispatcher) (hs : t'.slot a = t.slot a) : Moves a t t' :=
  .quiet hd (fun conn h => by rw [hs]; exact h)

/-- One status is reported. -/
theorem Moves.notify {status : NetworkStatus} (hd : t'.toDispatcher = t.toDispatcher ++ [.network status])
    (hn : status ≠ .criticalNetworkFailure)
    (hv : ∀ conn, Agrees (t.slot a) conn → Agrees (t'.slot a) (viewAfter (α := α) a conn (.network status))) :
    Moves a t t' :=
  ⟨[.network status], emits_network hd hn, hv⟩

/-- The maps stay tidy, and every slot in agreement with its view. -/
structure Keeps (t t' : NetworkThread α) : Prop where
  tidy : t'.Tidy
  moves : ∀ a, Moves a t t'

theorem Keeps.trans (h : Keeps t t') (h' : Keeps t' t'') : Keeps t t'' :=
  ⟨h'.tidy, fun a => (h.moves a).trans (h'.moves a)⟩

theorem Tidy.keeps_self (h : t.Tidy) : Keeps t t := ⟨h, fun _ => .of_slot_eq rfl rfl⟩

/-- The part of the thread that slots depend on has not changed. -/
theorem Tidy.keeps_congr (h : t.Tidy) (hl : t'.addressMap = t.addressMap) (hm : ∀ i, i ∈ t'.tokenMap ↔ i ∈ t.tokenMap)
    (hc : ∀ i, (t'.channel i).address = (t.channel i).address ∧ (t'.channel i).state = (t.channel i).state)
    (ht : t'.token = t.token) (hd : t'.toDispatcher = t.toDispatcher) : Keeps t t' := by
  refine ⟨h.congr (fun a => by rw [hl]) hm hc ht, fun a => ?_⟩
  exact .of_slot_eq hd (slot_congr (by rw [hl]) (fun i _ => ⟨hm i, (hc i).2⟩))

/-- A status that says nothing about a single connection. -/
def general : NetworkStatus → Bool
  | .connectionDropped _ => true
  | .blockedIp _ => true
  | .blockedIpNet _ => true
  | .allowedIp _ => true
  | .allowedIpNet _ => true
  | .softConnectionLimitExceeded => true
  | .hardConnectionLimitReached => true
  | _ => false

theorem Tidy.notify {status : NetworkStatus} (h : t.Tidy) : (t.notifyNetworkStatus status).Tidy :=
  ⟨h.key, h.polled, h.fits, h.alive, h.fresh⟩

theorem Tidy.keeps_notify {status : NetworkStatus} (h : t.Tidy) (hg : general status = true) :
    Keeps t (t.notifyNetworkStatus status) := by
  refine ⟨h.notify, fun a => .notify rfl (fun he => ?_) (fun conn hc => ?_)⟩
  · rw [he] at hg
    cases hg
  · cases status with
    | connectionEstablished _ _ => cases hg
    | connectionLost _ _ => cases hg
    | connectionClosed _ _ => cases hg
    | blockedSystem _ => cases hg
    | allowedSystem _ => cases hg
    | _ => exact hc

theorem Tidy.keeps_updateLru (h : t.Tidy) : Keeps t (t.updateLru i) :=
  h.keeps_congr addressMap_updateLru (fun _ => mem_updateLru) (fun _ => by rw [channel_updateLru]; exact ⟨rfl, rfl⟩)
    token_updateLru toDispatcher_updateLru

/-- A channel changes, but neither its address nor its state. -/
theorem Tidy.keeps_setChannel (h : t.Tidy) (ha : c.address = (t.channel i).address) (hs : c.state = (t.channel i).state) :
    Keeps t (t.setChannel i c) := by
  refine h.keeps_congr rfl (fun _ => Iff.rfl) (fun j => ?_) rfl rfl
  rw [channel_setChannel]
  split
  · subst_vars; exact ⟨ha, hs⟩
  · exact ⟨rfl, rfl⟩

/-- A channel without a session is dropped. -/
theorem Tidy.keeps_dropChannel (h : t.Tidy) (hi : t.addressMap.lookup (t.channel i).address = some i)
    (hs : (t.slot (t.channel i).address).any ChannelState.isLive = false) : Keeps t (t.dropChannel i) := by
  rw [dropChannel_eq]
  refine ⟨h.discard hi address_shutdown not_connected_shutdown, fun a => .quiet rfl (fun conn hc => ?_)⟩
  rw [h.mapped.slot_discard]
  split
  · subst_vars; exact hc.idle hs rfl
  · exact hc

theorem emits_rejected (addr : SocketAddr) (fs : List (NetFrame α))
    (h : t'.toDispatcher = t.toDispatcher ++ fs.map (fun f => .rejectedData addr (.serialised f))) :
    Emits t t' (fs.map fun f => .rejectedData addr (.serialised f)) := by
  refine ⟨h, fun ev hev he => ?_⟩
  obtain ⟨f, -, rfl⟩ := List.mem_map.mp hev
  cases he

theorem view_rejected (addr : SocketAddr) (fs : List (NetFrame α)) (conn : Option ConnectionState) :
    (fs.map fun f => NetworkDispatcherEvent.rejectedData addr (.serialised f)).foldl (viewAfter a) conn = conn := by
  induction fs generalizing conn with
  | nil => rfl
  | cons f fs ih => exact ih conn

theorem channel_rejectOutbound : (t.rejectOutboundForChannel i).channel j =
    if j = i then { t.channel i with outboundQueue := [] } else t.channel j := channel_setChannel

theorem same_rejectOutbound : ((t.rejectOutboundForChannel i).channel j).address = (t.channel j).address ∧
    ((t.rejectOutboundForChannel i).channel j).state = (t.channel j).state := by
  rw [channel_rejectOutbound]
  split
  · subst_vars; exact ⟨rfl, rfl⟩
  · exact ⟨rfl, rfl⟩

theorem slot_rejectOutbound : (t.rejectOutboundForChannel i).slot a = t.slot a :=
  slot_congr rfl (fun _ _ => ⟨Iff.rfl, same_rejectOutbound.2⟩)

theorem Tidy.rejectOutbound (h : t.Tidy) : (t.rejectOutboundForChannel i).Tidy :=
  h.congr (fun _ => rfl) (fun _ => Iff.rfl) (fun _ => same_rejectOutbound) rfl

/-- The end of a session is reported, and what was queued is handed back. -/
theorem Moves.ends {addr back : SocketAddr} {id : SessionId} {status : NetworkStatus} {fs : List (NetFrame α)}
    (hst : status = .connectionLost addr id ∨ status = .connectionClosed addr id)
    (hs : t'.slot a = if a = addr then none else t.slot a)
    (hd : t'.toDispatcher =
      t.toDispatcher ++ .network status :: fs.map (fun f => .rejectedData back (.serialised f))) :
    Moves a t t' := by
  have hn : status ≠ .criticalNetworkFailure := by
    rcases hst with rfl | rfl
    · exact NetworkStatus.noConfusion
    · exact NetworkStatus.noConfusion
  refine ⟨_, ⟨hd, fun ev hev he => ?_⟩, fun conn hc => ?_⟩
  · rcases List.mem_cons.mp hev with rfl | hev
    · exact hn (NetworkDispatcherEvent.network.inj he)
    · obtain ⟨f, -, rfl⟩ := List.mem_map.mp hev
      cases he
  · rw [List.foldl_cons, view_rejected, hs]
    by_cases ha : a = addr
    · rw [if_pos ha]
      refine agrees_none (fun id' he => ?_)
      rcases hst with rfl | rfl
      · rw [viewAfter, if_pos ha] at he; cases he
      · rw [viewAfter, if_pos ha] at he; cases he
    · rw [if_neg ha]
      rcases hst with rfl | rfl
      · rw [viewAfter, if_neg ha]; exact hc
      · rw [viewAfter, if_neg ha]; exact hc

/-- A channel without a session, polled or not, has no live slot. -/
theorem not_live_of_no_session (hi : ∀ j, t.addressMap.lookup a = some j → (t.channel j).sessionId = none) :
    (t.slot a).any ChannelState.isLive = false := by
  rcases hl : t.addressMap.lookup a with _ | j
  · rw [slot_of_none hl]; rfl
  · have hs := hi j hl
    rw [slot_of_lookup hl]
    split
    · unfold TcpChannel.sessionId at hs
      cases hst : (t.channel j).state with
      | initialising => rfl
      | error => rfl
      | _ => rw [hst] at hs; cases hs
    · rfl

/-- The last steps of `lost_connection`, after the loss has been reported. -/
def bury (t : NetworkThread α) (i : Nat) (env : Env) : NetworkThread α :=
  let t := t.rejectOutboundForChannel i
  t.retire i ((t.channel i).sendBye (env.taken i)).shutdown

theorem lostConnection_eq : t.lostConnection i env =
    match (t.channel i).sessionId with
    | some id => (t.notifyNetworkStatus (.connectionLost (t.channel i).address id)).bury i env
    | none => t.bury i env := by
  unfold lostConnection
  cases (t.channel i).sessionId with
  | some id => rfl
  | none => rfl

theorem Tidy.bury (h : t.Tidy) : (t.bury i env).Tidy :=
  h.rejectOutbound.retire address_shutdown not_connected_shutdown

theorem Tidy.slot_bury (h : t.Tidy) (hi : ∀ j, t.addressMap.lookup (t.channel i).address = some j → j = i) :
    (t.bury i env).slot a = if a = (t.channel i).address then none else t.slot a := by
  have hi' : ∀ j, t.addressMap.lookup ((t.rejectOutboundForChannel i).channel i).address = some j → j = i := by
    rw [same_rejectOutbound.1]
    exact hi
  unfold NetworkThread.bury
  rw [h.rejectOutbound.mapped.slot_retire hi', same_rejectOutbound.1, slot_rejectOutbound]

theorem Tidy.keeps_lostConnection (h : t.Tidy)
    (hi : ∀ j, t.addressMap.lookup (t.channel i).address = some j → j = i) : Keeps t (t.lostConnection i env) := by
  rw [lostConnection_eq]
  split
  · rename_i id hid
    have hd : ((t.notifyNetworkStatus (.connectionLost (t.channel i).address id)).bury i env).toDispatcher =
        t.toDispatcher ++ .network (.connectionLost (t.channel i).address id) ::
          (t.channel i).outboundQueue.map (fun f => .rejectedData (t.channel i).address (.serialised f)) :=
      List.append_assoc _ [_] _
    exact ⟨h.notify.bury, fun a => .ends (.inl rfl) (h.notify.slot_bury hi) hd⟩
  · rename_i hid
    refine ⟨h.bury, fun a => ⟨_, emits_rejected _ _ rfl, fun conn hc => ?_⟩⟩
    rw [view_rejected, h.slot_bury hi]
    split
    · subst_vars
      refine hc.idle (not_live_of_no_session (fun j hj => ?_)) rfl
      rw [hi j hj]
      exact hid
    · exact hc

theorem bury_others (hne : j ≠ i) :
    (j ∈ (t.bury i env).tokenMap ↔ j ∈ t.tokenMap) ∧ (t.bury i env).channel j = t.channel j := by
  unfold bury
  rw [channel_retire, if_neg hne, channel_rejectOutbound, if_neg hne]
  exact ⟨mem_retire.trans ⟨And.left, fun hm => ⟨hm, hne⟩⟩, rfl⟩

theorem lostConnection_others (hne : j ≠ i) :
    (j ∈ (t.lostConnection i env).tokenMap ↔ j ∈ t.tokenMap) ∧ (t.lostConnection i env).channel j = t.channel j := by
  rw [lostConnection_eq]
  split
  · exact bury_others hne
  · exact bury_others hne

theorem Tidy.slot_lostConnection (h : t.Tidy)
    (hi : ∀ j, t.addressMap.lookup (t.channel i).address = some j → j = i) :
    (t.lostConnection i env).slot a = if a = (t.channel i).address then none else t.slot a := by
  rw [lostConnection_eq]
  split
  · exact h.notify.slot_bury hi
  · exact h.slot_bury hi

/-! ## Opening and closing -/

theorem initialise_spec (own : SocketAddr) (n : Nat) :
    (c.initialise own n).address = c.address ∧ (c.initialise own n).state = c.state := by
  unfold TcpChannel.initialise
  split
  · exact ⟨rfl, rfl⟩
  · exact ⟨rfl, rfl⟩

section

variable {st : ChannelState}

theorem mem_storeStream : j ∈ (t.storeStream b st env).tokenMap ↔ j = t.token ∨ j ∈ t.tokenMap := List.mem_cons

theorem storeStream_new : ((t.storeStream b st env).channel t.token).address = b ∧
    ((t.storeStream b st env).channel t.token).state = st := by
  have hc : (t.storeStream b st env).channel t.token =
      (TcpChannel.new t.addr b st).initialise t.addr (env.taken t.token) := channel_setChannel.trans (if_pos rfl)
  rw [hc]
  exact initialise_spec t.addr (env.taken t.token)

/-- A new channel is stored where no polled channel is registered. -/
theorem Mapped.storeStream (h : t.Mapped) (hs : t.slot b = none) : (t.storeStream b st env).Mapped := by
  have hne : ∀ j ∈ t.tokenMap, (t.channel j).address ≠ b := by
    rintro j hj rfl
    rw [h.slot_polled hj] at hs
    cases hs
  refine ⟨fun a j hj => ?_, fun j hj => ?_, fun a j hj => ?_⟩
  · rw [lookup_storeStream] at hj
    split at hj
    · obtain rfl := Option.some.inj hj
      subst_vars
      exact storeStream_new.1
    · rw [channel_storeStream (Nat.ne_of_lt (h.fresh a j hj))]
      exact h.key a j hj
  · rcases mem_storeStream.mp hj with rfl | hj
    · rw [lookup_storeStream, if_pos storeStream_new.1]
    · rw [channel_storeStream (Nat.ne_of_lt (h.lt_token hj)), lookup_storeStream, if_neg (hne j hj)]
      exact h.polled j hj
  · rw [lookup_storeStream] at hj
    split at hj
    · obtain rfl := Option.some.inj hj
      exact Nat.lt_succ_self _
    · exact Nat.lt_succ_of_lt (h.fresh a j hj)

theorem Tidy.keeps_storeStream (h : t.Tidy) (hs : t.slot b = none) (hf : st.Fits b)
    (hl : st.isLive = false) : Keeps t (t.storeStream b st env) := by
  obtain ⟨ha, hst⟩ : ((t.storeStream b st env).channel t.token).address = b ∧
      ((t.storeStream b st env).channel t.token).state = st := storeStream_new
  have hmap : (t.storeStream b st env).Mapped := h.mapped.storeStream hs
  refine ⟨⟨hmap.key, hmap.polled, fun j hj => ?_, fun a j hj hc => ?_, hmap.fresh⟩, fun a => ?_⟩
  · rcases mem_storeStream.mp hj with rfl | hj
    · rw [ha, hst]
      exact hf
    · rw [channel_storeStream (Nat.ne_of_lt (h.mapped.lt_token hj))]
      exact h.fits j hj
  · rw [lookup_storeStream] at hj
    split at hj
    · exact mem_storeStream.mpr (.inl (Option.some.inj hj).symm)
    · rw [channel_storeStream (Nat.ne_of_lt (h.fresh a j hj))] at hc
      exact mem_storeStream.mpr (.inr (h.alive a j hj hc))
  · refine .quiet rfl (fun conn hv => ?_)
    by_cases hab : a = b
    · subst hab
      rw [slot_of_lookup (lookup_storeStream.trans (if_pos rfl)), if_pos (mem_storeStream.mpr (.inl rfl)), hst]
      exact hv.idle (by rw [hs]; rfl) hl
    · have hs' : (t.storeStream b st env).slot a = t.slot a := by
        refine slot_congr (lookup_storeStream.trans (if_neg hab)) (fun j hj => ?_)
        have hj' := h.fresh a j hj
        rw [channel_storeStream (Nat.ne_of_lt hj')]
        exact ⟨mem_storeStream.trans ⟨fun h => h.resolve_left (Nat.ne_of_lt hj'), .inr⟩, rfl⟩
      rw [hs']
      exact hv

end

theorem Tidy.keeps_openStream (h : t.Tidy) (hs : t.slot b = none) : Keeps t (t.openStream b env) := by
  unfold openStream
  split
  · exact h.keeps_notify rfl
  · split
    · exact h.keeps_storeStream hs rfl rfl
    · exact h.keeps_self

/-- No channel of the address is closing. -/
def Settled (t : NetworkThread α) (a : SocketAddr) : Prop := (t.slot a).any ChannelState.isClosing = false

/-- The channel that is registered for the address is dropped; it is neither connected nor closing. -/
theorem Tidy.keeps_dropRegistered (h : t.Tidy) (hb : t.addressMap.lookup b = some i) (hs : t.Settled b)
    (hc : (t.channel i).connected = false) : Keeps t (t.dropChannel i) := by
  have hk := h.key b i hb
  refine h.keeps_dropChannel (by rw [hk]; exact hb) ?_
  unfold Settled at hs
  unfold TcpChannel.connected at hc
  rw [hk]
  rw [slot_of_lookup hb] at hs ⊢
  split
  · rename_i hm
    rw [if_pos hm] at hs
    cases hst : (t.channel i).state with
    | connected _ _ => rw [hst] at hc; cases hc
    | closeRequested _ _ => rw [hst] at hs; cases hs
    | closeReceived _ _ => rw [hst] at hs; cases hs
    | _ => rfl
  · rfl

theorem Tidy.keeps_requestStream (h : t.Tidy) (hs : t.Settled b) : Keeps t (t.requestStream b env) := by
  unfold requestStream
  split
  · rename_i i hi
    have hdrop : (t.channel i).connected = false → Keeps t ((t.dropChannel i).openStream b env) := by
      intro hc
      refine (h.keeps_dropRegistered hi hs hc).trans ?_
      refine Tidy.keeps_openStream (h.keeps_dropRegistered hi hs hc).tidy ?_
      rw [dropChannel_eq, h.mapped.slot_discard, if_pos (h.key b i hi).symm]
    split
    · exact h.keeps_self
    · exact h.keeps_self
    · rename_i hne _
      refine hdrop ?_
      unfold TcpChannel.connected
      cases hst : (t.channel i).state with
      | connected addr id => exact absurd hst (hne addr id)
      | _ => rfl
  · rename_i hi
    exact h.keeps_openStream (slot_of_none hi)

theorem Tidy.keeps_receiveStream (h : t.Tidy) (hs : t.slot b = none) : Keeps t (t.receiveStream b env) := by
  unfold receiveStream
  split
  · exact h.keeps_self
  · split
    · exact h.keeps_notify rfl
    · split
      · exact h.keeps_storeStream hs trivial rfl
      · exact h.keeps_self

theorem Tidy.keeps_state (h : t.Tidy) (hi : i ∈ t.tokenMap) (hc : c.address = (t.channel i).address)
    (hf : c.state.Fits c.address)
    (hv : ∀ conn, Agrees (some (t.channel i).state) conn → Agrees (some c.state) conn) :
    Keeps t (t.setChannel i c) := by
  refine ⟨h.setChannel hi hc hf, fun a => .quiet rfl (fun conn ha => ?_)⟩
  rw [h.mapped.slot_setChannel hi]
  split
  · subst_vars
    rw [h.mapped.slot_polled hi] at ha
    exact hv conn ha
  · exact ha

theorem shutdown_spec (hc : c.connected = true) (n : Nat) : ∃ addr id, c.state = .connected addr id ∧
    (c.initiateGracefulShutdown n).state = .closeRequested addr id ∧
    (c.initiateGracefulShutdown n).address = c.address := by
  unfold TcpChannel.connected at hc
  cases hst : c.state with
  | connected addr id =>
    unfold TcpChannel.initiateGracefulShutdown
    rw [hst]
    exact ⟨addr, id, rfl, rfl, rfl⟩
  | _ => rw [hst] at hc; cases hc

/-- A connected channel starts to close. -/
theorem Tidy.keeps_graceful (h : t.Tidy) (hi : i ∈ t.tokenMap) (hc : (t.channel i).connected = true) (n : Nat) :
    Keeps t (t.setChannel i ((t.channel i).initiateGracefulShutdown n)) := by
  obtain ⟨addr, id, hst, hst', ha⟩ := shutdown_spec hc n
  refine h.keeps_state hi ha ?_ (fun conn hv => ?_)
  · have hf := h.fits i hi
    rw [hst] at hf
    rw [hst', ha]
    exact hf
  · rw [hst] at hv
    rw [hst']
    exact hv.closing (fun _ => rfl) rfl (fun _ _ => ChannelState.noConfusion)

theorem Tidy.keeps_closeConnection (h : t.Tidy) (hs : t.Settled b) : Keeps t (t.closeConnection b env) := by
  unfold closeConnection
  split
  · rename_i i hi
    split
    · rename_i hc
      have hg := h.keeps_graceful (h.alive b i hi hc) hc (env.taken i)
      exact hg.trans hg.tidy.keeps_updateLru
    · rename_i hc
      exact h.keeps_dropRegistered hi hs (Bool.not_eq_true _ ▸ hc)
  · exact h.keeps_self

theorem Tidy.keeps_handleClosedAck (h : t.Tidy) (hs : t.Settled b) : Keeps t (t.handleClosedAck b) := by
  unfold handleClosedAck
  split
  · rename_i i hi
    split
    · exact h.keeps_self
    · rename_i hc
      exact h.keeps_dropRegistered hi hs (Bool.not_eq_true _ ▸ hc)
  · exact h.keeps_self

/-- Nothing happens, or a connected channel other than the borrowed one starts to close. -/
theorem Mapped.checkSoftConnectionLimit (h : t.Mapped) {busy : Nat} (hs : t.checkSoftConnectionLimit busy env = some t') :
    t' = t ∨ ∃ j, j ≠ busy ∧ j ∈ t.tokenMap ∧ (t.channel j).connected = true ∧
      t' = ((t.notifyNetworkStatus .softConnectionLimitExceeded).setChannel j
        ((t.channel j).initiateGracefulShutdown (env.taken j))).updateLru j := by
  rcases checkSoft_cases hs with rfl | ⟨j, hj, hjb, -, rfl⟩
  · exact .inl rfl
  · have hm : j ∈ t.tokenMap := List.mem_reverse.mp (List.mem_of_find?_eq_some hj)
    have hact := List.find?_some hj
    have hc : (t.channel j).connected = true := by
      unfold active at hact
      rw [decide_eq_false hjb, Bool.false_or] at hact
      exact hact
    refine .inr ⟨j, hjb, hm, hc, ?_⟩
    have hl : (t.notifyNetworkStatus .softConnectionLimitExceeded).addressMap.lookup (t.channel j).address = some j :=
      h.polled j hm
    unfold closeConnection
    rw [hl]
    exact if_pos hc

theorem Tidy.keeps_checkSoft (h : t.Tidy) {busy : Nat} (hs : t.checkSoftConnectionLimit busy env = some t') :
    Keeps t t' ∧ (∀ i, i ∈ t'.tokenMap ↔ i ∈ t.tokenMap) ∧ t'.channel busy = t.channel busy := by
  rcases h.mapped.checkSoftConnectionLimit hs with rfl | ⟨j, hne, hm, hc, rfl⟩
  · exact ⟨h.keeps_self, fun _ => Iff.rfl, rfl⟩
  · have hn : Keeps t (t.notifyNetworkStatus .softConnectionLimitExceeded) := h.keeps_notify rfl
    have hg := hn.tidy.keeps_graceful (i := j) hm hc (env.taken j)
    refine ⟨(hn.trans hg).trans hg.tidy.keeps_updateLru, fun i => mem_updateLru, ?_⟩
    rw [channel_updateLru, channel_setChannel, if_neg (Ne.symm hne)]
    rfl

/-! ## Frames -/

theorem handleHello_eq : t.handleHello i b env =
    if t.blockList.socketAddrIsBlocked b then t.dropChannel i
    else t.renameChannel i b ((t.channel i).handleHello b (env.taken i)) := by
  simp only [handleHello, renameChannel, channel_reregister]

/-- A `Hello` moves no session, and does not push aside another channel. -/
def HelloOk (t : NetworkThread α) (i : Nat) (b : SocketAddr) : Prop :=
  (t.blockList.socketAddrIsBlocked b = true → (t.channel i).state.isLive = false) ∧
    (t.blockList.socketAddrIsBlocked b = false →
      b = (t.channel i).address ∨ (t.channel i).state.isRequested = true ∧ t.slot b = none)

instance (t : NetworkThread α) (i : Nat) (b : SocketAddr) : Decidable (t.HelloOk i b) :=
  inferInstanceAs (Decidable ((_ → _) ∧ (_ → _)))

theorem Tidy.keeps_handleHello (h : t.Tidy) (hi : i ∈ t.tokenMap) (ho : t.HelloOk i b) :
    Keeps t (t.handleHello i b env) := by
  rw [handleHello_eq]
  split
  · rename_i hblk
    refine h.keeps_dropChannel (h.polled i hi) ?_
    rw [h.mapped.slot_polled hi]
    exact ho.1 hblk
  · rename_i hblk
    replace ho := ho.2 (eq_false_of_ne_true hblk)
    rcases hst : (t.channel i).state with ⟨addr, id⟩ | _ | _ | _ | _ | _ | _ | _
    · -- the channel is requested, and becomes initialised
      have hc : (t.channel i).handleHello b (env.taken i) =
          { (t.channel i).sendFrame (.start (t.channel i).ownAddr id) (env.taken i) with
            state := .initialised b id, address := b } := by
        unfold TcpChannel.handleHello
        rw [hst]
      rw [hc]
      have hb : b = (t.channel i).address ∨ t.slot b = none := ho.imp_right And.right
      refine ⟨h.renameChannel hi hb rfl rfl, fun a => .quiet (h.mapped.toDispatcher_renameChannel hi) (fun conn hv => ?_)⟩
      rw [h.mapped.slot_renameChannel hi]
      have hown : (t.slot (t.channel i).address).any ChannelState.isLive = false := by
        rw [h.mapped.slot_polled hi, hst]; rfl
      split
      · subst_vars
        refine hv.idle ?_ rfl
        rcases hb with hb | hb
        · rw [hb]; exact hown
        · rw [hb]; rfl
      · split
        · subst_vars; exact hv.idle hown rfl
        · exact hv
    all_goals
      -- the channel has been greeted before, and its address is said again
      have hb : b = (t.channel i).address := by
        refine ho.resolve_right (fun hr => ?_)
        have he := hr.1
        rw [hst] at he
        cases he
      have hc : (t.channel i).handleHello b (env.taken i) = t.channel i := by
        unfold TcpChannel.handleHello
        rw [hst]
      rw [hc]
      refine ⟨h.renameChannel hi (.inl hb) hb.symm (hb ▸ h.fits i hi), fun a => ?_⟩
      refine .of_slot_eq (h.mapped.toDispatcher_renameChannel hi) ?_
      rw [h.mapped.slot_renameChannel hi, ← hb]
      split
      · subst_vars
        exact (h.mapped.slot_polled hi).symm
      · rfl

/-- The slot of an address agrees with its view, whatever the view was before. -/
def Settles (a : SocketAddr) (t t' : NetworkThread α) : Prop :=
  ∃ evs, Emits t t' evs ∧ ∀ conn, Agrees (t'.slot a) (evs.foldl (viewAfter a) conn)

theorem Settles.moves (h : Settles a t t') : Moves a t t' := by
  obtain ⟨evs, he, hv⟩ := h
  exact ⟨evs, he, fun conn _ => hv conn⟩

theorem Settles.after (he : Emits t t' evs) (h : Settles a t' t'') : Settles a t t'' := by
  obtain ⟨evs', he', hv⟩ := h
  refine ⟨evs ++ evs', he.trans he', fun conn => ?_⟩
  rw [List.foldl_append]
  exact hv _

/-- The session of a channel is reported as established. -/
theorem settles_established {id : SessionId} {st : ChannelState} (hs : t.slot a = some st) (hl : st.isLive = true)
    (hid : st.sessionId = some id) : Settles a t (t.notifyNetworkStatus (.connectionEstablished a id)) := by
  refine ⟨[.network (.connectionEstablished a id)], emits_network rfl NetworkStatus.noConfusion, fun conn => ?_⟩
  show Agrees (t.slot a) (if a = a then some (.connected id) else conn)
  rw [if_pos rfl, hs]
  refine ⟨fun addr id' he => ?_, fun id' he => ?_⟩
  · obtain rfl := Option.some.inj he
    rw [Option.some.inj hid]
  · obtain rfl := ConnectionState.connected.inj (Option.some.inj he)
    exact ⟨st, rfl, hl, hid⟩

theorem moves_established {id : SessionId} (hne : a ≠ b) :
    Moves a t (t.notifyNetworkStatus (.connectionEstablished b id)) := by
  refine .notify rfl NetworkStatus.noConfusion (fun conn hv => ?_)
  rw [viewAfter, if_neg hne]
  exact hv

theorem startChannel_eq {id : SessionId} (h : t.startChannel i b id env = some t') :
    ∃ t₁, (t.renameChannel i b ((t.channel i).handleStart b id (env.taken i))).checkSoftConnectionLimit i env = some t₁ ∧
      t' = t₁.notifyNetworkStatus (.connectionEstablished b id) := by
  simp only [startChannel, channel_reregister] at h
  obtain ⟨-, -, h⟩ := Option.bind_eq_some_iff.mp h
  obtain ⟨t₁, h₁, h⟩ := Option.bind_eq_some_iff.mp h
  exact ⟨t₁, h₁, (Option.some.inj h).symm⟩

/-- A channel is started for an address that has no other. -/
theorem Tidy.startChannel {id : SessionId} (h : t.Tidy) (hi : i ∈ t.tokenMap) (hst : (t.channel i).state = .initialising)
    (hb : t.slot b = none) (hs : t.startChannel i b id env = some t') :
    t'.Tidy ∧ Settles b t t' ∧ ∀ a, a ≠ b → Moves a t t' := by
  obtain ⟨t₁, h₁, rfl⟩ := startChannel_eq hs
  have hc : (t.channel i).handleStart b id (env.taken i) =
      { (t.channel i).sendFrame .ack (env.taken i) with state := .connected b id, address := b } := by
    unfold TcpChannel.handleStart
    rw [hst]
  rw [hc] at h₁
  have htidy := h.renameChannel hi (.inr hb) (b := b)
    (c := { (t.channel i).sendFrame .ack (env.taken i) with state := .connected b id, address := b }) rfl rfl
  obtain ⟨hk, hm, hch⟩ := htidy.keeps_checkSoft h₁
  have hi₁ : i ∈ t₁.tokenMap := (hm i).mpr (by rw [h.mapped.tokenMap_renameChannel hi]; exact hi)
  rw [h.mapped.channel_renameChannel hi, if_pos rfl] at hch
  have hslot : t₁.slot b = some (.connected b id) := by
    have hp := hk.tidy.mapped.slot_polled hi₁
    rw [hch] at hp
    exact hp
  refine ⟨hk.tidy.notify, ?_, fun a hne => ?_⟩
  · obtain ⟨evs, he, -⟩ := hk.moves b
    have he' : Emits t t₁ evs := by
      have := he.1
      rw [h.mapped.toDispatcher_renameChannel hi] at this
      exact ⟨this, he.2⟩
    exact .after he' (settles_established hslot rfl rfl)
  · refine Moves.trans ?_ (moves_established hne)
    refine Moves.trans ?_ (hk.moves a)
    refine .quiet (h.mapped.toDispatcher_renameChannel hi) (fun conn hv => ?_)
    rw [h.mapped.slot_renameChannel hi, if_neg hne]
    split
    · subst_vars
      refine hv.idle ?_ rfl
      rw [h.mapped.slot_polled hi, hst]
      rfl
    · exact hv

/-- The other channel makes way for this one. -/
theorem Tidy.startInstead {id : SessionId} {t₁ : NetworkThread α} (h₁ : t₁.Tidy) (hi : i ∈ t₁.tokenMap)
    (hst : (t₁.channel i).state = .initialising) (hb : t₁.slot b = none) (he : Emits t t₁ evs)
    (hm : ∀ a, a ≠ b → Moves a t t₁) (hs : t₁.startChannel i b id env = some t') : Keeps t t' := by
  obtain ⟨ht, hset, hmov⟩ := h₁.startChannel hi hst hb hs
  refine ⟨ht, fun a => ?_⟩
  by_cases hab : a = b
  · subst hab
    exact (Settles.after he hset).moves
  · exact (hm a hab).trans (hmov a hab)

theorem readState_false : t.setChannel i ((t.channel i).readState false) = t := setChannel_self

/-- The other channel is dropped; an error may have been found on its socket. -/
theorem dropChannel_readState (err : Bool) :
    (t.setChannel i ((t.channel i).readState err)).dropChannel i =
      t.discard i ((t.channel i).readState err).shutdown := by
  have ha : ((t.channel i).readState err).address = (t.channel i).address := by
    unfold TcpChannel.readState
    split
    · rfl
    · rfl
  have hc : (t.setChannel i ((t.channel i).readState err)).channel i = (t.channel i).readState err :=
    channel_setChannel.trans (if_pos rfl)
  rw [dropChannel_eq]
  unfold discard
  rw [hc, ha]
  unfold retire setChannel
  simp only [Function.update_idem]

section

variable {id : SessionId} (h : t.Tidy) (hi : i ∈ t.tokenMap) (hst : (t.channel i).state = .initialising)
include h hi hst

theorem Tidy.keeps_dropStarting : Keeps t (t.dropChannel i) := by
  refine h.keeps_dropChannel (h.polled i hi) ?_
  rw [h.mapped.slot_polled hi, hst]
  rfl

variable (hl : t.addressMap.lookup b = some j) (hne : j ≠ i)
include hl hne

/-- The channel that was registered for the address is dropped, and this one is started. -/
theorem Tidy.keeps_replaceDropped {err : Bool}
    (hs : ((t.setChannel j ((t.channel j).readState err)).dropChannel j).startChannel i b id env = some t') :
    Keeps t t' := by
  have hk := h.key b j hl
  rw [dropChannel_readState] at hs
  have ha : ((t.channel j).readState err).shutdown.address = (t.channel j).address := by
    rw [address_shutdown]
    unfold TcpChannel.readState
    split
    · rfl
    · rfl
  have hd := h.discard (by rw [hk]; exact hl) ha not_connected_shutdown
  refine Tidy.startInstead hd (mem_discard.mpr ⟨hi, hne.symm⟩) ?_ ?_ (emits_nil rfl) (fun a hab => ?_) hs
  · rw [channel_discard, if_neg hne.symm]
    exact hst
  · rw [h.mapped.slot_discard, if_pos hk.symm]
  · refine .of_slot_eq rfl ?_
    rw [h.mapped.slot_discard, if_neg (by rw [hk]; exact hab)]

/-- The connection that was registered for the address is given up, and this one is started. -/
theorem Tidy.keeps_replaceLost (hs : (t.lostConnection j env).startChannel i b id env = some t') : Keeps t t' := by
  have hk := h.key b j hl
  have hu : ∀ j', t.addressMap.lookup (t.channel j).address = some j' → j' = j := by
    intro j' hj'
    rw [hk, hl] at hj'
    exact (Option.some.inj hj').symm
  have hlost : Keeps t (t.lostConnection j env) := h.keeps_lostConnection hu
  have hothers : (i ∈ (t.lostConnection j env).tokenMap ↔ i ∈ t.tokenMap) ∧
      (t.lostConnection j env).channel i = t.channel i := lostConnection_others hne.symm
  obtain ⟨hm, hc⟩ := hothers
  obtain ⟨evs, he, -⟩ := hlost.moves b
  refine Tidy.startInstead hlost.tidy (hm.mpr hi) (by rw [hc]; exact hst) ?_ he (fun a _ => hlost.moves a) hs
  rw [h.slot_lostConnection hu, if_pos hk.symm]

omit hl hne in
theorem Tidy.keeps_handleStart (hs : t.handleStart i b id env = some t') : Keeps t t' := by
  unfold NetworkThread.handleStart at hs
  split at hs
  · obtain rfl := Option.some.inj hs
    exact h.keeps_dropStarting hi hst
  · split at hs
    · rename_i hl
      exact Tidy.startInstead h hi hst (slot_of_none hl) (emits_nil rfl) (fun a _ => .of_slot_eq rfl rfl) hs
    · rename_i other hl
      split at hs
      · cases hs
      · rename_i hne
        simp only at hs
        have hsame : env.error = true ∨ t.setChannel other ((t.channel other).readState env.error) = t := by
          cases env.error with
          | true => exact .inl rfl
          | false => exact .inr readState_false
        rcases hsame with herr | hsame
        · rw [herr] at hs
          have hc : ((t.setChannel other ((t.channel other).readState true)).channel other).state = .error := by
            rw [channel_setChannel, if_pos rfl]
            rfl
          rw [hc] at hs
          exact h.keeps_replaceDropped hi hst hl hne hs
        · have hdrop : ∀ {t'}, (t.dropChannel other).startChannel i b id env = some t' → Keeps t t' := by
            intro t' hs'
            rw [← readState_false (t := t) (i := other)] at hs'
            exact h.keeps_replaceDropped hi hst hl hne hs'
          rw [hsame] at hs
          split at hs
          · split at hs
            · obtain rfl := Option.some.inj hs
              exact h.keeps_dropStarting hi hst
            · exact h.keeps_replaceLost hi hst hl hne hs
          · split at hs
            · obtain rfl := Option.some.inj hs
              exact h.keeps_dropStarting hi hst
            · exact hdrop hs
          · split at hs
            · obtain rfl := Option.some.inj hs
              exact h.keeps_dropStarting hi hst
            · exact hdrop hs
          · exact hdrop hs

end

theorem handleAck_spec (hf : c.state.Fits a) (hr : c.state.isRequested = false) :
    c.handleAck.address = c.address ∧ c.handleAck.state.Fits a ∧
      ∀ id, c.handleAck.sessionId = some id → c.handleAck.state.isLive = true := by
  obtain ⟨ownAddr, address, state, messages, outboundQueue, written⟩ := c
  cases state with
  | requested addr id => cases hr
  | initialising => exact ⟨rfl, hf, (fun _ hid => by cases hid)⟩
  | closed addr id => exact hf.elim
  | error => exact hf.elim
  | _ => exact ⟨rfl, hf, fun _ _ => rfl⟩

/-- The channel has been greeted, so that it is connected with the `Ack` or was before. -/
theorem Tidy.keeps_handleAck (h : t.Tidy) (hi : i ∈ t.tokenMap)
    (hr : (t.channel i).state.isRequested = false) (hs : t.handleAck i env = some t') :
    Keeps t t' ∧ i ∈ t'.tokenMap := by
  simp only [handleAck] at hs
  obtain ⟨t₁, h₁, hs⟩ := Option.bind_eq_some_iff.mp hs
  obtain ⟨id, hid, hs⟩ := Option.bind_eq_some_iff.mp hs
  obtain rfl := Option.some.inj hs
  obtain ⟨ha, hf, hl⟩ := handleAck_spec (h.fits i hi) hr
  have htidy : (t.setChannel i (t.channel i).handleAck).Tidy := h.setChannel hi ha (by rw [ha]; exact hf)
  obtain ⟨hk, hm, hc⟩ := htidy.keeps_checkSoft h₁
  rw [channel_setChannel, if_pos rfl] at hc
  have hi₁ : i ∈ t₁.tokenMap := (hm i).mpr hi
  rw [hc] at hid
  rw [hc, ha]
  refine ⟨⟨hk.tidy.notify, fun a => ?_⟩, hi₁⟩
  by_cases hab : a = (t.channel i).address
  · obtain ⟨evs, he, -⟩ := hk.moves a
    have hslot := hk.tidy.mapped.slot_polled hi₁
    rw [hc, ha, ← hab] at hslot
    rw [← hab]
    have he' : Emits t t₁ evs := ⟨he.1, he.2⟩
    exact (Settles.after he' (settles_established hslot (hl id hid) hid)).moves
  · refine Moves.trans ?_ ((hk.moves a).trans (moves_established hab))
    refine .of_slot_eq rfl ?_
    rw [h.mapped.slot_setChannel hi, if_neg hab]

theorem Tidy.keeps_handleData (h : t.Tidy) (hs : t.handleData i = some t') :
    Keeps t t' ∧ t'.tokenMap = t.tokenMap ∧ t'.addressMap = t.addressMap ∧
      (t'.channel i).address = (t.channel i).address := by
  simp only [handleData] at hs
  obtain ⟨id, -, hs⟩ := Option.bind_eq_some_iff.mp hs
  obtain rfl := Option.some.inj hs
  refine ⟨h.keeps_setChannel rfl rfl, rfl, rfl, ?_⟩
  rw [channel_setChannel, if_pos rfl]
  rfl

/-- The end of a graceful shutdown: the channel is closed, which is reported, and its queue handed back. -/
theorem Tidy.keeps_closed {id : SessionId} (h : t.Tidy) (hi : i ∈ t.tokenMap) (hc : c.address = (t.channel i).address)
    (hn : c.connected = false) :
    Keeps t (((t.retire i c).notifyNetworkStatus (.connectionClosed c.address id)).rejectOutboundForChannel i) := by
  have hr := h.retire hc hn
  refine ⟨hr.notify.rejectOutbound, fun a => ?_⟩
  have hch : ((t.retire i c).notifyNetworkStatus (.connectionClosed c.address id)).channel i = c :=
    channel_retire.trans (if_pos rfl)
  have hd :
      (((t.retire i c).notifyNetworkStatus (.connectionClosed c.address id)).rejectOutboundForChannel i).toDispatcher =
      t.toDispatcher ++ .network (.connectionClosed c.address id) ::
        c.outboundQueue.map (fun f => .rejectedData c.address (.serialised f)) := by
    unfold rejectOutboundForChannel
    simp only [hch]
    exact List.append_assoc _ [_] _
  refine .ends (.inr rfl) ?_ hd
  rw [slot_rejectOutbound, hc]
  exact h.mapped.slot_retire (h.mapped.lookup_unique hi)

theorem handleBye_spec (hf : c.state.Fits a) (n : Nat) :
    (c.handleBye n).address = c.address ∧
      ((∃ id, (c.handleBye n).state = .closed a id) ∨
        (∃ id, (c.handleBye n).state = .closeReceived a id ∧ c.state.isLive = true ∧ c.sessionId = some id) ∨
        c.handleBye n = c ∧ c.state.isLive = false) := by
  obtain ⟨ownAddr, address, state, messages, outboundQueue, written⟩ := c
  cases state with
  | connected addr id =>
    obtain rfl : addr = a := hf
    unfold TcpChannel.handleBye
    simp only
    split
    · exact ⟨rfl, .inl ⟨id, rfl⟩⟩
    · exact ⟨rfl, .inr (.inl ⟨id, rfl, rfl, rfl⟩)⟩
  | closeRequested addr id => obtain rfl : addr = a := hf; exact ⟨rfl, .inl ⟨id, rfl⟩⟩
  | closeReceived addr id => obtain rfl : addr = a := hf; exact ⟨rfl, .inr (.inl ⟨id, rfl, rfl, rfl⟩)⟩
  | closed addr id => exact hf.elim
  | error => exact hf.elim
  | _ => exact ⟨rfl, .inr (.inr ⟨rfl, rfl⟩)⟩

theorem Tidy.keeps_handleBye (h : t.Tidy) (hi : i ∈ t.tokenMap) : Keeps t (t.handleBye i env) := by
  obtain ⟨ha, hb⟩ := handleBye_spec (h.fits i hi) (env.taken i)
  have hc : (t.setChannel i ((t.channel i).handleBye (env.taken i))).channel i = (t.channel i).handleBye (env.taken i) :=
    channel_setChannel.trans (if_pos rfl)
  unfold NetworkThread.handleBye
  simp only [hc]
  rcases hb with ⟨id, hst⟩ | ⟨id, hst, hlive, hid⟩ | ⟨hsame, hlive⟩
  · rw [hst, ← ha]
    refine h.keeps_closed hi ha ?_
    unfold TcpChannel.connected
    rw [hst]
    rfl
  · rw [hst]
    refine h.keeps_state hi ha ?_ (fun conn hv => ?_)
    · rw [hst, ha]
      rfl
    · rw [hst]
      exact hv.closing (fun _ => rfl) hid.symm (fun _ _ => ChannelState.noConfusion)
  · rw [hsame]
    rw [setChannel_self]
    have hdrop : Keeps t (t.dropChannel i) := by
      refine h.keeps_dropChannel (h.polled i hi) ?_
      rw [h.mapped.slot_polled hi]
      exact hlive
    have hf := h.fits i hi
    cases hst : (t.channel i).state with
    | closed _ _ => rw [hst] at hf; exact hf.elim
    | closeReceived _ _ => rw [hst] at hlive; cases hlive
    | _ => exact hdrop

/-! ## Writing -/

/-- The `Bye` of a channel has been written, the peer's was read before. -/
theorem Tidy.keeps_closeReceived {addr : SocketAddr} {id : SessionId} (h : t.Tidy) (hi : i ∈ t.tokenMap) :
    let t₁ := (t.setChannel i { t.channel i with state := .closed addr id }).deregisterChannel i
    Keeps t ((t₁.notifyNetworkStatus (.connectionClosed (t₁.channel i).address id)).rejectOutboundForChannel i) := by
  intro t₁
  have hc : t₁.channel i = { t.channel i with state := .closed addr id } := channel_retire.trans (if_pos rfl)
  rw [hc]
  have hk : Keeps t (((t.retire i { t.channel i with state := .closed addr id }).notifyNetworkStatus
      (.connectionClosed (t.channel i).address id)).rejectOutboundForChannel i) := h.keeps_closed hi rfl rfl
  exact hk

theorem Tidy.keeps_writeTcp {res : DrainResult} (h : t.Tidy) (hi : i ∈ t.tokenMap) :
    Keeps t (t.writeTcp i res env) := by
  have hl : Keeps t (t.updateLru i) := h.keeps_updateLru
  have hd : Keeps (t.updateLru i) ((t.updateLru i).setChannel i ((t.channel i).tryDrain (env.taken i))) :=
    hl.tidy.keeps_setChannel (by rw [channel_updateLru]; rfl) (by rw [channel_updateLru]; rfl)
  have hi' : i ∈ ((t.updateLru i).setChannel i ((t.channel i).tryDrain (env.taken i))).tokenMap := mem_updateLru.mpr hi
  refine (hl.trans hd).trans ?_
  unfold NetworkThread.writeTcp
  cases res with
  | brokenPipe => exact hd.tidy.keeps_lostConnection (hd.tidy.mapped.lookup_unique hi')
  | error => exact hd.tidy.keeps_self
  | ok =>
    simp only
    split
    · exact hd.tidy.keeps_closeReceived hi'
    · exact hd.tidy.keeps_self

/-! ## Events of the dispatcher -/

theorem Tidy.keeps_reject {data : DispatchData α} (h : t.Tidy) : Keeps t (t.rejectDispatchData b data) := by
  refine ⟨⟨h.key, h.polled, h.fits, h.alive, h.fresh⟩,
    fun a => ⟨[.rejectedData b data], ⟨rfl, fun ev hev he => ?_⟩, fun _ hv => hv⟩⟩
  rw [List.mem_singleton.mp hev] at he
  cases he

theorem Tidy.keeps_sendTcpMessage {data : DispatchData α} (h : t.Tidy) : Keeps t (t.sendTcpMessage b data env) := by
  unfold sendTcpMessage
  split
  · rename_i i _
    have hl : Keeps t (t.updateLru i) := h.keeps_updateLru
    simp only
    split
    · split
      · rename_i frame _
        have hk : Keeps (t.updateLru i)
            ((t.updateLru i).setChannel i (((t.updateLru i).channel i).enqueueSerialised frame)) :=
          hl.tidy.keeps_setChannel rfl rfl
        exact hl.trans ⟨⟨hk.tidy.key, hk.tidy.polled, hk.tidy.fits, hk.tidy.alive, hk.tidy.fresh⟩, hk.moves⟩
      · exact hl
    · exact hl.trans hl.tidy.keeps_reject
  · exact h.keeps_reject

/-- No live channel is registered for a blocked address. -/
theorem Tidy.keeps_dropBlocked (h : t.Tidy) (hs : (t.slot b).any ChannelState.isLive = false) :
    Keeps t (t.dropBlocked b) := by
  unfold dropBlocked
  split
  · rename_i i hi
    have hk := h.key b i hi
    split
    · have hn : Keeps t (t.notifyNetworkStatus (.connectionDropped b)) := h.keeps_notify rfl
      have hk' : ((t.notifyNetworkStatus (.connectionDropped b)).channel i).address = b := hk
      exact hn.trans (hn.tidy.keeps_dropChannel (by rw [hk']; exact hi) (by rw [hk']; exact hs))
    · exact h.keeps_dropChannel (by rw [hk]; exact hi) (by rw [hk]; exact hs)
  · exact h.keeps_self

theorem slot_dropBlocked (h : t.Tidy) (hs : (t.slot a).any ChannelState.isLive = false) :
    ((t.dropBlocked b).slot a).any ChannelState.isLive = false := by
  unfold dropBlocked
  split
  · rename_i i hi
    split
    · rw [dropChannel_eq, h.notify.mapped.slot_discard]
      split
      · rfl
      · exact hs
    · rw [dropChannel_eq, h.mapped.slot_discard]
      split
      · rfl
      · exact hs
  · exact hs

theorem Tidy.keeps_dropAll (h : t.Tidy) {addrs : List SocketAddr}
    (hs : ∀ a ∈ addrs, (t.slot a).any ChannelState.isLive = false) : Keeps t (addrs.foldl dropBlocked t) := by
  induction addrs generalizing t with
  | nil => exact h.keeps_self
  | cons b rest ih =>
    have hb := h.keeps_dropBlocked (hs b List.mem_cons_self)
    refine hb.trans (ih hb.tidy (fun a ha => slot_dropBlocked h (hs a (List.mem_cons_of_mem _ ha))))

/-- What a dispatcher event must not do: drop a channel that is closing without
a word, drop one that is connected because its IP is blocked, or have the
dispatcher forget or block an address while its channel goes on. -/
def DispatchOk (t : NetworkThread α) : DispatchEvent (DispatchData α) → Prop
  | .sendTcp _ _ => True
  | .connect addr => t.blockList.socketAddrIsBlocked addr = false → t.Settled addr
  | .closedAck addr => t.Settled addr
  | .close addr => t.Settled addr
  | .blockSocket addr =>
    (t.blockList.blockSocketAddr addr).1 = false → (t.slot addr).any ChannelState.isConnected = false
  | .allowSocket addr =>
    (t.blockList.allowSocketAddr addr).1 = true → (t.slot addr).any ChannelState.isConnected = false
  | .blockIpAddr ip => ∀ a ∈ t.addressMap.keys, (t.slot a).any ChannelState.isLive = true →
      (t.blockList.blockIpAddr ip).1 = true → a.ip = ip → (t.blockList.blockIpAddr ip).2.socketAddrIsBlocked a = false
  | .blockIpNet net => ∀ a ∈ t.addressMap.keys, (t.slot a).any ChannelState.isLive = true →
      net.contains a.ip = true → (t.blockList.blockIpNet net).socketAddrIsBlocked a = false
  | .allowIpAddr _ => True
  | .allowIpNet _ => True

instance (t : NetworkThread α) (a : SocketAddr) : Decidable (t.Settled a) := inferInstanceAs (Decidable (_ = _))

instance (t : NetworkThread α) : (ev : DispatchEvent (DispatchData α)) → Decidable (t.DispatchOk ev)
  | .sendTcp _ _ => inferInstanceAs (Decidable True)
  | .connect _ => inferInstanceAs (Decidable (_ → _))
  | .closedAck addr => inferInstanceAs (Decidable (t.Settled addr))
  | .close addr => inferInstanceAs (Decidable (t.Settled addr))
  | .blockSocket _ => inferInstanceAs (Decidable (_ → _))
  | .allowSocket _ => inferInstanceAs (Decidable (_ → _))
  | .blockIpAddr _ => inferInstanceAs (Decidable (∀ a ∈ t.addressMap.keys, _ → _ → _ → _))
  | .blockIpNet _ => inferInstanceAs (Decidable (∀ a ∈ t.addressMap.keys, _ → _ → _))
  | .allowIpAddr _ => inferInstanceAs (Decidable True)
  | .allowIpNet _ => inferInstanceAs (Decidable True)

theorem Tidy.setBlockList {bl : BlockList} (h : t.Tidy) : Keeps t { t with blockList := bl } :=
  ⟨⟨h.key, h.polled, h.fits, h.alive, h.fresh⟩, fun _ => .of_slot_eq rfl rfl⟩

theorem Tidy.keeps_dropAllBlocked (h : t.Tidy) (hit : IpAddr → Bool) (order : List SocketAddr)
    (hs : ∀ a ∈ t.addressMap.keys, (t.slot a).any ChannelState.isLive = true → hit a.ip = true →
      t.blockList.socketAddrIsBlocked a = false) : Keeps t (t.dropAllBlocked hit order) := by
  refine h.keeps_dropAll (fun a ha => ?_)
  have hf := (List.mem_filter.mp ha).2
  rw [Bool.and_eq_true] at hf
  by_contra hne
  have hl := eq_true_of_ne_false hne
  have hb := hs a (mem_keys_of_slot hl) hl hf.1
  rw [hf.2] at hb
  cases hb

/-- The entry of an address is replaced by one that is not connected, where no channel of it is connected. -/
theorem moves_forget (b : SocketAddr) (status : NetworkStatus) (entry : Option ConnectionState)
    (hv : ∀ a conn, viewAfter (α := α) a conn (.network status) = if a = b then entry else conn)
    (hd : t'.toDispatcher = t.toDispatcher ++ [.network status]) (hn : status ≠ .criticalNetworkFailure)
    (hc : ∀ id, entry ≠ some (.connected id)) (hs : (t'.slot b).any ChannelState.isConnected = false)
    (hold : ∀ a, a ≠ b → t'.slot a = t.slot a) : Moves a t t' := by
  refine .notify hd hn (fun conn h => ?_)
  rw [hv]
  by_cases hab : a = b
  · subst hab
    rw [if_pos rfl]
    refine ⟨fun addr id he => ?_, fun id he => absurd he (hc id)⟩
    rw [he] at hs
    exact absurd hs.symm Bool.false_ne_true
  · rw [if_neg hab, hold a hab]
    exact h

theorem Tidy.keeps_blockSocketAddr (h : t.Tidy) (ho : t.DispatchOk (.blockSocket b)) :
    Keeps t (t.blockSocketAddr b) := by
  have hb : Keeps t { t with blockList := (t.blockList.blockSocketAddr b).2 } := h.setBlockList
  unfold NetworkThread.blockSocketAddr
  simp only
  split
  · -- the channel of the address is dropped
    rename_i i hm hi
    have hk : (t.channel i).address = b := h.key b i hi
    have htidy := hb.tidy.discard (i := i) (by rw [hk]; exact hi) address_shutdown not_connected_shutdown
    have hslot : ∀ a,
        (({ t with blockList := (t.blockList.blockSocketAddr b).2 } : NetworkThread α).dropChannel i).slot a =
        if a = b then none else t.slot a := fun a => hk ▸ hb.tidy.mapped.slot_discard
    refine ⟨htidy.notify, fun a => moves_forget b _ (some .blocked) (fun _ _ => rfl) rfl NetworkStatus.noConfusion
      (fun id he => by cases he) ?_ (fun a hab => ?_)⟩
    · exact (congrArg _ ((hslot b).trans (if_pos rfl))).trans rfl
    · exact (hslot a).trans (if_neg hab)
  · rename_i hno
    refine ⟨hb.tidy.notify, fun a => moves_forget b _ (some .blocked) (fun _ _ => rfl) rfl NetworkStatus.noConfusion
      (fun id he => by cases he) ?_ (fun _ _ => rfl)⟩
    show (t.slot b).any ChannelState.isConnected = false
    cases hm : (t.blockList.blockSocketAddr b).1 with
    | false => exact ho hm
    | true =>
      rcases hl : t.addressMap.lookup b with _ | i
      · rw [slot_of_none hl]; rfl
      · exact absurd hl (hno i hm)

theorem Tidy.keeps_allowSocketAddr (h : t.Tidy) (ho : t.DispatchOk (.allowSocket b)) :
    Keeps t (t.allowSocketAddr b) := by
  have hb : Keeps t { t with blockList := (t.blockList.allowSocketAddr b).2 } := h.setBlockList
  unfold NetworkThread.allowSocketAddr
  simp only
  split
  · rename_i hm
    exact ⟨hb.tidy.notify, fun a => moves_forget b _ none (fun _ _ => rfl) rfl NetworkStatus.noConfusion
      (fun id he => by cases he) (ho hm) (fun _ _ => rfl)⟩
  · exact hb

theorem Tidy.keeps_blockIpAddr {ip : IpAddr} {order : List SocketAddr} (h : t.Tidy)
    (ho : t.DispatchOk (.blockIpAddr ip)) : Keeps t (t.blockIpAddr ip order) := by
  unfold NetworkThread.blockIpAddr
  simp only
  split
  · rename_i hm
    have hb : Keeps t { t with blockList := (t.blockList.blockIpAddr ip).2 } := h.setBlockList
    have hd := hb.tidy.keeps_dropAllBlocked (fun ip' => ip' = ip) order
      (fun a ha hl hip => ho a ha hl hm (of_decide_eq_true hip))
    exact (hb.trans hd).trans (hd.tidy.keeps_notify rfl)
  · exact h.keeps_notify rfl

theorem Tidy.keeps_blockIpNet {net : IpNet} {order : List SocketAddr} (h : t.Tidy)
    (ho : t.DispatchOk (.blockIpNet net)) : Keeps t (t.blockIpNet net order) := by
  have hb : Keeps t { t with blockList := t.blockList.blockIpNet net } := h.setBlockList
  have hd := hb.tidy.keeps_dropAllBlocked net.contains order ho
  exact (hb.trans hd).trans (hd.tidy.keeps_notify rfl)

theorem Tidy.keeps_handleDispatchEvent {ev : DispatchEvent (DispatchData α)} (h : t.Tidy) (ho : t.DispatchOk ev) :
    Keeps t (t.handleDispatchEvent env ev) := by
  cases ev with
  | sendTcp addr data => exact h.keeps_sendTcpMessage
  | connect addr =>
    unfold handleDispatchEvent
    simp only
    split
    · exact h.keeps_self
    · rename_i hb
      exact h.keeps_requestStream (ho (by simpa using hb))
  | closedAck addr => exact h.keeps_handleClosedAck ho
  | close addr => exact h.keeps_closeConnection ho
  | blockSocket addr => exact h.keeps_blockSocketAddr ho
  | blockIpAddr ip => exact h.keeps_blockIpAddr ho
  | blockIpNet net => exact h.keeps_blockIpNet ho
  | allowSocket addr => exact h.keeps_allowSocketAddr ho
  | allowIpAddr ip =>
    have hb : Keeps t { t with blockList := (t.blockList.allowIpAddr ip).2 } := h.setBlockList
    exact hb.trans (hb.tidy.keeps_notify rfl)
  | allowIpNet net =>
    have hb : Keeps t { t with blockList := t.blockList.allowIpNet net } := h.setBlockList
    exact hb.trans (hb.tidy.keeps_notify rfl)

/-! ## Steps of the thread -/

/-- A frame for which the channel is in the right state, if it is polled at all. -/
def FrameOk (t : NetworkThread α) (i : Nat) : NetFrame α → Prop
  | .data _ => True
  | .hello addr => i ∈ t.tokenMap ∧ t.HelloOk i addr
  | .start _ _ => i ∈ t.tokenMap ∧ (t.channel i).state = .initialising
  | .ack => i ∈ t.tokenMap ∧ (t.channel i).state.isRequested = false
  | .bye => i ∈ t.tokenMap

def ActionOk (t : NetworkThread α) : Action α → Prop
  | .accept addr _ => t.slot addr = none
  | .read frame _ => ∀ i ∈ t.reading, t.FrameOk i frame
  | _ => True

instance (t : NetworkThread α) (i : Nat) : (frame : NetFrame α) → Decidable (t.FrameOk i frame)
  | .data _ => inferInstanceAs (Decidable True)
  | .hello _ => inferInstanceAs (Decidable (_ ∧ _))
  | .start _ _ => inferInstanceAs (Decidable (_ ∧ _))
  | .ack => inferInstanceAs (Decidable (_ ∧ _))
  | .bye => inferInstanceAs (Decidable (i ∈ t.tokenMap))

instance (t : NetworkThread α) : (act : Action α) → Decidable (t.ActionOk act)
  | .accept _ _ => inferInstanceAs (Decidable (_ = none))
  | .read frame _ => inferInstanceAs (Decidable (∀ i ∈ t.reading, t.FrameOk i frame))
  | .write _ _ _ => inferInstanceAs (Decidable True)
  | .beginRead _ => inferInstanceAs (Decidable True)
  | .endRead => inferInstanceAs (Decidable True)
  | .resetRead _ => inferInstanceAs (Decidable True)
  | .noBuffers _ => inferInstanceAs (Decidable True)

/-- A channel that is read but not polled any more is not registered either. -/
def Reader (t : NetworkThread α) : Prop :=
  ∀ i ∈ t.reading, i ∈ t.tokenMap ∨ t.addressMap.lookup (t.channel i).address = none

theorem Reader.lookup_unique (h : t.Mapped) (hr : t.Reader) (hi : i ∈ t.reading) :
    ∀ j, t.addressMap.lookup (t.channel i).address = some j → j = i := by
  rcases hr i hi with hp | hn
  · exact h.lookup_unique hp
  · intro j hj
    rw [hn] at hj
    cases hj

theorem Tidy.keeps_endRead (h : t.Tidy) : Keeps t t.endRead :=
  ⟨⟨h.key, h.polled, h.fits, h.alive, h.fresh⟩, fun _ => .of_slot_eq rfl rfl⟩

theorem Tidy.keeps_handleFrame {frame : NetFrame α} (h : t.Tidy) (hi : i ∈ t.reading) (hr : t.Reader)
    (ho : t.FrameOk i frame) (hs : t.handleFrame i frame env = some t') : Keeps t t' ∧ t'.Reader := by
  have hsame : ∀ {j}, j ∈ t.reading → j = i := fun hj => Option.some.inj (hj.symm.trans hi)
  cases frame with
  | data msg =>
    obtain ⟨hk, hm, hl, ha⟩ := h.keeps_handleData hs
    refine ⟨hk, fun j hj => ?_⟩
    rw [reading_handleData hs] at hj
    obtain rfl := hsame hj
    rw [hm, hl, ha]
    exact hr j hj
  | hello addr =>
    obtain rfl := Option.some.inj hs
    refine ⟨h.keeps_handleHello ho.1 ho.2, fun j hj => ?_⟩
    rw [reading_handleHello] at hj
    obtain rfl := hsame hj
    rw [handleHello_eq]
    by_cases hb : t.blockList.socketAddrIsBlocked addr = true
    · rw [if_pos hb]
      refine .inr ?_
      have ha : ((t.dropChannel j).channel j).address = (t.channel j).address := by
        rw [dropChannel_eq, channel_discard, if_pos rfl, address_shutdown]
      rw [ha]
      exact (AssocMap.lookup_erase _ _ _).trans (if_pos rfl)
    · rw [if_neg hb, h.mapped.tokenMap_renameChannel ho.1]
      exact .inl ho.1
  | start addr id =>
    obtain ⟨t₁, h₁, rfl⟩ := Option.map_eq_some_iff.mp hs
    have hk := h.keeps_handleStart ho.1 ho.2 h₁
    exact ⟨hk.trans hk.tidy.keeps_endRead, (fun j hj => by cases hj)⟩
  | ack =>
    obtain ⟨hk, hi'⟩ := h.keeps_handleAck ho.1 ho.2 hs
    refine ⟨hk, fun j hj => ?_⟩
    rw [reading_handleAck hs] at hj
    rw [hsame hj]
    exact .inl hi'
  | bye =>
    obtain rfl := Option.some.inj hs
    have hk : Keeps t (t.handleBye i env) := h.keeps_handleBye ho
    exact ⟨hk.trans hk.tidy.keeps_endRead, (fun j hj => by cases hj)⟩

theorem Tidy.keeps_step {act : Action α} (h : t.Tidy) (hr : t.Reader) (ho : t.ActionOk act)
    (hs : t.step act = some t') : Keeps t t' ∧ t'.Reader := by
  have hidle : ∀ {t₁ : NetworkThread α}, t₁.reading = t.reading → t.reading = none → t₁.Reader := by
    intro t₁ h₁ hn i hi
    rw [h₁, hn] at hi
    cases hi
  cases act with
  | accept addr env =>
    obtain ⟨hr, rfl⟩ := step_accept hs
    exact ⟨h.keeps_receiveStream ho, hidle reading_receiveStream hr⟩
  | write i res env =>
    obtain ⟨hr, hi, rfl⟩ := step_write hs
    exact ⟨h.keeps_writeTcp hi, hidle reading_writeTcp hr⟩
  | beginRead i =>
    obtain ⟨-, hi, rfl⟩ := step_beginRead hs
    have hk : Keeps t (t.updateLru i) := h.keeps_updateLru
    refine ⟨⟨⟨hk.tidy.key, hk.tidy.polled, hk.tidy.fits, hk.tidy.alive, hk.tidy.fresh⟩, hk.moves⟩, fun j hj => ?_⟩
    obtain rfl := Option.some.inj hj
    exact .inl (mem_updateLru.mpr hi)
  | read frame env =>
    obtain ⟨i, hi, hs⟩ := Option.bind_eq_some_iff.mp hs
    exact h.keeps_handleFrame hi hr (ho i hi) hs
  | endRead =>
    obtain ⟨i, hi, rfl⟩ := Option.map_eq_some_iff.mp hs
    exact ⟨h.keeps_endRead, (fun j hj => by cases hj)⟩
  | resetRead env =>
    obtain ⟨i, hi, rfl⟩ := Option.map_eq_some_iff.mp hs
    have hk : Keeps t (t.lostConnection i env) := h.keeps_lostConnection (hr.lookup_unique h.mapped hi)
    exact ⟨hk.trans hk.tidy.keeps_endRead, (fun j hj => by cases hj)⟩
  | noBuffers env =>
    obtain ⟨i, hi, rfl⟩ := Option.map_eq_some_iff.mp hs
    split
    · exact ⟨h.keeps_endRead, (fun j hj => by cases hj)⟩
    · rename_i hn
      have hm : i ∈ t.tokenMap := by
        by_contra hm
        exact hn (.inr hm)
      have hl : Keeps t (t.updateLru i) := h.keeps_updateLru
      have hk : Keeps (t.updateLru i) ((t.updateLru i).lostConnection i env) :=
        hl.tidy.keeps_lostConnection (hl.tidy.mapped.lookup_unique (mem_updateLru.mpr hm))
      exact ⟨(hl.trans hk).trans hk.tidy.keeps_endRead, (fun j hj => by cases hj)⟩

end NetworkThread

end Kompact
