import Kompact.Network.Thread

/-!
# What the network thread does with messages

Seen from its messages, all that the thread does with an event of the network
is to write some of what is queued on the channels, or to lose it (`Quiet`), and
to hand back what is queued on one channel that is not used any more
(`HandsBack`). A channel that is neither polled nor read nor connected is dead,
and stays so.
-/

namespace Kompact

variable {α : Type}

def NetFrame.msg? : NetFrame α → Option α
  | data msg => some msg
  | _ => none

/-- The messages among frames. -/
def messagesIn (frames : List (NetFrame α)) : List α := frames.filterMap NetFrame.msg?

def DispatchData.msg? (data : DispatchData α) : Option α := data.intoSerialised.msg?

/-- The messages that are on their way back, for an address. -/
def rejectedFor (a : SocketAddr) (evs : List (NetworkDispatcherEvent (DispatchData α))) : List α :=
  evs.filterMap fun
    | .rejectedData b data => if b = a then data.msg? else none
    | .network _ => none

theorem rejectedFor_append (a : SocketAddr) (evs evs' : List (NetworkDispatcherEvent (DispatchData α))) :
    rejectedFor a (evs ++ evs') = rejectedFor a evs ++ rejectedFor a evs' := List.filterMap_append

theorem filterMap_cons_toList {β γ : Type} (f : β → Option γ) (x : β) (xs : List β) :
    (x :: xs).filterMap f = (f x).toList ++ xs.filterMap f := by
  rw [List.filterMap_cons]
  cases f x with
  | none => rfl
  | some y => rfl

theorem toList_ite_eq {γ : Type} (a b : SocketAddr) (x : Option γ) :
    (if a = b then x else none).toList = if b = a then x.toList else [] := by
  by_cases h : b = a
  · rw [if_pos h, if_pos h.symm]
  · rw [if_neg h, if_neg (Ne.symm h)]
    rfl

theorem rejectedFor_cons {a b : SocketAddr} {data : DispatchData α}
    {evs : List (NetworkDispatcherEvent (DispatchData α))} : rejectedFor b (.rejectedData a data :: evs) =
      (if b = a then data.msg?.toList else []) ++ rejectedFor b evs :=
  (filterMap_cons_toList _ _ _).trans (congrArg (· ++ _) (toList_ite_eq a b data.msg?))

theorem messagesIn_append (fs fs' : List (NetFrame α)) : messagesIn (fs ++ fs') = messagesIn fs ++ messagesIn fs' :=
  List.filterMap_append

/-! ## Channels -/

namespace TcpChannel

variable {c c' : TcpChannel α} {n : Nat} {f : NetFrame α}

/-- The messages that are queued on the channel. -/
def queuedMessages (c : TcpChannel α) : List α := messagesIn c.outboundQueue

theorem queued_tryDrain : (c.tryDrain n).queuedMessages.Sublist c.queuedMessages :=
  (List.drop_sublist _ _).filterMap _

/-- Control frames are not messages. -/
theorem queued_sendFrame (hf : f.msg? = none) : (c.sendFrame f n).queuedMessages.Sublist c.queuedMessages := by
  have h : (c.enqueueSerialised f).queuedMessages = c.queuedMessages := by
    refine (messagesIn_append _ _).trans ?_
    simp [messagesIn, hf, queuedMessages]
  exact h ▸ queued_tryDrain

theorem queued_initialise (a : SocketAddr) : (c.initialise a n).queuedMessages.Sublist c.queuedMessages := by
  unfold initialise
  split
  · exact queued_sendFrame rfl
  · exact List.Sublist.refl _

theorem queued_handleHello (a : SocketAddr) : (c.handleHello a n).queuedMessages.Sublist c.queuedMessages := by
  unfold handleHello
  split
  · exact queued_sendFrame rfl
  · exact List.Sublist.refl _

theorem connected_handleHello (a : SocketAddr) (h : (c.handleHello a n).connected = true) : c.connected = true := by
  unfold handleHello at h
  split at h
  · cases h
  · exact h

theorem queued_handleStart (a : SocketAddr) (id : SessionId) :
    (c.handleStart a id n).queuedMessages.Sublist c.queuedMessages := by
  unfold handleStart
  split
  · exact queued_sendFrame rfl
  · exact List.Sublist.refl _

theorem queued_handleAck : c.handleAck.queuedMessages = c.queuedMessages := by
  unfold handleAck
  split
  · rfl
  · rfl

theorem queued_shutdown : c.shutdown.queuedMessages = c.queuedMessages := by
  unfold shutdown
  split
  · rfl
  · rfl

theorem connected_shutdown : c.shutdown.connected = false := by
  unfold shutdown
  split
  · rfl
  · rename_i h
    unfold connected
    cases hs : c.state with
    | connected a id => exact absurd hs (h a id)
    | _ => rfl

theorem queued_graceful : (c.initiateGracefulShutdown n).queuedMessages.Sublist c.queuedMessages := by
  unfold initiateGracefulShutdown
  split
  · exact queued_sendFrame rfl
  · exact List.Sublist.refl _

theorem connected_graceful (h : (c.initiateGracefulShutdown n).connected = true) : c.connected = true := by
  unfold initiateGracefulShutdown at h
  split at h
  · cases h
  · exact h

theorem queued_readState (b : Bool) : (c.readState b).queuedMessages = c.queuedMessages := by
  unfold readState
  split
  · rfl
  · rfl

theorem connected_readState {b : Bool} (h : (c.readState b).connected = true) : c.connected = true := by
  unfold readState at h
  split at h
  · cases h
  · exact h

theorem queued_handleBye : (c.handleBye n).queuedMessages.Sublist c.queuedMessages := by
  unfold handleBye
  split
  · simp only
    split
    · exact queued_sendFrame (f := .bye) (c := { c with state := _ }) rfl
    · exact queued_sendFrame (f := .bye) (c := { c with state := _ }) rfl
  · exact List.Sublist.refl _
  · exact List.Sublist.refl _

theorem connected_handleBye (h : (c.handleBye n).connected = true) : c.connected = true := by
  unfold handleBye at h
  split at h
  · simp only at h
    split at h
    · cases h
    · cases h
  · cases h
  · exact h

end TcpChannel

/-! ## The thread -/

namespace NetworkThread

variable {t t' t₁ : NetworkThread α} {a b : SocketAddr} {i j : Nat} {c : TcpChannel α} {env : Env}

/-- The channel is not used any more. -/
structure Dead (t : NetworkThread α) (i : Nat) : Prop where
  lt : i < t.token
  polled : i ∉ t.tokenMap
  reading : t.reading ≠ some i
  connected : (t.channel i).connected = false

/-- No channel is registered before it is stored. -/
def Bounded (t : NetworkThread α) : Prop := ∀ a i, t.addressMap.lookup a = some i → i < t.token

/-- No message is queued or handed back. -/
structure Quiet (t t' : NetworkThread α) : Prop where
  history : t'.history = t.history
  rejected : ∀ a, rejectedFor a t'.toDispatcher = rejectedFor a t.toDispatcher
  queued : ∀ i, (t'.channel i).queuedMessages.Sublist (t.channel i).queuedMessages
  dead : ∀ i, t.Dead i → t'.Dead i
  bounded : t.Bounded → t'.Bounded
  token : t.token ≤ t'.token

/-- The frames `fs` of channel `i` are handed back for address `a`. -/
structure HandsBack (t t' : NetworkThread α) (i : Nat) (a : SocketAddr) (fs : List (NetFrame α)) : Prop where
  history : t'.history = t.history ++ fs.map (.handedBack i)
  rejected : ∀ b, rejectedFor b t'.toDispatcher =
    rejectedFor b t.toDispatcher ++ if b = a then messagesIn fs else []
  back : (messagesIn fs).Sublist (t.channel i).queuedMessages
  emptied : (t'.channel i).queuedMessages = []
  queued : ∀ j, (t'.channel j).queuedMessages.Sublist (t.channel j).queuedMessages
  dead : ∀ j, t.Dead j → t'.Dead j
  bounded : t.Bounded → t'.Bounded
  token : t.token ≤ t'.token

theorem quiet_refl : Quiet t t :=
  ⟨rfl, fun _ => rfl, fun _ => List.Sublist.refl _, fun _ h => h, fun h => h, Nat.le_refl _⟩

theorem Quiet.trans (h : Quiet t t₁) (h' : Quiet t₁ t') : Quiet t t' :=
  ⟨h'.history.trans h.history, fun a => (h'.rejected a).trans (h.rejected a), fun i => (h'.queued i).trans (h.queued i),
    fun i hi => h'.dead i (h.dead i hi), fun hb => h'.bounded (h.bounded hb), Nat.le_trans h.token h'.token⟩

theorem Quiet.handsBack {fs : List (NetFrame α)} (h : Quiet t t₁) (h' : HandsBack t₁ t' i a fs) :
    HandsBack t t' i a fs := by
  refine ⟨?_, fun b => ?_, h'.back.trans (h.queued i), h'.emptied, fun j => (h'.queued j).trans (h.queued j),
    fun j hj => h'.dead j (h.dead j hj), fun hb => h'.bounded (h.bounded hb), Nat.le_trans h.token h'.token⟩
  · rw [h'.history, h.history]
  · rw [h'.rejected, h.rejected]

theorem HandsBack.quiet {fs : List (NetFrame α)} (h : HandsBack t t₁ i a fs) (h' : Quiet t₁ t') :
    HandsBack t t' i a fs := by
  refine ⟨h'.history.trans h.history, fun b => (h'.rejected b).trans (h.rejected b), h.back, ?_,
    fun j => (h'.queued j).trans (h.queued j), fun j hj => h'.dead j (h.dead j hj),
    fun hb => h'.bounded (h.bounded hb), Nat.le_trans h.token h'.token⟩
  have hs := h'.queued i
  rw [h.emptied] at hs
  exact List.sublist_nil.mp hs

/-! ## Small steps -/

theorem quiet_setChannel (hq : c.queuedMessages.Sublist (t.channel i).queuedMessages)
    (hc : c.connected = true → (t.channel i).connected = true ∨ i ∈ t.tokenMap ∨ t.reading = some i) :
    Quiet t (t.setChannel i c) := by
  refine ⟨rfl, fun _ => rfl, fun j => ?_, fun j hj => ⟨hj.lt, hj.polled, hj.reading, ?_⟩, fun h => h, Nat.le_refl _⟩
  · rw [channel_setChannel]
    split
    · subst_vars; exact hq
    · exact List.Sublist.refl _
  · rw [channel_setChannel]
    split
    · subst_vars
      refine eq_false_of_ne_true (fun htrue => ?_)
      rcases hc htrue with hc | hm | hr
      · rw [hj.connected] at hc; cases hc
      · exact hj.polled hm
      · exact hj.reading hr
    · exact hj.connected

theorem quiet_notify (status : NetworkStatus) : Quiet t (t.notifyNetworkStatus status) := by
  refine ⟨rfl, fun a => ?_, fun _ => List.Sublist.refl _, fun _ h => ⟨h.lt, h.polled, h.reading, h.connected⟩,
    fun h => h, Nat.le_refl _⟩
  refine (rejectedFor_append _ _ _).trans ?_
  exact List.append_nil _

theorem quiet_updateLru : Quiet t (t.updateLru i) := by
  have hhist : (t.updateLru i).history = t.history := by
    unfold updateLru
    split
    · rfl
    · rfl
  refine ⟨hhist, fun a => by rw [toDispatcher_updateLru], fun j => by rw [channel_updateLru],
    fun j hj => ⟨?_, ?_, ?_, ?_⟩, fun hb a j hl => ?_, ?_⟩
  · rw [token_updateLru]; exact hj.lt
  · rw [mem_updateLru]; exact hj.polled
  · rw [reading_updateLru]; exact hj.reading
  · rw [channel_updateLru]; exact hj.connected
  · rw [addressMap_updateLru] at hl
    rw [token_updateLru]
    exact hb a j hl
  · rw [token_updateLru]

/-- Only addresses and what is polled change: no channel is polled that was not, and none registered. -/
theorem quiet_registered (hl : ∀ b i, t'.addressMap.lookup b = some i → ∃ a, t.addressMap.lookup a = some i)
    (hp : ∀ i ∈ t'.tokenMap, i ∈ t.tokenMap) (hc : t'.channel = t.channel) (hh : t'.history = t.history)
    (hd : t'.toDispatcher = t.toDispatcher) (hr : t'.reading = t.reading) (ht : t'.token = t.token) : Quiet t t' := by
  refine ⟨hh, fun a => by rw [hd], fun j => by rw [hc], fun j hj => ⟨?_, fun hm => hj.polled (hp j hm), ?_, ?_⟩,
    fun hb a j hl' => ?_, Nat.le_of_eq ht.symm⟩
  · rw [ht]; exact hj.lt
  · rw [hr]; exact hj.reading
  · rw [hc]; exact hj.connected
  · obtain ⟨b, hb'⟩ := hl a j hl'
    rw [ht]
    exact hb b j hb'

theorem quiet_reregister (old new : SocketAddr) : Quiet t (t.reregisterChannelAddress old new) := by
  unfold reregisterChannelAddress
  split
  · rename_i i hi
    refine quiet_registered (fun b j hj => ?_) (fun _ h => h) rfl rfl rfl rfl rfl
    rw [AssocMap.lookup_insert, AssocMap.lookup_erase] at hj
    split at hj
    · exact ⟨old, hj ▸ hi⟩
    · split at hj
      · cases hj
      · exact ⟨b, hj⟩
  · exact quiet_refl

theorem quiet_deregister : Quiet t (t.deregisterChannel i) :=
  quiet_registered (fun b _ h => ⟨b, h⟩) (fun _ h => (List.mem_filter.mp h).1) rfl rfl rfl rfl rfl

theorem quiet_dropChannel : Quiet t (t.dropChannel i) := by
  have h₁ : Quiet t { t.deregisterChannel i with addressMap := t.addressMap.erase (t.channel i).address } := by
    refine quiet_registered (fun b j hj => ?_) (fun _ h => (List.mem_filter.mp h).1) rfl rfl rfl rfl rfl
    rw [AssocMap.lookup_erase] at hj
    split at hj
    · cases hj
    · exact ⟨b, hj⟩
  refine h₁.trans (quiet_setChannel ?_ (fun hc => ?_))
  · rw [TcpChannel.queued_shutdown]
    exact List.Sublist.refl _
  · rw [TcpChannel.connected_shutdown] at hc
    cases hc

theorem quiet_endRead : Quiet t t.endRead :=
  ⟨rfl, fun _ => rfl, fun _ => List.Sublist.refl _,
    fun _ h => ⟨h.lt, h.polled, (fun hr => by cases hr), h.connected⟩, fun h => h, Nat.le_refl _⟩

theorem quiet_beginRead (hi : i ∈ t.tokenMap) : Quiet t { t.updateLru i with reading := some i } := by
  have h := quiet_updateLru (t := t) (i := i)
  refine ⟨h.history, h.rejected, h.queued, fun j hj => ?_, h.bounded, h.token⟩
  have hj' := h.dead j hj
  refine ⟨hj'.lt, hj'.polled, fun hr => ?_, hj'.connected⟩
  exact hj.polled (Option.some.inj hr ▸ hi)

theorem quiet_blockList (l : BlockList) : Quiet t { t with blockList := l } :=
  quiet_registered (fun b _ h => ⟨b, h⟩) (fun _ h => h) rfl rfl rfl rfl rfl

/-- A new channel has no messages. -/
theorem quiet_storeStream {st : ChannelState} : Quiet t (t.storeStream a st env) := by
  refine ⟨rfl, fun _ => rfl, fun j => ?_, fun j hj => ?_, fun hb b j hl => ?_, Nat.le_succ _⟩
  · show ((t.setChannel t.token _).channel j).queuedMessages.Sublist _
    rw [channel_setChannel]
    split
    · exact (TcpChannel.queued_initialise _).trans (List.nil_sublist _)
    · exact List.Sublist.refl _
  · have hne : j ≠ t.token := Nat.ne_of_lt hj.lt
    refine ⟨Nat.lt_succ_of_lt hj.lt, fun hm => ?_, hj.reading, ?_⟩
    · exact hj.polled ((List.mem_cons.mp hm).resolve_left hne)
    · show ((t.setChannel t.token _).channel j).connected = false
      rw [channel_setChannel, if_neg hne]
      exact hj.connected
  · have hl' : (t.addressMap.insert a t.token).lookup b = some j := hl
    rw [AssocMap.lookup_insert] at hl'
    split at hl'
    · obtain rfl := Option.some.inj hl'
      exact Nat.lt_succ_self _
    · exact Nat.lt_succ_of_lt (hb b j hl')

/-! ## Opening and closing -/

theorem quiet_parts : KeptByParts (Quiet (α := α)) where
  refl _ := quiet_refl
  trans h h' := h.trans h'
  notify _ status _ := quiet_notify status
  setBlockList _ blockList := quiet_blockList blockList
  dropChannel _ _ := quiet_dropChannel
  close t i n := by
    refine Quiet.trans (quiet_setChannel TcpChannel.queued_graceful (fun hc => ?_)) quiet_updateLru
    exact .inl (TcpChannel.connected_graceful hc)

theorem quiet_requestStream : Quiet t (t.requestStream a env) := quiet_parts.requestStream (fun _ => quiet_storeStream)

theorem quiet_receiveStream : Quiet t (t.receiveStream a env) := quiet_parts.receiveStream quiet_storeStream

/-! ## Channels that end -/

/-- What is handed back is all that is queued. -/
theorem handsBack_rejectOutbound : HandsBack t (t.rejectOutboundForChannel i) i (t.channel i).address
    (t.channel i).outboundQueue := by
  have hch : ∀ j, (t.rejectOutboundForChannel i).channel j =
      if j = i then { t.channel i with outboundQueue := [] } else t.channel j := fun j => channel_setChannel
  refine ⟨rfl, fun b => ?_, List.Sublist.refl _, ?_, fun j => ?_, fun j hj => ⟨hj.lt, hj.polled, hj.reading, ?_⟩,
    fun h => h, Nat.le_refl _⟩
  · refine (rejectedFor_append _ _ _).trans (congrArg _ ?_)
    unfold rejectedFor messagesIn
    rw [List.filterMap_map]
    split
    · subst_vars
      refine List.filterMap_congr (fun f _ => ?_)
      exact if_pos rfl
    · rename_i hne
      refine List.filterMap_eq_nil_iff.mpr (fun f _ => ?_)
      exact if_neg (Ne.symm hne)
  · rw [hch, if_pos rfl]
    rfl
  · rw [hch]
    split
    · exact List.nil_sublist _
    · exact List.Sublist.refl _
  · rw [hch]
    split
    · subst_vars; exact hj.connected
    · exact hj.connected

/-- What one event of the network does with messages. -/
def Passes (t t' : NetworkThread α) : Prop :=
  Quiet t t' ∨ ∃ i a fs, HandsBack t t' i a fs ∧ (i < t.token → t'.Dead i)

theorem Quiet.passes (h : Quiet t t₁) (h' : Passes t₁ t') : Passes t t' := by
  rcases h' with h' | ⟨i, a, fs, hb, hd⟩
  · exact .inl (h.trans h')
  · exact .inr ⟨i, a, fs, h.handsBack hb, fun hi => hd (Nat.lt_of_lt_of_le hi h.token)⟩

theorem Passes.quiet (h : Passes t t₁) (h' : Quiet t₁ t') : Passes t t' := by
  rcases h with h | ⟨i, a, fs, hb, hd⟩
  · exact .inl (h.trans h')
  · exact .inr ⟨i, a, fs, hb.quiet h', fun hi => h'.dead i (hd hi)⟩

/-- The channel is handed back when it is not used any more. -/
theorem passes_rejectOutbound (hp : i ∉ t.tokenMap) (hr : t.reading ≠ some i)
    (hc : (t.channel i).connected = false) : Passes t (t.rejectOutboundForChannel i) := by
  refine .inr ⟨i, _, _, handsBack_rejectOutbound, fun hi => handsBack_rejectOutbound.dead i ⟨hi, hp, hr, hc⟩⟩

theorem passes_lostConnection (hr : t.reading ≠ some i) : Passes t (t.lostConnection i env) := by
  have hmain : ∀ t₀ : NetworkThread α, t₀.reading ≠ some i →
      Passes t₀ (((t₀.rejectOutboundForChannel i).deregisterChannel i).setChannel i
        (((t₀.rejectOutboundForChannel i).channel i).sendBye (env.taken i)).shutdown) := by
    intro t₀ hr₀
    have hback := handsBack_rejectOutbound (t := t₀) (i := i)
    have hdereg : Quiet (t₀.rejectOutboundForChannel i) ((t₀.rejectOutboundForChannel i).deregisterChannel i) :=
      quiet_deregister
    have hset : Quiet ((t₀.rejectOutboundForChannel i).deregisterChannel i)
        (((t₀.rejectOutboundForChannel i).deregisterChannel i).setChannel i
          (((t₀.rejectOutboundForChannel i).channel i).sendBye (env.taken i)).shutdown) := by
      refine quiet_setChannel ?_ (fun hc => ?_)
      · rw [TcpChannel.queued_shutdown]
        exact TcpChannel.queued_sendFrame rfl
      · rw [TcpChannel.connected_shutdown] at hc
        cases hc
    refine .inr ⟨i, _, _, (hback.quiet hdereg).quiet hset, fun hi => ⟨hi, fun hm => ?_, hr₀, ?_⟩⟩
    · exact absurd rfl (of_decide_eq_true (List.mem_filter.mp hm).2)
    · rw [channel_setChannel, if_pos rfl]
      exact TcpChannel.connected_shutdown
  unfold lostConnection
  cases (t.channel i).sessionId with
  | none => exact hmain t hr
  | some id => exact (quiet_notify _).passes (hmain _ hr)

theorem lostConnection_endRead : (t.lostConnection i env).endRead = t.endRead.lostConnection i env := by
  unfold lostConnection
  have hs : (t.endRead.channel i).sessionId = (t.channel i).sessionId := rfl
  rw [hs]
  cases (t.channel i).sessionId with
  | some id => rfl
  | none => rfl

/-- The channel that is read is lost. -/
theorem passes_lostRead : Passes t (t.lostConnection i env).endRead := by
  rw [lostConnection_endRead]
  exact quiet_endRead.passes (passes_lostConnection (fun hr => by cases hr))

/-! ## Frames -/

theorem quiet_handleHello : Quiet t (t.handleHello i a env) := by
  unfold handleHello
  split
  · exact quiet_dropChannel
  · refine (quiet_reregister _ _).trans (quiet_setChannel (TcpChannel.queued_handleHello _) (fun hc => ?_))
    exact .inl (TcpChannel.connected_handleHello _ hc)

theorem quiet_startChannel {id : SessionId} (hr : t.reading = some i) (h : t.startChannel i a id env = some t') :
    Quiet t t' := by
  simp only [startChannel] at h
  obtain ⟨u, -, h⟩ := Option.bind_eq_some_iff.mp h
  obtain ⟨t₁, h₁, h⟩ := Option.bind_eq_some_iff.mp h
  obtain rfl := Option.some.inj h
  refine (quiet_reregister (t.channel i).address a).trans (Quiet.trans ?_ ((quiet_parts.checkSoft h₁).trans (quiet_notify _)))
  refine quiet_setChannel (TcpChannel.queued_handleStart _ _) (fun _ => .inr (.inr ?_))
  rw [reading_reregister]
  exact hr

theorem passes_handleStart {id : SessionId} (hr : t.reading = some i) (h : t.handleStart i a id env = some t') :
    Passes t t' := by
  unfold handleStart at h
  split at h
  · obtain rfl := Option.some.inj h
    exact .inl quiet_dropChannel
  · split at h
    · exact .inl (quiet_startChannel hr h)
    · rename_i other hother
      split at h
      · cases h
      · rename_i hne
        have hread : Quiet t (t.setChannel other ((t.channel other).readState env.error)) := by
          refine quiet_setChannel ?_ (fun hc => .inl (TcpChannel.connected_readState hc))
          rw [TcpChannel.queued_readState]
        refine hread.passes ?_
        have hr₁ : (t.setChannel other ((t.channel other).readState env.error)).reading = some i := hr
        generalize t.setChannel other ((t.channel other).readState env.error) = t₁ at h hr₁
        have hdrop : ∀ {t'}, (t₁.dropChannel other).startChannel i a id env = some t' → Passes t₁ t' :=
          fun h => .inl (quiet_dropChannel.trans (quiet_startChannel hr₁ h))
        simp only at h
        split at h
        · split at h
          · obtain rfl := Option.some.inj h
            exact .inl quiet_dropChannel
          · have hlost : t₁.reading ≠ some other := fun he => hne (Option.some.inj (he.symm.trans hr₁))
            refine (passes_lostConnection hlost).quiet (quiet_startChannel ?_ h)
            rw [reading_lostConnection]
            exact hr₁
        · split at h
          · obtain rfl := Option.some.inj h
            exact .inl quiet_dropChannel
          · exact hdrop h
        · split at h
          · obtain rfl := Option.some.inj h
            exact .inl quiet_dropChannel
          · exact hdrop h
        · exact hdrop h

theorem quiet_handleAck (hr : t.reading = some i) (h : t.handleAck i env = some t') : Quiet t t' := by
  simp only [handleAck] at h
  obtain ⟨t₁, h₁, h⟩ := Option.bind_eq_some_iff.mp h
  obtain ⟨id, -, h⟩ := Option.bind_eq_some_iff.mp h
  obtain rfl := Option.some.inj h
  refine Quiet.trans (quiet_setChannel ?_ (fun _ => .inr (.inr hr))) ((quiet_parts.checkSoft h₁).trans (quiet_notify _))
  rw [TcpChannel.queued_handleAck]

theorem quiet_handleData (h : t.handleData i = some t') : Quiet t t' := by
  simp only [handleData] at h
  obtain ⟨id, -, h⟩ := Option.bind_eq_some_iff.mp h
  obtain rfl := Option.some.inj h
  exact quiet_setChannel (List.Sublist.refl _) .inl

theorem passes_handleBye (hr : t.reading ≠ some i) : Passes t (t.handleBye i env) := by
  have hset : Quiet t (t.setChannel i ((t.channel i).handleBye (env.taken i))) :=
    quiet_setChannel TcpChannel.queued_handleBye (fun hc => .inl (TcpChannel.connected_handleBye hc))
  have hr₁ : (t.setChannel i ((t.channel i).handleBye (env.taken i))).reading ≠ some i := hr
  unfold handleBye
  refine hset.passes ?_
  generalize t.setChannel i ((t.channel i).handleBye (env.taken i)) = t₁ at hr₁
  simp only
  split
  · rename_i addr id hst
    refine (quiet_deregister.trans (quiet_notify (.connectionClosed addr id))).passes
      (passes_rejectOutbound (fun hm => ?_) hr₁ ?_)
    · exact absurd rfl (of_decide_eq_true (List.mem_filter.mp hm).2)
    · exact congrArg ChannelState.isConnected hst
  · exact .inl quiet_refl
  · exact .inl quiet_dropChannel

theorem handleBye_endRead : (t.handleBye i env).endRead = t.endRead.handleBye i env := by
  unfold handleBye
  have hs : ((t.endRead.setChannel i ((t.endRead.channel i).handleBye (env.taken i))).channel i).state =
      ((t.setChannel i ((t.channel i).handleBye (env.taken i))).channel i).state := rfl
  simp only
  rw [hs]
  cases ((t.setChannel i ((t.channel i).handleBye (env.taken i))).channel i).state <;> rfl

theorem passes_handleFrame {f : NetFrame α} (hr : t.reading = some i) (h : t.handleFrame i f env = some t') :
    Passes t t' := by
  cases f with
  | data msg => exact .inl (quiet_handleData h)
  | start addr id =>
    obtain ⟨t₁, h₁, rfl⟩ := Option.map_eq_some_iff.mp h
    exact (passes_handleStart hr h₁).quiet quiet_endRead
  | hello addr =>
    obtain rfl := Option.some.inj h
    exact .inl quiet_handleHello
  | ack => exact .inl (quiet_handleAck hr h)
  | bye =>
    obtain rfl := Option.some.inj h
    rw [handleBye_endRead]
    exact quiet_endRead.passes (passes_handleBye (fun he => by cases he))

/-! ## Other events -/

theorem passes_writeTcp {res : DrainResult} (hr : t.reading = none) : Passes t (t.writeTcp i res env) := by
  have hdrain : Quiet t ((t.updateLru i).setChannel i ((t.channel i).tryDrain (env.taken i))) := by
    refine quiet_updateLru.trans (quiet_setChannel ?_ (fun hc => .inl ?_))
    · rw [channel_updateLru]
      exact TcpChannel.queued_tryDrain
    · rw [channel_updateLru]
      exact hc
  have hr₁ : ((t.updateLru i).setChannel i ((t.channel i).tryDrain (env.taken i))).reading = none := by
    rw [reading_setChannel, reading_updateLru]
    exact hr
  unfold writeTcp
  refine hdrain.passes ?_
  generalize (t.updateLru i).setChannel i ((t.channel i).tryDrain (env.taken i)) = t₁ at hr₁
  have hne : t₁.reading ≠ some i := by
    rw [hr₁]
    exact fun he => by cases he
  cases res with
  | brokenPipe => exact passes_lostConnection hne
  | error => exact .inl quiet_refl
  | ok =>
    simp only
    split
    · rename_i addr id hst
      have hset : Quiet t₁ (t₁.setChannel i { t₁.channel i with state := .closed addr id }) :=
        quiet_setChannel (List.Sublist.refl _) (fun hc => by cases hc)
      refine (hset.trans (quiet_deregister.trans (quiet_notify _))).passes
        (passes_rejectOutbound (fun hm => ?_) hne ?_)
      · exact absurd rfl (of_decide_eq_true (List.mem_filter.mp hm).2)
      · show ((t₁.setChannel i { t₁.channel i with state := .closed addr id }).channel i).connected = false
        rw [channel_setChannel, if_pos rfl]
        rfl
    · exact .inl quiet_refl

/-- Every event of the network. -/
theorem passes_step {act : Action α} (h : t.step act = some t') : Passes t t' := by
  cases act with
  | accept addr env =>
    obtain ⟨-, rfl⟩ := step_accept h
    exact .inl quiet_receiveStream
  | write i res env =>
    obtain ⟨hr, -, rfl⟩ := step_write h
    exact passes_writeTcp hr
  | beginRead i =>
    obtain ⟨-, hi, rfl⟩ := step_beginRead h
    exact .inl (quiet_beginRead hi)
  | read frame env =>
    obtain ⟨i, hr, h⟩ := Option.bind_eq_some_iff.mp h
    exact passes_handleFrame hr h
  | endRead =>
    obtain ⟨i, -, rfl⟩ := Option.map_eq_some_iff.mp h
    exact .inl quiet_endRead
  | resetRead env =>
    obtain ⟨i, -, rfl⟩ := Option.map_eq_some_iff.mp h
    exact passes_lostRead
  | noBuffers env =>
    obtain ⟨i, -, rfl⟩ := Option.map_eq_some_iff.mp h
    split
    · exact .inl quiet_endRead
    · exact quiet_updateLru.passes passes_lostRead

/-- Every event of the dispatcher but messages. -/
theorem quiet_handleDispatchEvent {ev : DispatchEvent (DispatchData α)} (h : ∀ addr data, ev ≠ .sendTcp addr data) :
    Quiet t (t.handleDispatchEvent env ev) :=
  quiet_parts.handleDispatchEvent (fun addr data he => absurd he (h addr data)) (fun _ _ => quiet_requestStream)

/-! ## Messages of the dispatcher -/

/-- The message is refused. -/
structure Refuses (t t' : NetworkThread α) (a : SocketAddr) (data : DispatchData α) : Prop where
  history : t'.history = t.history
  rejected : ∀ b, rejectedFor b t'.toDispatcher =
    rejectedFor b t.toDispatcher ++ if b = a then data.msg?.toList else []
  queued : ∀ i, (t'.channel i).queuedMessages = (t.channel i).queuedMessages
  dead : ∀ i, t.Dead i → t'.Dead i
  bounded : t.Bounded → t'.Bounded
  token : t'.token = t.token

/-- The message is queued on channel `i`. -/
structure Queues (t t' : NetworkThread α) (i : Nat) (data : DispatchData α) : Prop where
  history : t'.history = t.history ++ [.enqueued i data.intoSerialised]
  rejected : ∀ a, rejectedFor a t'.toDispatcher = rejectedFor a t.toDispatcher
  queued : ∀ j, (t'.channel j).queuedMessages =
    (t.channel j).queuedMessages ++ if j = i then data.msg?.toList else []
  dead : ∀ i, t.Dead i → t'.Dead i
  bounded : t.Bounded → t'.Bounded
  token : t'.token = t.token

variable {data : DispatchData α}

theorem refuses_reject : Refuses t (t.rejectDispatchData a data) a data := by
  refine ⟨rfl, fun b => ?_, fun _ => rfl, fun _ h => ⟨h.lt, h.polled, h.reading, h.connected⟩, fun h => h, rfl⟩
  refine (rejectedFor_append _ _ _).trans (congrArg _ ?_)
  exact rejectedFor_cons.trans (List.append_nil _)

theorem serialise_eq {f : NetFrame α} {ok : Bool} (h : serialiseDispatchData data ok = some f) :
    f = data.intoSerialised := by
  cases data with
  | serialised frame => exact (Option.some.inj h).symm
  | lazy msg =>
    simp only [serialiseDispatchData] at h
    split at h
    · exact (Option.some.inj h).symm
    · cases h

theorem queues_enqueue (hc : (t.channel i).connected = true) :
    Queues t { t.setChannel i ((t.channel i).enqueueSerialised data.intoSerialised) with
      history := t.history ++ [.enqueued i data.intoSerialised] } i data := by
  have hset : Quiet t (t.setChannel i { t.channel i with outboundQueue := [] }) :=
    quiet_setChannel (List.nil_sublist _) .inl
  refine ⟨rfl, fun _ => rfl, fun j => ?_, fun j hj => ⟨hj.lt, hj.polled, hj.reading, ?_⟩, hset.bounded, rfl⟩
  · show ((t.setChannel i _).channel j).queuedMessages = _
    rw [channel_setChannel]
    split
    · subst_vars
      refine (messagesIn_append _ _).trans (congrArg _ ?_)
      exact (filterMap_cons_toList _ _ _).trans (List.append_nil _)
    · exact (List.append_nil _).symm
  · show ((t.setChannel i _).channel j).connected = false
    rw [channel_setChannel]
    split
    · subst_vars; exact hj.connected
    · exact hj.connected

/-- What becomes of a message. -/
theorem sendTcpMessage_cases (t : NetworkThread α) (a : SocketAddr) (data : DispatchData α) (env : Env) :
    Refuses t (t.sendTcpMessage a data env) a data ∨ Quiet t (t.sendTcpMessage a data env) ∨
      ∃ i, t.addressMap.lookup a = some i ∧ (t.channel i).connected = true ∧
        Queues t (t.sendTcpMessage a data env) i data := by
  unfold sendTcpMessage
  split
  · rename_i i hi
    have hlru := quiet_updateLru (t := t) (i := i)
    simp only
    split
    · rename_i hc
      split
      · rename_i f hf
        obtain rfl := serialise_eq hf
        refine .inr (.inr ⟨i, hi, by rwa [channel_updateLru] at hc, ?_⟩)
        have hq : Queues (t.updateLru i) _ i data := queues_enqueue hc
        refine ⟨?_, fun b => (hq.rejected b).trans (hlru.rejected b), fun j => ?_,
          fun j hj => hq.dead j (hlru.dead j hj), fun hb => hq.bounded (hlru.bounded hb), ?_⟩
        · rw [hq.history, hlru.history]
        · rw [hq.queued, channel_updateLru]
        · rw [hq.token, token_updateLru]
      · exact .inr (.inl hlru)
    · have hr : Refuses (t.updateLru i) _ a data := refuses_reject
      refine .inl ⟨hr.history.trans hlru.history, fun b => ?_, fun j => ?_, fun j hj => hr.dead j (hlru.dead j hj),
        fun hb => hr.bounded (hlru.bounded hb), ?_⟩
      · rw [hr.rejected, toDispatcher_updateLru]
      · rw [hr.queued, channel_updateLru]
      · rw [hr.token, token_updateLru]
  · exact .inl refuses_reject

end NetworkThread

end Kompact
