import Kompact.Framework.Lru
import Kompact.Network.Discipline

/-!
# The limits on connections

The token map is a cache whose capacity is the hard limit. It never holds more
channels than that, and a stream is only stored where there is room, so that
the cache never evicts a channel.

The soft limit is checked whenever a handshake completes, while the channel is
borrowed. No connected channel has been used since (`ReadLast`), so that the
oldest active channel is another one. But it is found by its token and closed
by its address: with more active connections than the soft limit the check
closes the least recently used connected channel exactly where this is the
channel registered for its address (`keepsLimits_iff`). A peer that says
`Hello` twice breaks this.
-/

namespace Kompact

namespace NetworkThread

variable {α : Type}

def countActiveConnections (t : NetworkThread α) (busy : Nat) : Nat := (t.tokenMap.filter (t.active busy)).length

def isConnected (t : NetworkThread α) (j : Nat) : Bool := (t.channel j).connected

/-- The least recently used channel that is connected. -/
def lruConnected (t : NetworkThread α) : Option Nat := Lru.oldest t.isConnected t.tokenMap

/-- The soft limit closes one channel: the least recently used one that is
connected, which is not the borrowed one. -/
structure ClosesLru (t : NetworkThread α) (busy : Nat) (env : Env) (v : Nat) (t' : NetworkThread α) : Prop where
  least : t.lruConnected = some v
  other : v ≠ busy
  returns : t.checkSoftConnectionLimit busy env = some t'
  closing : t'.channel v = (t.channel v).initiateGracefulShutdown (env.taken v)
  alone : ∀ j, j ≠ v → t'.channel j = t.channel j
  polled : ∀ j, j ∈ t'.tokenMap ↔ j ∈ t.tokenMap
  registered : t'.addressMap = t.addressMap

/-- The least recently used connected channel is the one registered for its address. -/
def LruRegistered (t : NetworkThread α) : Prop :=
  ∀ v, t.lruConnected = some v → t.addressMap.lookup (t.channel v).address = some v

instance (t : NetworkThread α) : Decidable t.LruRegistered :=
  decidable_of_iff (∀ v ∈ t.lruConnected, t.addressMap.lookup (t.channel v).address = some v) Iff.rfl

/-- The thread as `request_stream` goes on to open a stream. -/
def requestFrom (t : NetworkThread α) (addr : SocketAddr) : Option (NetworkThread α) :=
  match t.addressMap.lookup addr with
  | some i =>
    match (t.channel i).state with
    | .connected _ _ => none
    | .closed _ _ => none
    | _ => some (t.dropChannel i)
  | none => some t

/-- The thread as `handle_start` has started the channel. -/
def started (t : NetworkThread α) (i : Nat) (addr : SocketAddr) (id : SessionId) (env : Env) : NetworkThread α :=
  t.renameChannel i addr ((t.channel i).handleStart addr id (env.taken i))

/-- The thread as `handle_start` checks the soft limit, if it comes to this. -/
def startCheck (t : NetworkThread α) (i : Nat) (addr : SocketAddr) (id : SessionId) (env : Env) :
    Option (NetworkThread α) :=
  if t.blockList.socketAddrIsBlocked addr ∨ !env.retriesLeft then none
  else match t.addressMap.lookup addr with
    | none => some (t.started i addr id env)
    | some other =>
      if other = i ∨ t.yields addr id env.error then none
      else
        let t₁ := t.setChannel other ((t.channel other).readState env.error)
        if (t₁.channel other).connected then some ((t₁.lostConnection other env).started i addr id env)
        else some ((t₁.dropChannel other).started i addr id env)

end NetworkThread

/-- A check of the soft limit while a channel is borrowed. -/
structure SoftCheck (α : Type) where
  busy : Nat
  thread : NetworkThread α
  env : Env

namespace RunLoop

open NetworkThread

variable {α : Type}

/-- The thread as `store_stream` is called, if the event makes this happen. -/
def storesAt (r : RunLoop α) : Action α → Option (NetworkThread α)
  | .dispatch (.connect addr) env =>
    if r.thread.reading = none ∧ r.thread.blockList.socketAddrIsBlocked addr = false then
      (r.thread.requestFrom addr).filter fun t => !t.hardLimitReached && env.ok
    else none
  | .network (.accept addr env) =>
    if r.stopped = false ∧ r.thread.reading = none ∧ r.thread.accepts addr env = true then some r.thread else none
  | _ => none

/-- The check of the soft limit, if the event makes this happen. -/
def softCheck (r : RunLoop α) : Action α → Option (SoftCheck α)
  | .network (.read .ack env) =>
    if r.stopped then none
    else r.thread.reading.map fun i => ⟨i, r.thread.setChannel i (r.thread.channel i).handleAck, env⟩
  | .network (.read (.start addr id) env) =>
    if r.stopped then none
    else r.thread.reading.bind fun i => (r.thread.startCheck i addr id env).map fun t => ⟨i, t, env⟩
  | _ => none

/-- The limits are kept where the event is handled: there are not too many
channels, storing one evicts none, and exceeding the soft limit closes the
least recently used connected one. -/
structure KeepsLimits (r : RunLoop α) (soft hard : Nat) (act : Action α) : Prop where
  bounded : r.thread.tokenMap.length ≤ hard
  stores : ∀ t, r.storesAt act = some t →
    ∃ r', r.step act = some r' ∧ Lru.put hard t.token t.tokenMap = (none, r'.thread.tokenMap)
  closes : ∀ c, r.softCheck act = some c → soft < c.thread.countActiveConnections c.busy →
    ∃ v t', c.thread.ClosesLru c.busy c.env v t' ∧ ∀ r', r.step act = some r' → r'.thread.channel = t'.channel

/-- The least recently used connected channel is registered for its address where it is to be closed. -/
def RegistersLru (r : RunLoop α) (soft : Nat) (act : Action α) : Prop :=
  ∀ c ∈ r.softCheck act, soft < c.thread.countActiveConnections c.busy → c.thread.LruRegistered

instance (r : RunLoop α) (soft : Nat) (act : Action α) : Decidable (r.RegistersLru soft act) :=
  inferInstanceAs (Decidable (∀ c ∈ r.softCheck act, _ → _))

end RunLoop

namespace NetworkThread

variable {α : Type} {t t' t'' : NetworkThread α} {a b : SocketAddr} {i j v busy : Nat} {c : TcpChannel α} {env : Env}
  {soft hard : Nat}

theorem tokenMap_updateLru : (t.updateLru i).tokenMap = Lru.touch i t.tokenMap := by
  unfold updateLru Lru.touch
  split
  · rfl
  · rfl

/-! ## Parts of a step that store no stream -/

/-- No stream is stored: the limits and the next token are as before, and some
channels may not be polled any more. -/
structure Fewer (t t' : NetworkThread α) : Prop where
  soft : t'.softConnectionLimit = t.softConnectionLimit
  hard : t'.hardConnectionLimit = t.hardConnectionLimit
  token : t'.token = t.token
  tokenMap : t'.tokenMap.Subperm t.tokenMap

theorem Fewer.refl (t : NetworkThread α) : Fewer t t := ⟨rfl, rfl, rfl, .refl _⟩

theorem Fewer.trans (h : Fewer t t') (h' : Fewer t' t'') : Fewer t t'' :=
  ⟨h'.soft.trans h.soft, h'.hard.trans h.hard, h'.token.trans h.token, h'.tokenMap.trans h.tokenMap⟩

theorem fewer_setChannel : Fewer t (t.setChannel i c) := ⟨rfl, rfl, rfl, .refl _⟩

theorem fewer_notify {status : NetworkStatus} : Fewer t (t.notifyNetworkStatus status) := ⟨rfl, rfl, rfl, .refl _⟩

theorem fewer_updateLru : Fewer t (t.updateLru i) := by
  refine ⟨?_, ?_, token_updateLru, ?_⟩
  · unfold updateLru
    split
    · rfl
    · rfl
  · unfold updateLru
    split
    · rfl
    · rfl
  · rw [tokenMap_updateLru]
    exact Lru.touch_subperm

theorem fewer_reregister : Fewer t (t.reregisterChannelAddress a b) := by
  unfold reregisterChannelAddress
  split
  · exact ⟨rfl, rfl, rfl, .refl _⟩
  · exact .refl t

theorem fewer_deregister : Fewer t (t.deregisterChannel i) := ⟨rfl, rfl, rfl, List.filter_sublist.subperm⟩

theorem fewer_dropChannel : Fewer t (t.dropChannel i) := ⟨rfl, rfl, rfl, List.filter_sublist.subperm⟩

theorem fewer_rejectOutbound : Fewer t (t.rejectOutboundForChannel i) := ⟨rfl, rfl, rfl, .refl _⟩

theorem fewer_lostConnection : Fewer t (t.lostConnection i env) := by
  have hbury : ∀ t : NetworkThread α, Fewer t (t.bury i env) := fun t =>
    (fewer_rejectOutbound.trans fewer_setChannel).trans fewer_deregister
  rw [lostConnection_eq]
  split
  · exact fewer_notify.trans (hbury _)
  · exact hbury _

theorem fewer_parts : KeptByParts (Fewer (α := α)) where
  refl := .refl
  trans h h' := h.trans h'
  notify _ _ _ := fewer_notify
  setBlockList _ _ := ⟨rfl, rfl, rfl, .refl _⟩
  dropChannel _ _ := fewer_dropChannel
  close _ _ _ := fewer_setChannel.trans fewer_updateLru

theorem fewer_handleHello : Fewer t (t.handleHello i a env) := by
  unfold handleHello
  split
  · exact fewer_dropChannel
  · exact fewer_reregister.trans fewer_setChannel

theorem fewer_started {id : SessionId} : Fewer t (t.started i a id env) := fewer_reregister.trans fewer_setChannel

theorem fewer_startChannel {id : SessionId} (h : t.startChannel i a id env = some t') : Fewer t t' := by
  obtain ⟨t₁, h₁, rfl⟩ := startChannel_eq h
  exact (fewer_started.trans (fewer_parts.checkSoft h₁)).trans fewer_notify

theorem fewer_handleStart {id : SessionId} (h : t.handleStart i a id env = some t') : Fewer t t' := by
  rcases handleStart_cases h with ⟨-, rfl⟩ | ⟨-, ⟨-, hs⟩ | ⟨other, t₁, -, -, ht₁, hs⟩⟩
  · exact fewer_dropChannel
  · exact fewer_startChannel hs
  · have h₁ : Fewer t t₁ := ht₁ ▸ fewer_setChannel
    rcases hs with ⟨-, rfl⟩ | ⟨-, hs | hs⟩
    · exact h₁.trans fewer_dropChannel
    · exact (h₁.trans fewer_lostConnection).trans (fewer_startChannel hs)
    · exact (h₁.trans fewer_dropChannel).trans (fewer_startChannel hs)

theorem fewer_handleAck (h : t.handleAck i env = some t') : Fewer t t' := by
  obtain ⟨t₁, h₁, h⟩ := Option.bind_eq_some_iff.mp h
  obtain ⟨id, -, h⟩ := Option.bind_eq_some_iff.mp h
  obtain rfl := Option.some.inj h
  exact (fewer_setChannel.trans (fewer_parts.checkSoft h₁)).trans fewer_notify

theorem fewer_handleData (h : t.handleData i = some t') : Fewer t t' := by
  obtain ⟨id, -, h⟩ := Option.bind_eq_some_iff.mp h
  obtain rfl := Option.some.inj h
  exact fewer_setChannel

theorem fewer_handleBye : Fewer t (t.handleBye i env) := by
  unfold handleBye
  simp only
  split
  · exact ((fewer_setChannel.trans fewer_deregister).trans fewer_notify).trans fewer_rejectOutbound
  · exact fewer_setChannel
  · exact fewer_setChannel.trans fewer_dropChannel

theorem fewer_endRead : Fewer t t.endRead := ⟨rfl, rfl, rfl, .refl _⟩

theorem fewer_handleFrame {frame : NetFrame α} (h : t.handleFrame i frame env = some t') : Fewer t t' := by
  cases frame with
  | data msg => exact fewer_handleData h
  | hello addr =>
    obtain rfl := Option.some.inj h
    exact fewer_handleHello
  | start addr id =>
    obtain ⟨t₁, h₁, rfl⟩ := Option.map_eq_some_iff.mp h
    exact (fewer_handleStart h₁).trans fewer_endRead
  | ack => exact fewer_handleAck h
  | bye =>
    obtain rfl := Option.some.inj h
    exact fewer_handleBye.trans fewer_endRead

theorem fewer_writeTcp {res : DrainResult} : Fewer t (t.writeTcp i res env) := by
  have hd : Fewer t ((t.updateLru i).setChannel i ((t.channel i).tryDrain (env.taken i))) :=
    fewer_updateLru.trans fewer_setChannel
  unfold writeTcp
  cases res with
  | brokenPipe => exact hd.trans fewer_lostConnection
  | error => exact hd
  | ok =>
    simp only
    split
    · exact hd.trans (((fewer_setChannel.trans fewer_deregister).trans fewer_notify).trans fewer_rejectOutbound)
    · exact hd

theorem fewer_sendTcpMessage {data : DispatchData α} : Fewer t (t.sendTcpMessage a data env) := by
  unfold sendTcpMessage
  split
  · simp only
    split
    · split
      · exact fewer_updateLru.trans ⟨rfl, rfl, rfl, .refl _⟩
      · exact fewer_updateLru
    · exact fewer_updateLru.trans ⟨rfl, rfl, rfl, .refl _⟩
  · exact ⟨rfl, rfl, rfl, .refl _⟩

theorem fewer_handleDispatchEvent {ev : DispatchEvent (DispatchData α)} (hev : ∀ addr, ev ≠ .connect addr) :
    Fewer t (t.handleDispatchEvent env ev) :=
  fewer_parts.handleDispatchEvent (fun _ _ _ => fewer_sendTcpMessage) (fun addr he => absurd he (hev addr))

theorem fewer_stopAll (addrs : List SocketAddr) (t : NetworkThread α) : Fewer t (addrs.foldl (stopChannel env) t) := by
  induction addrs generalizing t with
  | nil => exact .refl t
  | cons a rest ih =>
    refine Fewer.trans ?_ (ih _)
    unfold stopChannel
    split
    · exact fewer_setChannel.trans fewer_deregister
    · exact .refl t

theorem fewer_stop : Fewer t (t.stop env) := by
  have hall : Fewer t (env.order.foldl (stopChannel env) t) := fewer_stopAll env.order t
  exact ⟨hall.soft, hall.hard, hall.token, hall.tokenMap⟩

/-! ## Storing a stream -/

theorem requestStream_none (h : t.requestFrom a = none) : t.requestStream a env = t := by
  unfold requestFrom at h
  unfold requestStream
  rcases hl : t.addressMap.lookup a with _ | i
  · rw [hl] at h
    cases h
  · rw [hl] at h
    simp only at h ⊢
    cases hst : (t.channel i).state with
    | connected addr id => rfl
    | closed addr id => rfl
    | _ => rw [hst] at h; cases h

theorem requestStream_some {t₁ : NetworkThread α} (h : t.requestFrom a = some t₁) :
    t.requestStream a env = t₁.openStream a env ∧ Fewer t t₁ := by
  unfold requestFrom at h
  unfold requestStream
  rcases hl : t.addressMap.lookup a with _ | i
  · rw [hl] at h
    obtain rfl := Option.some.inj h
    exact ⟨rfl, .refl t⟩
  · rw [hl] at h
    simp only at h ⊢
    cases hst : (t.channel i).state with
    | connected addr id => rw [hst] at h; cases h
    | closed addr id => rw [hst] at h; cases h
    | _ =>
      rw [hst] at h
      obtain rfl := Option.some.inj h
      exact ⟨rfl, fewer_dropChannel⟩

/-- A stream is stored where there is room and connecting succeeds. -/
theorem openStream_cases (t : NetworkThread α) (a : SocketAddr) (env : Env) :
    (!t.hardLimitReached && env.ok) = true ∧ t.hardLimitReached = false ∧
      t.openStream a env = t.storeStream a (.requested a env.id) env ∨
    (!t.hardLimitReached && env.ok) = false ∧ Fewer t (t.openStream a env) := by
  unfold openStream
  cases hfull : t.hardLimitReached with
  | true => exact .inr ⟨rfl, fewer_notify⟩
  | false =>
    cases hok : env.ok with
    | true => exact .inl ⟨rfl, rfl, rfl⟩
    | false => exact .inr ⟨rfl, .refl t⟩

theorem receiveStream_cases (t : NetworkThread α) (a : SocketAddr) (env : Env) :
    t.accepts a env = true ∧ t.hardLimitReached = false ∧
      t.receiveStream a env = t.storeStream a .initialising env ∨
    t.accepts a env = false ∧ Fewer t (t.receiveStream a env) := by
  unfold receiveStream accepts
  cases hblocked : t.blockList.ipAddrIsBlocked a.ip with
  | true => exact .inr ⟨rfl, .refl t⟩
  | false =>
    cases hfull : t.hardLimitReached with
    | true => exact .inr ⟨rfl, fewer_notify⟩
    | false =>
      cases hok : env.ok with
      | true => exact .inl ⟨rfl, rfl, rfl⟩
      | false => exact .inr ⟨rfl, .refl t⟩

/-! ## The channels that are polled -/

/-- Each token is used once, and the hard limit is kept. -/
structure Limited (t : NetworkThread α) (soft hard : Nat) : Prop where
  softLimit : t.softConnectionLimit = soft
  hardLimit : t.hardConnectionLimit = hard
  nodup : t.tokenMap.Nodup
  fresh : ∀ i ∈ t.tokenMap, i < t.token
  bound : t.tokenMap.length ≤ hard

theorem Limited.fewer (h : t.Limited soft hard) (hf : Fewer t t') : t'.Limited soft hard := by
  refine ⟨hf.soft.trans h.softLimit, hf.hard.trans h.hardLimit, ?_, fun i hi => ?_, hf.tokenMap.length_le.trans h.bound⟩
  · obtain ⟨l, hperm, hsub⟩ := hf.tokenMap
    exact hperm.nodup_iff.mp (h.nodup.sublist hsub)
  · rw [hf.token]
    exact h.fresh i (hf.tokenMap.subset hi)

theorem Limited.length_lt (h : t.Limited soft hard) (hfull : t.hardLimitReached = false) : t.tokenMap.length < hard := by
  have hn := of_decide_eq_false hfull
  rw [h.hardLimit] at hn
  exact Nat.not_le.mp hn

theorem Limited.token_not_mem (h : t.Limited soft hard) : t.token ∉ t.tokenMap := fun hm =>
  Nat.lt_irrefl _ (h.fresh _ hm)

/-- Storing a stream evicts no channel. -/
theorem Limited.put_token {st : ChannelState} (h : t.Limited soft hard) (hfull : t.hardLimitReached = false) :
    Lru.put hard t.token t.tokenMap = (none, (t.storeStream a st env).tokenMap) :=
  Lru.put_fits h.token_not_mem (h.length_lt hfull)

theorem Limited.storeStream {st : ChannelState} (h : t.Limited soft hard) (hfull : t.hardLimitReached = false) :
    (t.storeStream a st env).Limited soft hard where
  softLimit := h.softLimit
  hardLimit := h.hardLimit
  nodup := List.nodup_cons.mpr ⟨h.token_not_mem, h.nodup⟩
  fresh i hi := by
    show i < t.token + 1
    rcases List.mem_cons.mp hi with rfl | hi
    · exact Nat.lt_succ_self _
    · exact Nat.lt_succ_of_lt (h.fresh i hi)
  bound := h.length_lt hfull

/-! ## The channel that is being read -/

/-- No connected channel was used after this one. -/
def ReadLast (t : NetworkThread α) (i : Nat) : Prop := Lru.Foremost t.isConnected i t.tokenMap

/-- Only the channel itself may have changed among those that are still polled. -/
theorem ReadLast.of_sublist (h : t.ReadLast i) (hn : t.tokenMap.Nodup) (hm : t'.tokenMap.Sublist t.tokenMap)
    (hc : ∀ j ∈ t'.tokenMap, j ≠ i → t'.channel j = t.channel j) : t'.ReadLast i := by
  refine Lru.Foremost.mono (Lru.Foremost.sublist h hm) (hn.sublist hm) (fun j hj hne hconn => ?_)
  unfold isConnected at hconn ⊢
  rw [← hc j hj hne]
  exact hconn

theorem ReadLast.setChannel (h : t.ReadLast i) (hn : t.tokenMap.Nodup) : (t.setChannel i c).ReadLast i :=
  h.of_sublist hn (List.Sublist.refl _) (fun _ _ hne => channel_setChannel.trans (if_neg hne))

theorem ReadLast.dropChannel (h : t.ReadLast i) (hn : t.tokenMap.Nodup) : (t.dropChannel j).ReadLast i := by
  refine h.of_sublist hn List.filter_sublist (fun k hk _ => ?_)
  have hkj : k ≠ j := of_decide_eq_true (List.mem_filter.mp hk).2
  rw [dropChannel_eq, channel_discard, if_neg hkj]

theorem ReadLast.renameChannel (h : t.ReadLast i) (hn : t.tokenMap.Nodup) : (t.renameChannel i b c).ReadLast i := by
  have hm : (t.renameChannel i b c).tokenMap = t.tokenMap := tokenMap_reregister.1
  refine h.of_sublist hn (by rw [hm]) (fun j _ hne => ?_)
  show ((t.reregisterChannelAddress _ _).setChannel i _).channel j = _
  rw [channel_setChannel, if_neg hne, channel_reregister]

theorem not_connected_graceful (n : Nat) : (c.initiateGracefulShutdown n).connected = false := by
  cases hc : c.connected with
  | true =>
    obtain ⟨addr, id, -, hst, -⟩ := shutdown_spec hc n
    unfold TcpChannel.connected
    rw [hst]
    rfl
  | false =>
    unfold TcpChannel.initiateGracefulShutdown
    split
    · rename_i hst
      unfold TcpChannel.connected at hc
      rw [hst] at hc
      cases hc
    · exact hc

theorem ReadLast.closeConnection (h : t.ReadLast i) (hn : t.tokenMap.Nodup) : (t.closeConnection a env).ReadLast i := by
  unfold NetworkThread.closeConnection
  split
  · rename_i w _
    split
    · -- the channel that starts to close comes first, and is not connected any more
      let t₁ := t.setChannel w ((t.channel w).initiateGracefulShutdown (env.taken w))
      have hw : t₁.isConnected w = false := by
        unfold isConnected
        rw [channel_setChannel, if_pos rfl]
        exact not_connected_graceful _
      have h₁ : t₁.ReadLast i := by
        refine Lru.Foremost.mono h hn (fun j _ _ hconn => ?_)
        by_cases hj : j = w
        · subst hj
          rw [hw] at hconn
          cases hconn
        · unfold isConnected at hconn ⊢
          rw [channel_setChannel, if_neg hj] at hconn
          exact hconn
      have hch : (t₁.updateLru w).isConnected = t₁.isConnected := by
        unfold isConnected
        rw [channel_updateLru]
      unfold ReadLast
      rw [hch, tokenMap_updateLru]
      exact Lru.Foremost.touch h₁ hw
    · exact h.dropChannel hn
  · exact h

theorem ReadLast.checkSoft (h : t.ReadLast i) (hn : t.tokenMap.Nodup) (hs : t.checkSoftConnectionLimit busy env = some t') :
    t'.ReadLast i := by
  rcases checkSoft_cases hs with rfl | ⟨j, -, -, -, rfl⟩
  · exact h
  · exact ReadLast.closeConnection (t := t.notifyNetworkStatus _) h hn

theorem ReadLast.handleAck (h : t.ReadLast i) (hn : t.tokenMap.Nodup) (hs : t.handleAck i env = some t') :
    t'.ReadLast i := by
  obtain ⟨t₁, h₁, hs⟩ := Option.bind_eq_some_iff.mp hs
  obtain ⟨id, -, hs⟩ := Option.bind_eq_some_iff.mp hs
  obtain rfl := Option.some.inj hs
  have h₂ : t₁.ReadLast i := (h.setChannel hn).checkSoft hn h₁
  exact h₂

theorem ReadLast.handleHello (h : t.ReadLast i) (hn : t.tokenMap.Nodup) : (t.handleHello i a env).ReadLast i := by
  rw [handleHello_eq]
  split
  · exact h.dropChannel hn
  · exact h.renameChannel hn

/-- While a channel is being read no connected channel is used. -/
def Reads (t : NetworkThread α) : Prop := ∀ i ∈ t.reading, t.ReadLast i

theorem reads_of_idle (h : t.reading = none) : t.Reads := by
  intro i hi
  rw [h] at hi
  cases hi

theorem Reads.handleFrame {frame : NetFrame α} (hread : t.reading = some i) (h : t.ReadLast i) (hn : t.tokenMap.Nodup)
    (hs : t.handleFrame i frame env = some t') : t'.Reads := by
  have hstill : ∀ {t₁ : NetworkThread α}, t₁.reading = t.reading → t₁.ReadLast i → t₁.Reads := by
    intro t₁ hr h₁ j hj
    rw [hr, hread] at hj
    obtain rfl := Option.some.inj hj
    exact h₁
  cases frame with
  | data msg =>
    refine hstill (reading_handleData hs) ?_
    obtain ⟨id, -, hs⟩ := Option.bind_eq_some_iff.mp hs
    obtain rfl := Option.some.inj hs
    exact h.setChannel hn
  | hello addr =>
    obtain rfl := Option.some.inj hs
    exact hstill reading_handleHello (h.handleHello hn)
  | start addr id =>
    obtain ⟨t₁, -, rfl⟩ := Option.map_eq_some_iff.mp hs
    exact reads_of_idle rfl
  | ack => exact hstill (reading_handleAck hs) (h.handleAck hn hs)
  | bye =>
    obtain rfl := Option.some.inj hs
    exact reads_of_idle rfl

/-- An event of the network other than a stream that is accepted. -/
theorem Reads.step {act : Action α} (h : t.Reads) (hn : t.tokenMap.Nodup) (hs : t.step act = some t') : t'.Reads := by
  cases act with
  | accept addr env =>
    obtain ⟨hr, rfl⟩ := step_accept hs
    exact reads_of_idle (reading_receiveStream.trans hr)
  | write i res env =>
    obtain ⟨hr, -, rfl⟩ := step_write hs
    exact reads_of_idle (reading_writeTcp.trans hr)
  | beginRead i =>
    obtain ⟨-, -, rfl⟩ := step_beginRead hs
    intro j hj
    obtain rfl := Option.some.inj hj
    show Lru.Foremost _ i (t.updateLru i).tokenMap
    rw [tokenMap_updateLru]
    exact Lru.foremost_touch
  | read frame env =>
    obtain ⟨i, hi, hs⟩ := Option.bind_eq_some_iff.mp hs
    exact Reads.handleFrame hi (h i hi) hn hs
  | endRead =>
    obtain ⟨i, -, rfl⟩ := Option.map_eq_some_iff.mp hs
    exact reads_of_idle rfl
  | resetRead env =>
    obtain ⟨i, -, rfl⟩ := Option.map_eq_some_iff.mp hs
    exact reads_of_idle rfl
  | noBuffers env =>
    obtain ⟨i, -, rfl⟩ := Option.map_eq_some_iff.mp hs
    refine reads_of_idle ?_
    split
    · rfl
    · rfl

/-! ## The soft limit -/

theorem closeConnection_others (h : t.addressMap.lookup a ≠ some v) :
    (t.closeConnection a env).channel v = t.channel v := by
  unfold closeConnection
  split
  · rename_i w hw
    have hne : v ≠ w := by
      rintro rfl
      exact h hw
    split
    · rw [channel_updateLru, channel_setChannel, if_neg hne]
    · rw [dropChannel_eq, channel_discard, if_neg hne]
  · rfl

/-- The check comes to the least recently used connected channel. -/
theorem checkSoft_exceeded (env : Env) (hb : t.Limited soft hard) (hr : t.ReadLast busy) (hsoft : 1 ≤ soft)
    (hover : soft < t.countActiveConnections busy) :
    ∃ v, t.lruConnected = some v ∧ v ≠ busy ∧ (t.channel v).connected = true ∧
      t.checkSoftConnectionLimit busy env =
        if t.addressMap.lookup (t.channel v).address = some busy then none
        else some ((t.notifyNetworkStatus .softConnectionLimitExceeded).closeConnection (t.channel v).address env) := by
  obtain ⟨v, hactive, hleast, hne, hconn⟩ : ∃ v, Lru.oldest (t.active busy) t.tokenMap = some v ∧
      Lru.oldest t.isConnected t.tokenMap = some v ∧ v ≠ busy ∧ t.isConnected v = true :=
    Lru.oldest_of_foremost hb.nodup hr (Nat.lt_of_le_of_lt hsoft hover)
  have hlen : soft < t.tokenMap.length := Nat.lt_of_lt_of_le hover (List.length_filter_le _ _)
  have hfind : t.tokenMap.reverse.find? (t.active busy) = some v := hactive
  have hover' : soft < (t.tokenMap.filter (t.active busy)).length := hover
  refine ⟨v, hleast, hne, hconn, ?_⟩
  unfold checkSoftConnectionLimit
  rw [hb.softLimit, if_pos ⟨hlen, hover'⟩, hfind]
  simp only [hne, false_or]

/-- With too many active connections the least recently used connected one is
closed exactly where it is registered for its address. -/
theorem closesLru_iff (hb : t.Limited soft hard) (hr : t.ReadLast busy) (hsoft : 1 ≤ soft)
    (hover : soft < t.countActiveConnections busy) :
    (∃ v t', t.ClosesLru busy env v t') ↔ t.LruRegistered := by
  obtain ⟨v, hleast, hne, hconn, hcheck⟩ := checkSoft_exceeded env hb hr hsoft hover
  constructor
  · rintro ⟨w, t', hc⟩ u hu
    obtain rfl : w = v := Option.some.inj (hc.least.symm.trans hleast)
    obtain rfl : w = u := Option.some.inj (hleast.symm.trans hu)
    by_contra hl
    -- the channel is left as it is
    obtain ⟨-, ht'⟩ := Option.ite_none_left_eq_some.mp (hcheck.symm.trans hc.returns)
    obtain rfl := Option.some.inj ht'
    have hsame : ((t.notifyNetworkStatus .softConnectionLimitExceeded).closeConnection (t.channel w).address env).channel w =
        t.channel w := closeConnection_others hl
    have hclosing := hc.closing
    rw [hsame] at hclosing
    rw [hclosing, not_connected_graceful] at hconn
    cases hconn
  · intro hreg
    have hl : t.addressMap.lookup (t.channel v).address = some v := hreg v hleast
    have hn : t.addressMap.lookup (t.channel v).address ≠ some busy := fun hb =>
      hne (Option.some.inj (hl.symm.trans hb))
    have hclose : (t.notifyNetworkStatus .softConnectionLimitExceeded).closeConnection (t.channel v).address env =
        ((t.notifyNetworkStatus .softConnectionLimitExceeded).setChannel v
          ((t.channel v).initiateGracefulShutdown (env.taken v))).updateLru v := by
      have hl' : (t.notifyNetworkStatus .softConnectionLimitExceeded).addressMap.lookup (t.channel v).address = some v := hl
      unfold closeConnection
      rw [hl']
      exact if_pos hconn
    rw [if_neg hn, hclose] at hcheck
    refine ⟨v, _, hleast, hne, hcheck, ?_, fun j hj => ?_, fun j => mem_updateLru, addressMap_updateLru⟩
    · rw [channel_updateLru, channel_setChannel, if_pos rfl]
    · rw [channel_updateLru, channel_setChannel, if_neg hj]
      rfl

/-! ## Where the soft limit is checked -/

theorem Merged.readLast {other : Nat} {t₁ : NetworkThread α} (h : Merged t i other t₁) (hr : t.ReadLast i)
    (hn : t.tokenMap.Nodup) : t₁.ReadLast i := by
  refine hr.of_sublist hn (by rw [h.tokenMap]; exact List.filter_sublist) (fun j hj _ => h.channel j ?_)
  rw [h.tokenMap] at hj
  exact of_decide_eq_true (List.mem_filter.mp hj).2

/-- What a `Start` does up to the check and after it. -/
structure ChecksStart (t : NetworkThread α) (i : Nat) (a : SocketAddr) (id : SessionId) (env : Env)
    (t₁ : NetworkThread α) : Prop where
  fewer : Fewer t t₁
  readLast : t.ReadLast i → t.tokenMap.Nodup → t₁.ReadLast i
  handleStart : t.handleStart i a id env =
    (t₁.checkSoftConnectionLimit i env).map (·.notifyNetworkStatus (.connectionEstablished a id))

theorem startChannel_started {id : SessionId} (hretry : env.retriesLeft = true) : t.startChannel i a id env =
    ((t.started i a id env).checkSoftConnectionLimit i env).map (·.notifyNetworkStatus (.connectionEstablished a id)) := by
  simp only [startChannel, channel_reregister, hretry]
  exact Option.map_eq_bind.symm

theorem startCheck_spec {id : SessionId} {t₁ : NetworkThread α} (hs : t.startCheck i a id env = some t₁) :
    ChecksStart t i a id env t₁ := by
  unfold startCheck at hs
  obtain ⟨hgo, hs⟩ := Option.ite_none_left_eq_some.mp hs
  obtain ⟨hblocked, hretry⟩ := not_or.mp hgo
  have hretry : env.retriesLeft = true := by simpa using hretry
  have heq : t.handleStart i a id env = _ := handleStart_eq
  rw [if_neg hblocked] at heq
  split at hs
  · rename_i hl
    obtain rfl := Option.some.inj hs
    rw [hl] at heq
    exact ⟨fewer_started, fun hr hn => hr.renameChannel hn, heq.trans (startChannel_started hretry)⟩
  · rename_i other hl
    obtain ⟨hstart, hs⟩ := Option.ite_none_left_eq_some.mp hs
    obtain ⟨hne, hy⟩ := not_or.mp hstart
    rw [hl] at heq
    simp only [if_neg hne, if_neg hy] at heq
    simp only at hs
    split at hs
    · rename_i hconn
      obtain rfl := Option.some.inj hs
      rw [if_pos hconn] at heq
      refine ⟨(fewer_setChannel.trans fewer_lostConnection).trans fewer_started, fun hr hn => ?_,
        heq.trans (startChannel_started hretry)⟩
      have hm : Merged t i other
          ((t.setChannel other ((t.channel other).readState env.error)).lostConnection other env) := merged_lost
      exact (hm.readLast hr hn).renameChannel (by rw [hm.tokenMap]; exact hn.filter _)
    · rename_i hconn
      obtain rfl := Option.some.inj hs
      rw [if_neg hconn] at heq
      refine ⟨(fewer_setChannel.trans fewer_dropChannel).trans fewer_started, fun hr hn => ?_,
        heq.trans (startChannel_started hretry)⟩
      have hm : Merged t i other ((t.setChannel other ((t.channel other).readState env.error)).dropChannel other) :=
        merged_dropped
      exact (hm.readLast hr hn).renameChannel (by rw [hm.tokenMap]; exact hn.filter _)

end NetworkThread

/-! ## Runs -/

namespace RunLoop

open NetworkThread

variable {α : Type} {r r' : RunLoop α} {act : Action α} {addr : SocketAddr} {soft hard : Nat}

/-- What a connection that is requested does to the token map. -/
theorem polls_connect {env : Env} (hs : r.step (.dispatch (.connect addr) env) = some r') :
    r.storesAt (.dispatch (.connect addr) env) = none ∧ Fewer r.thread r'.thread ∨
      ∃ t st, r.storesAt (.dispatch (.connect addr) env) = some t ∧ Fewer r.thread t ∧ t.hardLimitReached = false ∧
        r'.thread = t.storeStream addr st env := by
  obtain ⟨t', ht, rfl⟩ := Option.map_eq_some_iff.mp hs
  obtain ⟨hread, -, rfl⟩ := receiveDispatch_some ht
  unfold storesAt handleDispatchEvent
  simp only [hread, true_and]
  cases hb : r.thread.blockList.socketAddrIsBlocked addr with
  | true => exact .inl ⟨rfl, .refl _⟩
  | false =>
    simp only [Bool.false_eq_true, if_false, if_true]
    rcases hreq : r.thread.requestFrom addr with _ | t
    · rw [requestStream_none hreq]
      exact .inl ⟨rfl, .refl _⟩
    · obtain ⟨heq, hfewer⟩ : r.thread.requestStream addr env = t.openStream addr env ∧ Fewer r.thread t :=
        requestStream_some hreq
      rw [heq]
      rcases openStream_cases t addr env with ⟨hgo, hfull, hstore⟩ | ⟨hgo, hopen⟩
      · refine .inr ⟨t, .requested addr env.id, ?_, hfewer, hfull, hstore⟩
        rw [Option.filter_some, hgo]
        rfl
      · refine .inl ⟨?_, hfewer.trans hopen⟩
        rw [Option.filter_some, hgo]
        rfl

/-- What a stream that is accepted or refused does to the token map. -/
theorem polls_accept {env : Env} (hs : r.step (.network (.accept addr env)) = some r') :
    r.storesAt (.network (.accept addr env)) = none ∧ Fewer r.thread r'.thread ∨
      r.storesAt (.network (.accept addr env)) = some r.thread ∧ r.thread.hardLimitReached = false ∧
        r'.thread = r.thread.storeStream addr .initialising env := by
  obtain ⟨hstop, hs⟩ := Option.ite_none_left_eq_some.mp hs
  obtain ⟨t', ht, rfl⟩ := Option.map_eq_some_iff.mp hs
  obtain ⟨hread, rfl⟩ := step_accept ht
  unfold storesAt
  simp only [eq_false_of_ne_true hstop, hread, true_and]
  rcases receiveStream_cases r.thread addr env with ⟨hgo, hfull, hstore⟩ | ⟨hgo, hopen⟩
  · exact .inr ⟨if_pos hgo, hfull, hstore⟩
  · exact .inl ⟨if_neg (by rw [hgo]; exact Bool.false_ne_true), hopen⟩

theorem fewer_step {nact : NetworkThread.Action α} {t t' : NetworkThread α} (ha : ∀ addr env, nact ≠ .accept addr env)
    (hs : t.step nact = some t') : Fewer t t' := by
  cases nact with
  | accept addr env => exact absurd rfl (ha addr env)
  | write i res env =>
    obtain ⟨-, -, rfl⟩ := step_write hs
    exact fewer_writeTcp
  | beginRead i =>
    obtain ⟨-, -, rfl⟩ := step_beginRead hs
    have hf : Fewer t (t.updateLru i) := fewer_updateLru
    exact ⟨hf.soft, hf.hard, hf.token, hf.tokenMap⟩
  | read frame env =>
    obtain ⟨i, -, hs⟩ := Option.bind_eq_some_iff.mp hs
    exact fewer_handleFrame hs
  | endRead =>
    obtain ⟨i, -, rfl⟩ := Option.map_eq_some_iff.mp hs
    exact fewer_endRead
  | resetRead env =>
    obtain ⟨i, -, rfl⟩ := Option.map_eq_some_iff.mp hs
    exact fewer_lostConnection.trans fewer_endRead
  | noBuffers env =>
    obtain ⟨i, -, rfl⟩ := Option.map_eq_some_iff.mp hs
    split
    · exact fewer_endRead
    · exact (fewer_updateLru.trans fewer_lostConnection).trans fewer_endRead

/-- A step stores no stream, or it stores one where there is room for it. -/
theorem step_polls (hs : r.step act = some r') :
    r.storesAt act = none ∧ Fewer r.thread r'.thread ∨
      ∃ t a st env, r.storesAt act = some t ∧ Fewer r.thread t ∧ t.hardLimitReached = false ∧
        r'.thread = t.storeStream a st env := by
  rcases step_cases hs with ⟨ev, env, rfl, -, -, ht⟩ | ⟨env, rfl, -, -, ht⟩ | ⟨rfl, -, ht⟩ | ⟨nact, rfl, ht⟩
  · cases ev with
    | connect addr =>
      refine (polls_connect hs).imp_right (fun ⟨t, st, h⟩ => ?_)
      exact ⟨t, addr, st, env, h⟩
    | _ => exact .inl ⟨rfl, ht ▸ fewer_handleDispatchEvent (fun _ h => by cases h)⟩
  · exact .inl ⟨rfl, ht ▸ fewer_stop⟩
  · exact .inl ⟨rfl, ht ▸ ⟨rfl, rfl, rfl, .refl _⟩⟩
  · cases nact with
    | accept addr env =>
      refine (polls_accept hs).imp_right (fun ⟨h, hfull, hstore⟩ => ?_)
      exact ⟨r.thread, addr, .initialising, env, h, .refl _, hfull, hstore⟩
    | read frame env =>
      have hf : Fewer r.thread r'.thread := fewer_step (fun _ _ h => by cases h) ht
      cases frame with
      | _ => exact .inl ⟨rfl, hf⟩
    | _ => exact .inl ⟨rfl, fewer_step (fun _ _ h => by cases h) ht⟩

theorem reads_step (h : r.thread.Reads) (hn : r.thread.tokenMap.Nodup) (hs : r.step act = some r') :
    r'.thread.Reads := by
  rcases step_cases hs with ⟨ev, env, rfl, hread, -, ht⟩ | ⟨env, rfl, hread, -, ht⟩ | ⟨rfl, hread, ht⟩ | ⟨nact, rfl, ht⟩
  · rw [ht]
    exact reads_of_idle (reading_handleDispatchEvent.trans hread)
  · rw [ht]
    exact reads_of_idle ((stopAll_spec env.order r.thread).2.1.trans hread)
  · rw [ht]
    exact reads_of_idle hread
  · exact h.step hn ht

theorem limited_step (h : r.thread.Limited soft hard) (hs : r.step act = some r') : r'.thread.Limited soft hard := by
  rcases step_polls hs with ⟨-, hf⟩ | ⟨t, a, st, env, -, hf, hfull, ht⟩
  · exact h.fewer hf
  · rw [ht]
    exact (h.fewer hf).storeStream hfull

theorem limited_of_reach (h : Reach step (fun _ _ => True) (new addr soft hard) r) :
    r.thread.Limited soft hard ∧ r.thread.Reads := by
  refine Reach.invariant (fun r : RunLoop α => r.thread.Limited soft hard ∧ r.thread.Reads) ⟨?_, reads_of_idle rfl⟩
    (fun h _ hs => ⟨limited_step h.1 hs, reads_step h.2 h.1.nodup hs⟩) h
  exact ⟨rfl, rfl, List.nodup_nil, (fun i hi => by cases hi), Nat.zero_le hard⟩

/-- An event that stores a stream is handled. -/
theorem step_isSome_of_stores {t : NetworkThread α} (h : r.storesAt act = some t) : ∃ r', r.step act = some r' := by
  cases act with
  | dispatch ev env =>
    cases ev with
    | connect addr =>
      obtain ⟨hgo, -⟩ := Option.ite_none_right_eq_some.mp h
      have hev : r.thread.receiveDispatch (.connect addr) env = some (r.thread.handleDispatchEvent env (.connect addr)) :=
        if_pos ⟨hgo.1, (fun hv => by cases hv)⟩
      exact ⟨_, congrArg (Option.map _) hev⟩
    | _ => cases h
  | network nact =>
    cases nact with
    | accept addr env =>
      obtain ⟨⟨hstop, hread, -⟩, -⟩ := Option.ite_none_right_eq_some.mp h
      have hev : r.thread.step (.accept addr env) = some (r.thread.receiveStream addr env) := if_pos hread
      exact ⟨_, (if_neg (by rw [hstop]; exact Bool.false_ne_true)).trans (congrArg (Option.map _) hev)⟩
    | read frame env => cases frame with | _ => cases h
    | _ => cases h
  | _ => cases h

/-- The check is made while the channel is being read, and decides what becomes of the channels. -/
theorem softCheck_spec {c : SoftCheck α} (h : r.softCheck act = some c) :
    c.busy ∈ r.thread.reading ∧ Fewer r.thread c.thread ∧
      (r.thread.ReadLast c.busy → r.thread.tokenMap.Nodup → c.thread.ReadLast c.busy) ∧
      ∀ r', r.step act = some r' →
        ∃ t, c.thread.checkSoftConnectionLimit c.busy c.env = some t ∧ r'.thread.channel = t.channel := by
  cases act with
  | network nact =>
    cases nact with
    | read frame env =>
      cases frame with
      | ack =>
        obtain ⟨-, h⟩ := Option.ite_none_left_eq_some.mp h
        obtain ⟨i, hi, rfl⟩ := Option.map_eq_some_iff.mp h
        refine ⟨hi, fewer_setChannel, fun hr hn => hr.setChannel hn, fun r' hs => ?_⟩
        obtain ⟨-, hs⟩ := Option.ite_none_left_eq_some.mp hs
        obtain ⟨t', ht, rfl⟩ := Option.map_eq_some_iff.mp hs
        obtain ⟨j, hj, ht⟩ := Option.bind_eq_some_iff.mp ht
        obtain rfl : i = j := Option.some.inj (hi.symm.trans hj)
        obtain ⟨t₁, h₁, ht⟩ := Option.bind_eq_some_iff.mp ht
        obtain ⟨id, -, ht⟩ := Option.bind_eq_some_iff.mp ht
        obtain rfl := Option.some.inj ht
        exact ⟨t₁, h₁, rfl⟩
      | start addr id =>
        obtain ⟨-, h⟩ := Option.ite_none_left_eq_some.mp h
        obtain ⟨i, hi, h⟩ := Option.bind_eq_some_iff.mp h
        obtain ⟨t₁, h₁, rfl⟩ := Option.map_eq_some_iff.mp h
        have hc := startCheck_spec h₁
        refine ⟨hi, hc.fewer, hc.readLast, fun r' hs => ?_⟩
        obtain ⟨-, hs⟩ := Option.ite_none_left_eq_some.mp hs
        obtain ⟨t', ht, rfl⟩ := Option.map_eq_some_iff.mp hs
        obtain ⟨j, hj, ht⟩ := Option.bind_eq_some_iff.mp ht
        obtain rfl : i = j := Option.some.inj (hi.symm.trans hj)
        obtain ⟨t₂, h₂, rfl⟩ := Option.map_eq_some_iff.mp ht
        rw [hc.handleStart] at h₂
        obtain ⟨t₃, h₃, rfl⟩ := Option.map_eq_some_iff.mp h₂
        exact ⟨t₃, h₃, rfl⟩
      | _ => cases h
    | _ => cases h
  | _ => cases h

/-- In every run the limits are kept where the next event is handled if and
only if the least recently used connected channel, where it is to be closed, is
registered for its address. -/
theorem keepsLimits_iff (h : Reach step (fun _ _ => True) (new addr soft hard) r) (hsoft : 1 ≤ soft) (act : Action α) :
    r.KeepsLimits soft hard act ↔ r.RegistersLru soft act := by
  obtain ⟨hb, hreads⟩ := limited_of_reach h
  have hcheck : ∀ c, r.softCheck act = some c → soft < c.thread.countActiveConnections c.busy →
      ((∃ v t', c.thread.ClosesLru c.busy c.env v t') ↔ c.thread.LruRegistered) := by
    intro c hc hover
    obtain ⟨hbusy, hfewer, hlast, -⟩ := softCheck_spec hc
    exact closesLru_iff (hb.fewer hfewer) (hlast (hreads _ hbusy) hb.nodup) hsoft hover
  constructor
  · intro hk c hc hover
    obtain ⟨v, t', hcl, -⟩ := hk.closes c hc hover
    exact (hcheck c hc hover).mp ⟨v, t', hcl⟩
  · intro hreg
    refine ⟨hb.bound, fun t ht => ?_, fun c hc hover => ?_⟩
    · obtain ⟨r', hs⟩ := step_isSome_of_stores ht
      rcases step_polls hs with ⟨hn, -⟩ | ⟨t₁, a, st, env, ht₁, hf, hfull, heq⟩
      · rw [ht] at hn
        cases hn
      · obtain rfl : t = t₁ := Option.some.inj (ht.symm.trans ht₁)
        refine ⟨r', hs, ?_⟩
        rw [heq]
        exact (hb.fewer hf).put_token hfull
    · obtain ⟨v, t', hcl⟩ := (hcheck c hc hover).mpr (hreg c hc hover)
      refine ⟨v, t', hcl, fun r' hs => ?_⟩
      obtain ⟨-, -, -, hrest⟩ := softCheck_spec hc
      obtain ⟨t, ht, hch⟩ := hrest r' hs
      obtain rfl : t' = t := Option.some.inj (hcl.returns.symm.trans ht)
      exact hch

/-- The channel with this token is connected by a peer that calls itself `addr`. -/
def connecting (port : Nat) (i : Nat) (addr : SocketAddr) : List (Action Nat) :=
  [.dispatch (.connect (Dispatcher.localhost port)) { id := ⟨i⟩ }, .network (.beginRead i),
    .network (.read (.hello addr) {})]

/-- The handshake of the channel being read completes. -/
def acknowledged : Action Nat := .network (.read .ack {})

/-- The second connection exceeds the soft limit, and the first one is closed. -/
theorem keepsLimits_iff_two_peers :
    let run := connecting 80 0 (Dispatcher.localhost 80) ++ [acknowledged, .network .endRead] ++
      connecting 90 1 (Dispatcher.localhost 90)
    ∃ h : (runActions step (new (Dispatcher.localhost 1) 1 2) run).isSome,
      ((Option.get _ h).softCheck acknowledged).any (fun c => 1 < c.thread.countActiveConnections c.busy) = true ∧
        (Option.get _ h).KeepsLimits 1 2 acknowledged :=
  ⟨by decide, by decide,
    (keepsLimits_iff (Reach.of_run _ (by decide) (runMeets_true _ _)) (Nat.le_refl 1) _).mpr (by decide)⟩

/-- The least recently used connected channel stays connected. -/
theorem not_keepsLimits {c : SoftCheck α} {v : Nat} (hc : r.softCheck act = some c)
    (hover : soft < c.thread.countActiveConnections c.busy) (hleast : c.thread.lruConnected = some v)
    (hstays : ∀ t ∈ c.thread.checkSoftConnectionLimit c.busy c.env, (t.channel v).connected = true) :
    ¬ r.KeepsLimits soft hard act := by
  intro hk
  obtain ⟨w, t, hcl, -⟩ := hk.closes c hc hover
  obtain rfl : v = w := Option.some.inj (hleast.symm.trans hcl.least)
  have hconn : (t.channel v).connected = true := hstays t hcl.returns
  rw [hcl.closing, not_connected_graceful] at hconn
  cases hconn

/-- A peer has two addresses, and the dispatcher connects to both. The second
channel takes the registration of the first one, so that the soft limit borrows
it twice; or it is lost, and the first one cannot be closed any more. -/
theorem not_keepsLimits_two_addresses :
    (∃ r : RunLoop Nat, Reach step (fun _ _ => True) (new (Dispatcher.localhost 1) 1 2) r ∧
      r.step acknowledged = none ∧ ¬ r.KeepsLimits 1 2 acknowledged) ∧
    ∃ r : RunLoop Nat, Reach step (fun _ _ => True) (new (Dispatcher.localhost 1) 1 2) r ∧
      ¬ r.KeepsLimits 1 2 acknowledged := by
  let first := connecting 81 0 (Dispatcher.localhost 81) ++ [acknowledged, .network .endRead] ++
    connecting 80 1 (Dispatcher.localhost 81)
  let second := first ++ [.network (.resetRead {}), .dispatch (.closedAck (Dispatcher.localhost 81)) {}] ++
    connecting 90 2 (Dispatcher.localhost 90)
  refine ⟨⟨_, Reach.of_run first (by decide) (runMeets_true _ _), by decide, ?_⟩,
    _, Reach.of_run second (by decide) (runMeets_true _ _), ?_⟩
  · exact not_keepsLimits (v := 0) (Option.some_get (by decide)).symm (by decide) (by decide) (by decide)
  · exact not_keepsLimits (v := 0) (Option.some_get (by decide)).symm (by decide) (by decide) (by decide)

end RunLoop

end Kompact
