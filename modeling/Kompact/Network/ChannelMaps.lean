import Kompact.Network.Sessions

/-!
# The maps of the thread over whole runs

The run loop of the network thread handles the events of the network and of the
dispatcher in any order, until the dispatcher stops or kills it; dispatcher
events that follow are still handled.

`Mapped` is the invariant of the runs in which no channel pushes another one
aside (`Undisturbed`), with `Reader` for the channel that is being read. Every
part of a step either leaves the registrations alone (`Unmoved`), or discards a
channel, registers one under another address, or stores a new one.
-/

namespace Kompact

/-- The address with which the peer has introduced itself. -/
def ChannelState.greeted : ChannelState → Option SocketAddr
  | initialised addr _ => some addr
  | connected addr _ => some addr
  | _ => none

namespace TcpChannel

variable {α : Type} {c c' c'' : TcpChannel α}

/-- The channel keeps its address and is not greeted. -/
structure Unmoved (c c' : TcpChannel α) : Prop where
  address : c'.address = c.address
  greeted : ∀ b, c'.state.greeted = some b → c.state.greeted = some b

theorem Unmoved.refl (c : TcpChannel α) : Unmoved c c := ⟨rfl, fun _ h => h⟩

theorem Unmoved.trans (h : Unmoved c c') (h' : Unmoved c' c'') : Unmoved c c'' :=
  ⟨h'.address.trans h.address, fun b hb => h.greeted b (h'.greeted b hb)⟩

theorem Unmoved.shutdown : Unmoved c c.shutdown := by
  unfold TcpChannel.shutdown
  split
  · exact ⟨rfl, (fun _ h => by cases h)⟩
  · exact .refl c

theorem unmoved_graceful (n : Nat) : Unmoved c (c.initiateGracefulShutdown n) := by
  unfold TcpChannel.initiateGracefulShutdown
  split
  · exact ⟨rfl, (fun _ h => by cases h)⟩
  · exact .refl c

theorem unmoved_handleAck : Unmoved c c.handleAck := by
  unfold TcpChannel.handleAck
  split
  · rename_i addr id hst
    refine ⟨rfl, fun b hb => ?_⟩
    rw [hst]
    exact hb
  · exact .refl c

theorem unmoved_handleBye (n : Nat) : Unmoved c (c.handleBye n) := by
  unfold TcpChannel.handleBye
  split
  · simp only
    split
    · exact ⟨rfl, (fun _ h => by cases h)⟩
    · exact ⟨rfl, (fun _ h => by cases h)⟩
  · exact ⟨rfl, (fun _ h => by cases h)⟩
  · exact .refl c

theorem unmoved_readState (pending : Bool) : Unmoved c (c.readState pending) := by
  unfold TcpChannel.readState
  split
  · exact ⟨rfl, (fun _ h => by cases h)⟩
  · exact .refl c

end TcpChannel

/-! ## The run loop -/

namespace NetworkThread

variable {α : Type}

/-- One round of the loop of `stop`. -/
def stopChannel (env : Env) (t : NetworkThread α) (addr : SocketAddr) : NetworkThread α :=
  match t.addressMap.lookup addr with
  | some i => (t.setChannel i ((t.channel i).initiateGracefulShutdown (env.taken i))).deregisterChannel i
  | none => t

def stop (t : NetworkThread α) (env : Env) : NetworkThread α :=
  { env.order.foldl (stopChannel env) t with addressMap := ∅ }

/-- The streams are shut down, and the map of addresses is empty when `stop` goes over it. -/
def kill (t : NetworkThread α) : NetworkThread α := { t with addressMap := ∅ }

end NetworkThread

structure RunLoop (α : Type) where
  thread : NetworkThread α
  stopped : Bool

namespace RunLoop

variable {α : Type}

def new (addr : SocketAddr) (softConnectionLimit hardConnectionLimit : Nat) : RunLoop α :=
  ⟨.new addr softConnectionLimit hardConnectionLimit, false⟩

inductive Action (α : Type) where
  | dispatch (ev : DispatchEvent (DispatchData α)) (env : Env)
  | stop (env : Env)
  | kill
  | network (act : NetworkThread.Action α)

/-- An event is handled. The listener cannot be deregistered twice. -/
def step (r : RunLoop α) : Action α → Option (RunLoop α)
  | .dispatch ev env => (r.thread.receiveDispatch ev env).map fun thread => { r with thread }
  | .stop env =>
    if r.thread.reading = none ∧ r.stopped = false ∧ env.order.Perm r.thread.addressMap.keys then
      some ⟨r.thread.stop env, true⟩
    else none
  | .kill => if r.thread.reading = none ∧ r.stopped = false then some ⟨r.thread.kill, true⟩ else none
  | .network act => if r.stopped then none else (r.thread.step act).map fun thread => { r with thread }

end RunLoop

namespace NetworkThread

variable {α : Type} {t t' t'' : NetworkThread α} {a b : SocketAddr} {i j : Nat} {c : TcpChannel α} {env : Env}

/-! ## What is to hold -/

/-- A channel is registered under its own address; a polled channel is
registered; and a channel that is polled or being read, or that is registered,
is the only one `drop_channel` removes. -/
structure MapsAgree (t : NetworkThread α) : Prop where
  key : ∀ a i, t.addressMap.lookup a = some i → (t.channel i).address = a
  polled : ∀ i ∈ t.tokenMap, t.addressMap.lookup (t.channel i).address = some i
  own : ∀ i, i ∈ t.tokenMap ∨ i ∈ t.reading → ∀ j, t.addressMap.lookup (t.channel i).address = some j → j = i

/-- A stream from this address is stored. -/
def accepts (t : NetworkThread α) (addr : SocketAddr) (env : Env) : Bool :=
  !t.blockList.ipAddrIsBlocked addr.ip && !t.hardLimitReached && env.ok

/-- A `Hello` that is not dropped names the address of the channel, or comes to
a channel that expects it, and no polled channel has the address it names. -/
def HelloSafe (t : NetworkThread α) (i : Nat) (addr : SocketAddr) : Prop :=
  t.blockList.socketAddrIsBlocked addr = true ∨
    i ∈ t.tokenMap ∧ (addr = (t.channel i).address ∨ (t.channel i).state.isRequested = true ∧ t.slot addr = none) ∨
    i ∉ t.tokenMap ∧ ((t.channel i).state.isRequested = true → t.addressMap.lookup addr = none)

/-- The channel makes way for the one that is registered for the address. -/
def yields (t : NetworkThread α) (addr : SocketAddr) (id : SessionId) (error : Bool) : Bool :=
  (t.addressMap.lookup addr).any fun other =>
    match ((t.channel other).readState error).state with
    | .connected _ _ => (t.channel other).messages = 0
    | .requested _ otherId => otherId.asU128 > id.asU128
    | .initialised _ otherId => otherId.asU128 > id.asU128
    | _ => false

/-- A `Start` that starts a channel comes to one that expects it, or that is not polled any more. -/
def StartSafe (t : NetworkThread α) (i : Nat) (addr : SocketAddr) (id : SessionId) (error : Bool) : Prop :=
  t.blockList.socketAddrIsBlocked addr = true ∨ t.yields addr id error = true ∨ i ∉ t.tokenMap ∨
    (t.channel i).state = .initialising

def FrameSafe (t : NetworkThread α) (i : Nat) (env : Env) : NetFrame α → Prop
  | .hello addr => t.HelloSafe i addr
  | .start addr id => t.StartSafe i addr id env.error
  | _ => True

/-- The events of the network that leave other channels in place. -/
def ActionSafe (t : NetworkThread α) : Action α → Prop
  | .accept addr env => t.accepts addr env = true → t.slot addr = none
  | .read frame env => ∀ i ∈ t.reading, t.FrameSafe i env frame
  | _ => True

/-! ## Parts of a step that leave the registrations alone -/

/-- The registrations are as before; some channels may not be polled any more. -/
structure Unmoved (t t' : NetworkThread α) : Prop where
  addressMap : t'.addressMap = t.addressMap
  token : t'.token = t.token
  blockList : t'.blockList = t.blockList
  tokenMap : ∀ i ∈ t'.tokenMap, i ∈ t.tokenMap
  channel : ∀ i, (t.channel i).Unmoved (t'.channel i)

theorem Unmoved.refl (t : NetworkThread α) : Unmoved t t := ⟨rfl, rfl, rfl, fun _ h => h, fun _ => .refl _⟩

theorem Unmoved.trans (h : Unmoved t t') (h' : Unmoved t' t'') : Unmoved t t'' where
  addressMap := h'.addressMap.trans h.addressMap
  token := h'.token.trans h.token
  blockList := h'.blockList.trans h.blockList
  tokenMap i hi := h.tokenMap i (h'.tokenMap i hi)
  channel i := (h.channel i).trans (h'.channel i)

theorem Unmoved.mapped (hu : Unmoved t t') (h : t.Mapped) : t'.Mapped :=
  h.congr (fun _ => by rw [hu.addressMap]) hu.tokenMap (fun i => (hu.channel i).address) hu.token

theorem unmoved_setChannel (h : (t.channel i).Unmoved c) : Unmoved t (t.setChannel i c) := by
  refine ⟨rfl, rfl, rfl, fun _ h => h, fun j => ?_⟩
  rw [channel_setChannel]
  split
  · subst_vars; exact h
  · exact .refl _

theorem unmoved_notify {status : NetworkStatus} : Unmoved t (t.notifyNetworkStatus status) :=
  ⟨rfl, rfl, rfl, fun _ h => h, fun _ => .refl _⟩

theorem unmoved_reject {data : DispatchData α} : Unmoved t (t.rejectDispatchData a data) :=
  ⟨rfl, rfl, rfl, fun _ h => h, fun _ => .refl _⟩

theorem unmoved_updateLru : Unmoved t (t.updateLru i) where
  addressMap := addressMap_updateLru
  token := token_updateLru
  blockList := by
    unfold updateLru
    split
    · rfl
    · rfl
  tokenMap _ := mem_updateLru.mp
  channel j := by
    rw [channel_updateLru]
    exact .refl _

theorem unmoved_deregister : Unmoved t (t.deregisterChannel i) :=
  ⟨rfl, rfl, rfl, fun _ h => (List.mem_filter.mp h).1, fun _ => .refl _⟩

theorem unmoved_rejectOutbound : Unmoved t (t.rejectOutboundForChannel i) := by
  refine ⟨rfl, rfl, rfl, fun _ h => h, fun j => ?_⟩
  have hc : (t.rejectOutboundForChannel i).channel j =
      if j = i then { t.channel i with outboundQueue := [] } else t.channel j := channel_rejectOutbound
  rw [hc]
  split
  · subst_vars; exact ⟨rfl, fun _ h => h⟩
  · exact .refl _

theorem unmoved_lostConnection : Unmoved t (t.lostConnection i env) := by
  have hbury : ∀ t : NetworkThread α, Unmoved t (t.bury i env) := by
    intro t
    have hs : ((t.rejectOutboundForChannel i).channel i).Unmoved
        (((t.rejectOutboundForChannel i).channel i).sendBye (env.taken i)).shutdown := by
      refine TcpChannel.Unmoved.trans ?_ .shutdown
      exact ⟨rfl, fun _ h => h⟩
    exact (unmoved_rejectOutbound.trans (unmoved_setChannel hs)).trans unmoved_deregister
  rw [lostConnection_eq]
  split
  · exact unmoved_notify.trans (hbury _)
  · exact hbury _

theorem unmoved_handleData (hs : t.handleData i = some t') : Unmoved t t' := by
  simp only [handleData] at hs
  obtain ⟨id, -, h⟩ := Option.bind_eq_some_iff.mp hs
  obtain rfl := Option.some.inj h
  exact unmoved_setChannel ⟨rfl, fun _ h => h⟩

theorem unmoved_writeTcp {res : DrainResult} : Unmoved t (t.writeTcp i res env) := by
  have hd : Unmoved t ((t.updateLru i).setChannel i ((t.channel i).tryDrain (env.taken i))) := by
    refine unmoved_updateLru.trans (unmoved_setChannel ?_)
    rw [channel_updateLru]
    exact ⟨rfl, fun _ h => h⟩
  unfold writeTcp
  cases res with
  | brokenPipe => exact hd.trans unmoved_lostConnection
  | error => exact hd
  | ok =>
    simp only
    split
    · refine hd.trans (((Unmoved.trans ?_ unmoved_deregister).trans unmoved_notify).trans unmoved_rejectOutbound)
      exact unmoved_setChannel ⟨rfl, (fun _ h => by cases h)⟩
    · exact hd

theorem unmoved_sendTcpMessage {data : DispatchData α} : Unmoved t (t.sendTcpMessage a data env) := by
  unfold sendTcpMessage
  split
  · rename_i i _
    simp only
    split
    · split
      · have hset : Unmoved (t.updateLru i) _ := unmoved_setChannel (t := t.updateLru i) (i := i)
          (c := ((t.updateLru i).channel i).enqueueSerialised ‹_›) ⟨rfl, fun _ h => h⟩
        exact unmoved_updateLru.trans ⟨hset.addressMap, hset.token, hset.blockList, hset.tokenMap, hset.channel⟩
      · exact unmoved_updateLru
    · exact unmoved_updateLru.trans unmoved_reject
  · exact unmoved_reject

/-! ## Discarding, storing and renaming -/

theorem Mapped.dropChannel (h : t.Mapped) (hi : ∀ j, t.addressMap.lookup (t.channel i).address = some j → j = i) :
    (t.dropChannel i).Mapped := by
  rw [dropChannel_eq]
  exact h.discard hi

theorem Mapped.setBlockList {bl : BlockList} (h : t.Mapped) : Mapped { t with blockList := bl } :=
  ⟨h.key, h.polled, h.fresh⟩

/-! ## Opening and closing -/

theorem Mapped.openStream (h : t.Mapped) (hs : t.slot b = none) : (t.openStream b env).Mapped := by
  unfold NetworkThread.openStream
  split
  · exact unmoved_notify.mapped h
  · split
    · exact h.storeStream hs
    · exact h

/-- The channel that is registered for an address is dropped. -/
theorem Mapped.dropRegistered (h : t.Mapped) (hb : t.addressMap.lookup b = some i) :
    (t.dropChannel i).Mapped ∧ ∀ a, (t.dropChannel i).addressMap.lookup a =
      if a = b then none else t.addressMap.lookup a := by
  refine ⟨h.dropChannel (h.lookup_own hb), fun a => ?_⟩
  rw [dropChannel_eq, lookup_discard, h.key b i hb]

theorem Mapped.requestStream (h : t.Mapped) : (t.requestStream b env).Mapped := by
  unfold NetworkThread.requestStream
  split
  · rename_i i hi
    obtain ⟨hd, hl⟩ := h.dropRegistered hi
    split
    · exact h
    · exact h
    · exact hd.openStream (slot_of_none ((hl b).trans (if_pos rfl)))
  · rename_i hi
    exact h.openStream (slot_of_none hi)

theorem Mapped.receiveStream (h : t.Mapped) (hs : t.accepts b env = true → t.slot b = none) :
    (t.receiveStream b env).Mapped := by
  unfold NetworkThread.receiveStream
  split
  · exact h
  · split
    · exact unmoved_notify.mapped h
    · split
      · refine h.storeStream (hs ?_)
        simp_all [accepts]
      · exact h

theorem Mapped.closeConnection (h : t.Mapped) : (t.closeConnection b env).Mapped := by
  unfold NetworkThread.closeConnection
  split
  · rename_i i hi
    split
    · exact ((unmoved_setChannel (TcpChannel.unmoved_graceful _)).trans unmoved_updateLru).mapped h
    · exact (h.dropRegistered hi).1
  · exact h

theorem Mapped.handleClosedAck (h : t.Mapped) : (t.handleClosedAck b).Mapped := by
  unfold NetworkThread.handleClosedAck
  split
  · rename_i i hi
    split
    · exact h
    · exact (h.dropRegistered hi).1
  · exact h

/-- Another channel may start to close. -/
theorem Mapped.unmoved_checkSoft (h : t.Mapped) {busy : Nat} (hs : t.checkSoftConnectionLimit busy env = some t') :
    Unmoved t t' ∧ (∀ i, i ∈ t'.tokenMap ↔ i ∈ t.tokenMap) ∧ t'.channel busy = t.channel busy := by
  rcases h.checkSoftConnectionLimit hs with rfl | ⟨j, hne, -, -, rfl⟩
  · exact ⟨.refl t', fun _ => Iff.rfl, rfl⟩
  · refine ⟨(unmoved_notify.trans (unmoved_setChannel (TcpChannel.unmoved_graceful _))).trans unmoved_updateLru,
      fun i => mem_updateLru, ?_⟩
    rw [channel_updateLru, channel_setChannel, if_neg (Ne.symm hne)]
    rfl

/-! ## Frames -/

theorem renameChannel_unregistered (hn : t.addressMap.lookup (t.channel i).address = none) :
    t.renameChannel i b c = t.setChannel i c := by
  unfold NetworkThread.renameChannel reregisterChannelAddress
  rw [hn]

/-- What a `Hello` that is heeded makes of the channel. -/
theorem handleHello_spec (n : Nat) :
    (c.state.isRequested = true ∧ (c.handleHello b n).address = b ∧ (c.handleHello b n).state.greeted = some b) ∨
      c.state.isRequested = false ∧ c.handleHello b n = c := by
  unfold TcpChannel.handleHello
  cases hst : c.state with
  | requested addr id => exact .inl ⟨rfl, rfl, rfl⟩
  | _ => exact .inr ⟨rfl, rfl⟩

/-- A polled channel is greeted, or told its own address again. -/
theorem Mapped.greet (h : t.Mapped) (hi : i ∈ t.tokenMap)
    (hs : b = (t.channel i).address ∨ (t.channel i).state.isRequested = true ∧ t.slot b = none) (n : Nat) :
    (t.renameChannel i b ((t.channel i).handleHello b n)).Mapped := by
  rcases handleHello_spec (c := t.channel i) (b := b) n with ⟨-, ha, -⟩ | ⟨hq, hc⟩
  · exact h.renameChannel hi (hs.imp_right And.right) ha
  · have hown : b = (t.channel i).address := by
      refine hs.resolve_right (fun hr => ?_)
      rw [hq] at hr
      exact absurd hr.1 Bool.false_ne_true
    rw [hc]
    exact h.renameChannel hi (.inl hown) hown.symm

theorem Reader.dropChannel : (t.dropChannel i).addressMap.lookup ((t.dropChannel i).channel i).address = none := by
  have ha : ((t.dropChannel i).channel i).address = (t.channel i).address := by
    rw [dropChannel_eq, channel_discard, if_pos rfl, address_shutdown]
  rw [ha, dropChannel_eq, lookup_discard, if_pos rfl]

theorem Mapped.handleHello (h : t.Mapped) (hr : t.Reader) (hi : i ∈ t.reading) (hs : t.HelloSafe i b) :
    (t.handleHello i b env).Mapped ∧ (t.handleHello i b env).Reader := by
  have hread : ∀ {t' : NetworkThread α}, t'.reading = t.reading →
      (i ∈ t'.tokenMap ∨ t'.addressMap.lookup (t'.channel i).address = none) → t'.Reader := by
    intro t' ht hor j hj
    rw [ht] at hj
    obtain rfl := Option.some.inj (hj.symm.trans hi)
    exact hor
  rw [handleHello_eq]
  by_cases hblk : t.blockList.socketAddrIsBlocked b = true
  · rw [if_pos hblk]
    exact ⟨h.dropChannel (hr.lookup_unique h hi), hread reading_dropChannel (.inr Reader.dropChannel)⟩
  · rw [if_neg hblk]
    replace hs := hs.resolve_left hblk
    have hread' : (t.renameChannel i b ((t.channel i).handleHello b (env.taken i))).reading = t.reading := by
      unfold NetworkThread.renameChannel
      rw [reading_setChannel, reading_reregister]
    by_cases hm : i ∈ t.tokenMap
    · replace hs := (hs.resolve_right (fun hn => hn.1 hm)).2
      refine ⟨h.greet hm hs _, hread hread' (.inl ?_)⟩
      rw [h.tokenMap_renameChannel hm]
      exact hm
    · -- the channel has been dropped before in this loop
      replace hs := (hs.resolve_left (fun hn => hm hn.1)).2
      have hn : t.addressMap.lookup (t.channel i).address = none := (hr i hi).resolve_left hm
      rw [renameChannel_unregistered hn]
      refine ⟨h.setUnregistered (h.unregistered hn), hread reading_setChannel (.inr ?_)⟩
      rw [channel_setChannel, if_pos rfl]
      show t.addressMap.lookup _ = none
      rcases handleHello_spec (c := t.channel i) (b := b) (env.taken i) with ⟨hq, ha, -⟩ | ⟨-, hc⟩
      · rw [ha]
        exact hs hq
      · rw [hc]
        exact hn

/-- What a `Start` that is heeded makes of the channel. -/
theorem handleStart_spec (hst : c.state = .initialising) (id : SessionId) (n : Nat) :
    (c.handleStart b id n).address = b ∧ (c.handleStart b id n).state = .connected b id := by
  unfold TcpChannel.handleStart
  rw [hst]
  exact ⟨rfl, rfl⟩

/-- The channel is started for an address of which no other channel is polled. -/
theorem Mapped.startChannel {id : SessionId} (h : t.Mapped) (hslot : t.slot b = none)
    (hi : i ∈ t.tokenMap ∧ (t.channel i).state = .initialising ∨ t.addressMap.lookup (t.channel i).address = none)
    (hs : t.startChannel i b id env = some t') : t'.Mapped := by
  obtain ⟨t₁, h₁, rfl⟩ := startChannel_eq hs
  have hg : (t.renameChannel i b ((t.channel i).handleStart b id (env.taken i))).Mapped := by
    rcases hi with ⟨hi, hst⟩ | hn
    · exact h.renameChannel hi (.inr hslot) (handleStart_spec (b := b) hst id (env.taken i)).1
    · rw [renameChannel_unregistered hn]
      exact h.setUnregistered (h.unregistered hn)
  exact unmoved_notify.mapped ((hg.unmoved_checkSoft h₁).1.mapped hg)

/-- Where another channel is registered for the address, either this one makes
way or the other one is lost, if it is connected, or dropped. -/
theorem handleStart_eq {id : SessionId} : t.handleStart i b id env =
    if t.blockList.socketAddrIsBlocked b then some (t.dropChannel i)
    else match t.addressMap.lookup b with
      | none => t.startChannel i b id env
      | some other =>
        if other = i then none
        else
          let t₁ := t.setChannel other ((t.channel other).readState env.error)
          if t.yields b id env.error then some (t₁.dropChannel i)
          else if (t₁.channel other).connected then (t₁.lostConnection other env).startChannel i b id env
          else (t₁.dropChannel other).startChannel i b id env := by
  unfold NetworkThread.handleStart
  split
  · rfl
  rcases hl : t.addressMap.lookup b with _ | other
  · rfl
  simp only
  split
  · rfl
  have hc : (t.setChannel other ((t.channel other).readState env.error)).channel other =
      (t.channel other).readState env.error := channel_setChannel.trans (if_pos rfl)
  have hmsg : ((t.channel other).readState env.error).messages = (t.channel other).messages := by
    unfold TcpChannel.readState
    split
    · rfl
    · rfl
  rw [hc, hmsg]
  unfold yields TcpChannel.connected
  rw [hl, Option.any_some]
  cases hst : ((t.channel other).readState env.error).state with
  | connected addr id => simp [ChannelState.isConnected]
  | requested addr id => simp [ChannelState.isConnected]
  | initialised addr id => simp [ChannelState.isConnected]
  | _ => simp [ChannelState.isConnected]

/-- What a `Start` does: the channel is dropped, or it makes way for the other
one, or the other one is lost or dropped and it is started. -/
theorem handleStart_cases {id : SessionId} (hs : t.handleStart i b id env = some t') :
    (t.blockList.socketAddrIsBlocked b = true ∧ t' = t.dropChannel i) ∨
      t.blockList.socketAddrIsBlocked b = false ∧
        (t.addressMap.lookup b = none ∧ t.startChannel i b id env = some t' ∨
          ∃ other t₁, t.addressMap.lookup b = some other ∧ other ≠ i ∧
            t₁ = t.setChannel other ((t.channel other).readState env.error) ∧
            (t.yields b id env.error = true ∧ t' = t₁.dropChannel i ∨
              t.yields b id env.error = false ∧
                ((t₁.lostConnection other env).startChannel i b id env = some t' ∨
                  (t₁.dropChannel other).startChannel i b id env = some t'))) := by
  rw [handleStart_eq] at hs
  split at hs
  · exact .inl ⟨‹_›, (Option.some.inj hs).symm⟩
  rename_i hb
  refine .inr ⟨eq_false_of_ne_true hb, ?_⟩
  split at hs
  · exact .inl ⟨‹_›, hs⟩
  rename_i other hl
  split at hs
  · cases hs
  rename_i hne
  refine .inr ⟨other, _, hl, hne, rfl, ?_⟩
  simp only at hs
  split at hs
  · exact .inl ⟨‹_›, (Option.some.inj hs).symm⟩
  rename_i hy
  refine .inr ⟨eq_false_of_ne_true hy, ?_⟩
  split at hs
  · exact .inl hs
  · exact .inr hs

/-- A channel that is lost leaves no slot behind. -/
theorem slot_lost (hl : t.addressMap.lookup b = some j) : (t.lostConnection j env).slot b = none := by
  have hu : Unmoved t (t.lostConnection j env) := unmoved_lostConnection
  have hm : j ∉ (t.lostConnection j env).tokenMap := by
    rw [lostConnection_eq]
    split
    · exact fun hm => (mem_retire.mp hm).2 rfl
    · exact fun hm => (mem_retire.mp hm).2 rfl
  rw [slot_of_lookup (hu.addressMap ▸ hl), if_neg hm]

theorem Mapped.handleStart {id : SessionId} (h : t.Mapped) (hr : t.Reader) (hi : i ∈ t.reading)
    (hsafe : t.StartSafe i b id env.error) (hs : t.handleStart i b id env = some t') : t'.Mapped := by
  have hown : ∀ j, t.addressMap.lookup (t.channel i).address = some j → j = i := hr.lookup_unique h hi
  rcases handleStart_cases hs with ⟨-, rfl⟩ | ⟨hb, hs⟩
  · exact h.dropChannel hown
  have hplace : t.yields b id env.error = false →
      i ∈ t.tokenMap ∧ (t.channel i).state = .initialising ∨ t.addressMap.lookup (t.channel i).address = none := by
    intro hy
    rcases hr i hi with hm | hn
    · rcases hsafe with hblk | hy' | hm' | hst
      · exact absurd (hb.symm.trans hblk) Bool.false_ne_true
      · exact absurd (hy.symm.trans hy') Bool.false_ne_true
      · exact absurd hm hm'
      · exact .inl ⟨hm, hst⟩
    · exact .inr hn
  rcases hs with ⟨hl, hs⟩ | ⟨other, t₁, hl, hne, ht₁, hs⟩
  · exact h.startChannel (slot_of_none hl) (hplace (by unfold yields; rw [hl]; rfl)) hs
  · have hu : Unmoved t t₁ := ht₁ ▸ unmoved_setChannel (TcpChannel.unmoved_readState _)
    have h₁ : t₁.Mapped := hu.mapped h
    have hc : t₁.channel i = t.channel i := by rw [ht₁, channel_setChannel, if_neg hne.symm]
    have hm : i ∈ t₁.tokenMap ↔ i ∈ t.tokenMap := by rw [ht₁]; exact Iff.rfl
    have hl₁ : t₁.addressMap.lookup b = some other := hu.addressMap ▸ hl
    rcases hs with ⟨-, rfl⟩ | ⟨hy, hs | hs⟩
    · refine h₁.dropChannel (fun j hj => hown j ?_)
      rw [hc, hu.addressMap] at hj
      exact hj
    · -- the other connection is given up, and keeps its registration until this one takes it
      have hlost : Unmoved t₁ (t₁.lostConnection other env) := unmoved_lostConnection
      obtain ⟨hm', hc'⟩ : (i ∈ (t₁.lostConnection other env).tokenMap ↔ i ∈ t₁.tokenMap) ∧
          (t₁.lostConnection other env).channel i = t₁.channel i := lostConnection_others hne.symm
      refine (hlost.mapped h₁).startChannel (slot_lost hl₁) ?_ hs
      rw [hm', hm, hc', hc, hlost.addressMap, hu.addressMap]
      exact hplace hy
    · obtain ⟨hd, hld⟩ := h₁.dropRegistered hl₁
      have hc' : (t₁.dropChannel other).channel i = t.channel i := by
        rw [dropChannel_eq, channel_discard, if_neg hne.symm, hc]
      have hm' : i ∈ (t₁.dropChannel other).tokenMap ↔ i ∈ t.tokenMap := by
        rw [dropChannel_eq, mem_discard, hm]
        exact ⟨And.left, fun h => ⟨h, hne.symm⟩⟩
      refine hd.startChannel (slot_of_none ((hld b).trans (if_pos rfl))) ?_ hs
      rw [hm', hc', hld, hu.addressMap]
      refine (hplace hy).imp_right (fun hn => ?_)
      split
      · rfl
      · exact hn

theorem Mapped.handleAck (h : t.Mapped) (hs : t.handleAck i env = some t') :
    Unmoved t t' ∧ (∀ j, j ∈ t'.tokenMap ↔ j ∈ t.tokenMap) := by
  simp only [NetworkThread.handleAck] at hs
  obtain ⟨t₁, h₁, hs⟩ := Option.bind_eq_some_iff.mp hs
  obtain ⟨id, -, hs⟩ := Option.bind_eq_some_iff.mp hs
  obtain rfl := Option.some.inj hs
  have hu : Unmoved t (t.setChannel i (t.channel i).handleAck) := unmoved_setChannel TcpChannel.unmoved_handleAck
  obtain ⟨hu', hm, -⟩ := (hu.mapped h).unmoved_checkSoft h₁
  exact ⟨(hu.trans hu').trans unmoved_notify, hm⟩

theorem Mapped.handleBye (h : t.Mapped) (hown : ∀ j, t.addressMap.lookup (t.channel i).address = some j → j = i) :
    (t.handleBye i env).Mapped := by
  have hu : Unmoved t (t.setChannel i ((t.channel i).handleBye (env.taken i))) :=
    unmoved_setChannel (TcpChannel.unmoved_handleBye _)
  unfold NetworkThread.handleBye
  simp only
  split
  · exact (((hu.trans unmoved_deregister).trans unmoved_notify).trans unmoved_rejectOutbound).mapped h
  · exact hu.mapped h
  · refine (hu.mapped h).dropChannel (fun j hj => hown j ?_)
    rw [(hu.channel i).address] at hj
    exact hj

theorem Mapped.endRead (h : t.Mapped) : t.endRead.Mapped := ⟨h.key, h.polled, h.fresh⟩

theorem Mapped.handleFrame {frame : NetFrame α} (h : t.Mapped) (hr : t.Reader) (hi : i ∈ t.reading)
    (ho : t.FrameSafe i env frame) (hs : t.handleFrame i frame env = some t') : t'.Mapped ∧ t'.Reader := by
  -- nothing is dropped: what is read stays polled, or unregistered
  have hsame : Unmoved t t' → (∀ j, j ∈ t.tokenMap → j ∈ t'.tokenMap) → t'.reading = t.reading →
      t'.Mapped ∧ t'.Reader := by
    intro hu hm hread
    refine ⟨hu.mapped h, fun j hj => ?_⟩
    rw [hread] at hj
    rw [(hu.channel j).address, hu.addressMap]
    exact (hr j hj).imp_left (hm j)
  cases frame with
  | data msg =>
    refine hsame (unmoved_handleData hs) (fun j hj => ?_) (reading_handleData hs)
    simp only [NetworkThread.handleFrame, handleData] at hs
    obtain ⟨id, -, hs⟩ := Option.bind_eq_some_iff.mp hs
    obtain rfl := Option.some.inj hs
    exact hj
  | hello addr =>
    obtain rfl := Option.some.inj hs
    exact h.handleHello hr hi ho
  | start addr id =>
    obtain ⟨t₁, h₁, rfl⟩ := Option.map_eq_some_iff.mp hs
    exact ⟨(h.handleStart hr hi ho h₁).endRead, (fun j hj => by cases hj)⟩
  | ack =>
    obtain ⟨hu, hm⟩ := h.handleAck hs
    exact hsame hu (fun j => (hm j).mpr) (reading_handleAck hs)
  | bye =>
    obtain rfl := Option.some.inj hs
    exact ⟨(h.handleBye (hr.lookup_unique h hi)).endRead, (fun j hj => by cases hj)⟩

theorem Mapped.step {act : Action α} (h : t.Mapped) (hr : t.Reader) (ho : t.ActionSafe act)
    (hs : t.step act = some t') : t'.Mapped ∧ t'.Reader := by
  have hidle : ∀ {t₁ : NetworkThread α}, t₁.reading = t.reading → t.reading = none → t₁.Reader := by
    intro t₁ h₁ hn i hi
    rw [h₁, hn] at hi
    cases hi
  cases act with
  | accept addr env =>
    obtain ⟨hn, rfl⟩ := step_accept hs
    exact ⟨h.receiveStream ho, hidle reading_receiveStream hn⟩
  | write i res env =>
    obtain ⟨hn, -, rfl⟩ := step_write hs
    exact ⟨unmoved_writeTcp.mapped h, hidle reading_writeTcp hn⟩
  | beginRead i =>
    obtain ⟨-, hi, rfl⟩ := step_beginRead hs
    have hl : (t.updateLru i).Mapped := unmoved_updateLru.mapped h
    refine ⟨⟨hl.key, hl.polled, hl.fresh⟩, fun j hj => ?_⟩
    obtain rfl := Option.some.inj hj
    exact .inl (mem_updateLru.mpr hi)
  | read frame env =>
    obtain ⟨i, hi, hs⟩ := Option.bind_eq_some_iff.mp hs
    exact h.handleFrame hr hi (ho i hi) hs
  | endRead =>
    obtain ⟨i, hi, rfl⟩ := Option.map_eq_some_iff.mp hs
    exact ⟨h.endRead, (fun j hj => by cases hj)⟩
  | resetRead env =>
    obtain ⟨i, hi, rfl⟩ := Option.map_eq_some_iff.mp hs
    exact ⟨(unmoved_lostConnection.mapped h).endRead, (fun j hj => by cases hj)⟩
  | noBuffers env =>
    obtain ⟨i, hi, rfl⟩ := Option.map_eq_some_iff.mp hs
    split
    · exact ⟨h.endRead, (fun j hj => by cases hj)⟩
    · exact ⟨((unmoved_updateLru.trans unmoved_lostConnection).mapped h).endRead, (fun j hj => by cases hj)⟩

/-! ## Events of the dispatcher -/

theorem Mapped.dropBlocked (h : t.Mapped) : (t.dropBlocked b).Mapped := by
  unfold NetworkThread.dropBlocked
  split
  · rename_i i hi
    split
    · exact (unmoved_notify.mapped h).dropChannel (h.lookup_own hi)
    · exact h.dropChannel (h.lookup_own hi)
  · exact h

theorem Mapped.dropAll (addrs : List SocketAddr) (h : t.Mapped) : (addrs.foldl NetworkThread.dropBlocked t).Mapped := by
  induction addrs generalizing t with
  | nil => exact h
  | cons b rest ih => exact ih h.dropBlocked

theorem Mapped.handleDispatchEvent {ev : DispatchEvent (DispatchData α)} (h : t.Mapped) :
    (t.handleDispatchEvent env ev).Mapped := by
  cases ev with
  | sendTcp addr data => exact unmoved_sendTcpMessage.mapped h
  | connect addr =>
    unfold NetworkThread.handleDispatchEvent
    simp only
    split
    · exact h
    · exact h.requestStream
  | closedAck addr => exact h.handleClosedAck
  | close addr => exact h.closeConnection
  | blockSocket addr =>
    unfold NetworkThread.handleDispatchEvent NetworkThread.blockSocketAddr
    simp only
    refine unmoved_notify.mapped ?_
    split
    · rename_i i _ hi
      exact h.setBlockList.dropChannel (h.lookup_own hi)
    · exact h.setBlockList
  | blockIpAddr ip =>
    unfold NetworkThread.handleDispatchEvent NetworkThread.blockIpAddr
    simp only
    refine unmoved_notify.mapped ?_
    split
    · exact h.setBlockList.dropAll _
    · exact h
  | blockIpNet net => exact unmoved_notify.mapped (h.setBlockList.dropAll _)
  | allowSocket addr =>
    unfold NetworkThread.handleDispatchEvent NetworkThread.allowSocketAddr
    simp only
    split
    · exact unmoved_notify.mapped h.setBlockList
    · exact h.setBlockList
  | allowIpAddr ip => exact unmoved_notify.mapped h.setBlockList
  | allowIpNet net => exact unmoved_notify.mapped h.setBlockList

/-- What is still polled when the loop of `stop` has gone over the addresses. -/
theorem stopAll_spec (addrs : List SocketAddr) (t : NetworkThread α) :
    (addrs.foldl (stopChannel env) t).addressMap = t.addressMap ∧
      (addrs.foldl (stopChannel env) t).reading = t.reading ∧
      ∀ i ∈ (addrs.foldl (stopChannel env) t).tokenMap, i ∈ t.tokenMap ∧ ∀ a ∈ addrs, t.addressMap.lookup a ≠ some i := by
  induction addrs generalizing t with
  | nil => exact ⟨rfl, rfl, fun i hi => ⟨hi, fun a ha => absurd ha List.not_mem_nil⟩⟩
  | cons b rest ih =>
    obtain ⟨hm, hread, hi⟩ := ih (stopChannel env t b)
    have hone : (stopChannel env t b).addressMap = t.addressMap ∧ (stopChannel env t b).reading = t.reading ∧
        ∀ i ∈ (stopChannel env t b).tokenMap, i ∈ t.tokenMap ∧ t.addressMap.lookup b ≠ some i := by
      unfold stopChannel
      split
      · rename_i j hj
        refine ⟨rfl, rfl, fun i hi => ?_⟩
        obtain ⟨hi, hne⟩ := mem_retire.mp hi
        exact ⟨hi, fun hb => hne (Option.some.inj (hb.symm.trans hj))⟩
      · rename_i hn
        exact ⟨rfl, rfl, fun i hi => ⟨hi, fun hb => by rw [hn] at hb; cases hb⟩⟩
    refine ⟨hm.trans hone.1, hread.trans hone.2.1, fun i hi' => ?_⟩
    obtain ⟨hi₁, hrest⟩ := hi i hi'
    obtain ⟨hi₀, hb⟩ := hone.2.2 i hi₁
    refine ⟨hi₀, fun a ha => ?_⟩
    rcases List.mem_cons.mp ha with rfl | ha
    · exact hb
    · exact hone.1 ▸ hrest a ha

/-- Nothing is registered and nothing is polled. -/
theorem mapped_of_empty (ha : t.addressMap = ∅) (hm : t.tokenMap = []) : t.Mapped := by
  have hl : ∀ a i, t.addressMap.lookup a ≠ some i := by
    intro a i hi
    rw [ha] at hi
    cases hi
  refine ⟨fun a i hi => absurd hi (hl a i), fun i hi => ?_, fun a i hi => absurd hi (hl a i)⟩
  rw [hm] at hi
  cases hi

theorem Mapped.stop (h : t.Mapped) (horder : ∀ a ∈ t.addressMap.keys, a ∈ env.order) : (t.stop env).Mapped := by
  refine mapped_of_empty rfl (List.eq_nil_iff_forall_not_mem.mpr (fun i hi => ?_))
  obtain ⟨hi₀, hn⟩ := (stopAll_spec env.order t).2.2 i hi
  have hp := h.polled i hi₀
  exact hn _ (horder _ (AssocMap.mem_keys_of_lookup hp)) hp

end NetworkThread

/-! ## Runs -/

namespace RunLoop

open NetworkThread

variable {α : Type} {r r' : RunLoop α} {addr : SocketAddr} {soft hard : Nat}

/-- No channel pushes another one aside, and none is left polled when the thread is killed. -/
def Undisturbed (r : RunLoop α) : Action α → Prop
  | .kill => r.thread.tokenMap = []
  | .network act => r.thread.ActionSafe act
  | _ => True

instance (t : NetworkThread α) (i : Nat) (addr : SocketAddr) : Decidable (t.HelloSafe i addr) :=
  inferInstanceAs (Decidable (_ ∨ _ ∧ (_ ∨ _ ∧ _) ∨ _ ∧ (_ → _)))

instance (t : NetworkThread α) (i : Nat) (addr : SocketAddr) (id : SessionId) (error : Bool) :
    Decidable (t.StartSafe i addr id error) :=
  inferInstanceAs (Decidable (_ ∨ _ ∨ _ ∨ _))

instance (t : NetworkThread α) (i : Nat) (env : Env) : (frame : NetFrame α) → Decidable (t.FrameSafe i env frame)
  | .hello addr => inferInstanceAs (Decidable (t.HelloSafe i addr))
  | .start addr id => inferInstanceAs (Decidable (t.StartSafe i addr id env.error))
  | .data _ | .ack | .bye => inferInstanceAs (Decidable True)

instance (t : NetworkThread α) : (act : NetworkThread.Action α) → Decidable (t.ActionSafe act)
  | .accept _ _ => inferInstanceAs (Decidable (_ → _))
  | .read frame env => inferInstanceAs (Decidable (∀ i ∈ t.reading, t.FrameSafe i env frame))
  | .write _ _ _ | .beginRead _ | .endRead | .resetRead _ | .noBuffers _ => inferInstanceAs (Decidable True)

instance (r : RunLoop α) : (act : Action α) → Decidable (r.Undisturbed act)
  | .kill => inferInstanceAs (Decidable (_ = _))
  | .network act => inferInstanceAs (Decidable (r.thread.ActionSafe act))
  | .dispatch _ _ | .stop _ => inferInstanceAs (Decidable True)

/-- What a step does to the thread: an event of the dispatcher is handled, the
thread is stopped or killed, or an event of the network is handled. -/
theorem step_cases {act : Action α} (hs : r.step act = some r') :
    (∃ ev env, act = .dispatch ev env ∧ r.thread.reading = none ∧
        (visitsAll ev = true → env.order.Perm r.thread.addressMap.keys) ∧
        r'.thread = r.thread.handleDispatchEvent env ev) ∨
      (∃ env, act = .stop env ∧ r.thread.reading = none ∧ env.order.Perm r.thread.addressMap.keys ∧
        r'.thread = r.thread.stop env) ∨
      (act = .kill ∧ r.thread.reading = none ∧ r'.thread = r.thread.kill) ∨
      ∃ nact, act = .network nact ∧ r.thread.step nact = some r'.thread := by
  cases act with
  | dispatch ev env =>
    obtain ⟨t', ht, rfl⟩ := Option.map_eq_some_iff.mp hs
    obtain ⟨hn, horder, rfl⟩ := receiveDispatch_some ht
    exact .inl ⟨ev, env, rfl, hn, horder, rfl⟩
  | stop env =>
    obtain ⟨hg, hs⟩ := Option.ite_none_right_eq_some.mp hs
    obtain rfl := Option.some.inj hs
    exact .inr (.inl ⟨env, rfl, hg.1, hg.2.2, rfl⟩)
  | kill =>
    obtain ⟨hg, hs⟩ := Option.ite_none_right_eq_some.mp hs
    obtain rfl := Option.some.inj hs
    exact .inr (.inr (.inl ⟨rfl, hg.1, rfl⟩))
  | network nact =>
    obtain ⟨-, hs⟩ := Option.ite_none_left_eq_some.mp hs
    obtain ⟨t', ht, rfl⟩ := Option.map_eq_some_iff.mp hs
    exact .inr (.inr (.inr ⟨nact, rfl, ht⟩))

theorem mapped_step {act : Action α} (h : r.thread.Mapped) (hr : r.thread.Reader) (ho : r.Undisturbed act)
    (hs : r.step act = some r') : r'.thread.Mapped ∧ r'.thread.Reader := by
  have hidle : ∀ {t : NetworkThread α}, t.reading = none → t.Reader := by
    intro t hn i hi
    rw [hn] at hi
    cases hi
  rcases step_cases hs with ⟨ev, env, rfl, hn, horder, ht⟩ | ⟨env, rfl, hn, horder, ht⟩ | ⟨rfl, hn, ht⟩ | ⟨nact, rfl, ht⟩
  · rw [ht]
    refine ⟨h.handleDispatchEvent, hidle ?_⟩
    rw [reading_handleDispatchEvent]
    exact hn
  · rw [ht]
    exact ⟨h.stop (fun a ha => horder.mem_iff.mpr ha), hidle ((stopAll_spec env.order r.thread).2.1.trans hn)⟩
  · rw [ht]
    exact ⟨mapped_of_empty rfl ho, hidle hn⟩
  · exact h.step hr ho ht

theorem mapped_of_reach (h : Reach step Undisturbed (new addr soft hard) r) :
    r.thread.Mapped ∧ r.thread.Reader :=
  Reach.invariant (fun r => r.thread.Mapped ∧ r.thread.Reader)
    ⟨mapped_of_empty rfl rfl, (fun i hi => by cases hi)⟩ (fun h ho hs => mapped_step h.1 h.2 ho hs) h

/-- In every run in which no channel pushes another one aside the two maps agree. -/
theorem mapsAgree_of_undisturbed (h : Reach step Undisturbed (new addr soft hard) r) : r.thread.MapsAgree := by
  obtain ⟨hg, hr⟩ := mapped_of_reach h
  refine ⟨hg.key, hg.polled, fun i hi => ?_⟩
  rcases hi with hi | hi
  · exact hg.lookup_unique hi
  · exact hr.lookup_unique hg hi

/-- A connection is requested and established, another one is accepted and
started, and the first one is closed. -/
theorem mapsAgree_of_undisturbed_busy :
    let run : List (Action Nat) := [.dispatch (.connect (Dispatcher.localhost 80)) { id := ⟨7⟩ },
      .network (.beginRead 0), .network (.read (.hello (Dispatcher.localhost 80)) {}), .network (.read .ack {}),
      .network .endRead, .network (.accept (Dispatcher.localhost 9000) {}), .network (.beginRead 1),
      .network (.read (.start (Dispatcher.localhost 81) ⟨9⟩) {}), .dispatch (.close (Dispatcher.localhost 80)) {}]
    ∃ h : (runActions step (new (Dispatcher.localhost 1) 100 100) run).isSome,
      (Option.get _ h).thread.tokenMap = [0, 1] ∧ (Option.get _ h).thread.MapsAgree :=
  ⟨by decide, by decide, mapsAgree_of_undisturbed (Reach.of_run _ (by decide) (by decide))⟩

/-- The peer says `Hello` twice, with different addresses. -/
def greetedTwice : List (Action Nat) :=
  [.dispatch (.connect (Dispatcher.localhost 80)) { id := ⟨7⟩ }, .network (.beginRead 0),
    .network (.read (.hello (Dispatcher.localhost 81)) {}), .network (.read (.hello (Dispatcher.localhost 82)) {}),
    .network .endRead]

/-- The channel is registered under the second address, and takes itself to have the first. -/
theorem not_mapsAgree_greeted_twice :
    ∃ r : RunLoop Nat, Reach step (fun _ _ => True) (new (Dispatcher.localhost 1) 100 100) r ∧ ¬ r.thread.MapsAgree := by
  have hrun : ∃ r : RunLoop Nat, Reach step (fun _ _ => True) (new (Dispatcher.localhost 1) 100 100) r ∧
      r.thread.addressMap.lookup (Dispatcher.localhost 82) = some 0 ∧
      (r.thread.channel 0).address = Dispatcher.localhost 81 :=
    ⟨_, Reach.of_run greetedTwice (by decide) (runMeets_true _ _), by decide, by decide⟩
  obtain ⟨r, hr, hl, ha⟩ := hrun
  refine ⟨r, hr, fun hm => ?_⟩
  exact absurd (ha.symm.trans (hm.key _ 0 hl)) (by decide)

end RunLoop

end Kompact
