import Kompact.Network.BlockRules
import Kompact.Network.ChannelMaps

/-!
# Blocking over whole runs

When addresses come to be blocked, the thread drops the channels that are
registered under them. It finds the channel of a peer that is one of them where
the channel is registered under its own address and no other (`FindsHit`), as
it is in the runs in which no channel pushes another one aside
(`findsHit_of_undisturbed`).

Nothing else is needed. A channel takes the address of its peer only where this
is not blocked, and one that is neither polled nor registered does not come
back (`Admits`), whatever the peers say, and also when the thread is stopped or
killed. `blockingEnforced_of_findsHit` puts this together.
-/

namespace Kompact

/-! ## Rules that are added and taken back -/

namespace BlockList

variable {bl bl' : BlockList} {a addr : SocketAddr}

/-- No rule that blocks the address has been added, and none that allows it was taken back. -/
theorem unblocked_of_le (h : bl.socketAddrIsBlocked a = false)
    (hallow : a ∈ bl.allowedSocketAddr → a ∈ bl'.allowedSocketAddr)
    (hblock : a ∈ bl'.blockedSocketAddr → a ∈ bl.blockedSocketAddr)
    (hip : bl'.ipSet a.ip = true → bl.ipSet a.ip = true) : bl'.socketAddrIsBlocked a = false := by
  unfold socketAddrIsBlocked at h ⊢
  split
  · rfl
  · rename_i hna
    rw [if_neg (fun ha => hna (hallow ha))] at h
    split at h
    · cases h
    · rename_i hnb
      rw [if_neg (fun hb => hnb (hblock hb))]
      exact eq_false_of_ne_true (fun hi => absurd (h.symm.trans (hip hi)) Bool.false_ne_true)

theorem unblocked_blockSocketAddr (hne : a ≠ addr) (h : bl.socketAddrIsBlocked a = false) :
    (bl.blockSocketAddr addr).2.socketAddrIsBlocked a = false := by
  refine unblocked_of_le h (fun ha => mem_allowed_blockSocketAddr.mpr ⟨hne, ha⟩) (fun ha => ?_) (fun hi => ?_)
  · exact (mem_blocked_blockSocketAddr.mp ha).resolve_left (fun he => hne he.1)
  · rwa [ipSet_blockSocketAddr] at hi

theorem blockSocketAddr_unmodified (h : (bl.blockSocketAddr addr).1 = false) : (bl.blockSocketAddr addr).2 = bl := by
  unfold blockSocketAddr at h ⊢
  split at h
  · cases h
  · split at h
    · rename_i hna hb
      rw [if_neg hna, if_pos hb]
    · cases h

theorem unblocked_allowSocketAddr (h : bl.socketAddrIsBlocked a = false) :
    (bl.allowSocketAddr addr).2.socketAddrIsBlocked a = false := by
  refine unblocked_of_le h (fun ha => mem_allowed_allowSocketAddr.mpr (.inr ha))
    (fun ha => (mem_blocked_allowSocketAddr.mp ha).2) (fun hi => ?_)
  rwa [ipSet_allowSocketAddr] at hi

theorem unblocked_blockIpAddr {ip : IpAddr} (hne : a.ip ≠ ip) (h : bl.socketAddrIsBlocked a = false) :
    (bl.blockIpAddr ip).2.socketAddrIsBlocked a = false := by
  unfold blockIpAddr
  split
  · exact h
  · refine unblocked_of_le h id id (fun hi => ?_)
    simpa [hne] using hi

theorem unblocked_blockIpNet {net : IpNet} (hne : net.contains a.ip = false) (h : bl.socketAddrIsBlocked a = false) :
    (bl.blockIpNet net).socketAddrIsBlocked a = false := by
  refine unblocked_of_le h id id (fun hi => ?_)
  simpa [blockIpNet, hne] using hi

theorem unblocked_allowIpAddr {ip : IpAddr} (h : bl.socketAddrIsBlocked a = false) :
    (bl.allowIpAddr ip).2.socketAddrIsBlocked a = false := by
  unfold allowIpAddr
  split
  · refine unblocked_of_le h id id (fun hi => ?_)
    exact (Bool.and_eq_true_iff.mp hi).2
  · exact h

theorem unblocked_allowIpNet {net : IpNet} (h : bl.socketAddrIsBlocked a = false) :
    (bl.allowIpNet net).socketAddrIsBlocked a = false :=
  unblocked_of_le h id id (fun hi => (Bool.and_eq_true_iff.mp hi).2)

theorem blockIpAddr_unmodified {ip : IpAddr} (h : (bl.blockIpAddr ip).1 = false) : (bl.blockIpAddr ip).2 = bl := by
  unfold blockIpAddr at h ⊢
  split at h
  · rename_i hb
    rw [if_pos hb]
  · cases h

end BlockList

namespace NetworkThread

variable {α : Type} {t t' t'' : NetworkThread α} {a b : SocketAddr} {i j : Nat} {c : TcpChannel α} {env : Env}
  {ev : DispatchEvent (DispatchData α)}

/-- No channel in one of the maps is connected to a blocked address. -/
def BlockingEnforced (t : NetworkThread α) : Prop :=
  ∀ i, (i ∈ t.tokenMap ∨ ∃ a, t.addressMap.lookup a = some i) → ∀ addr id, (t.channel i).state = .connected addr id →
    t.blockList.socketAddrIsBlocked addr = false ∧ t.blockList.socketAddrIsBlocked (t.channel i).address = false

/-! ## What an event blocks -/

/-- The operation on the rules that an event of the dispatcher is. -/
def blockOp? : DispatchEvent (DispatchData α) → Option BlockOp
  | .blockSocket addr => some (.blockSocketAddr addr)
  | .blockIpAddr ip => some (.blockIpAddr ip)
  | .blockIpNet net => some (.blockIpNet net)
  | .allowSocket addr => some (.allowSocketAddr addr)
  | .allowIpAddr ip => some (.allowIpAddr ip)
  | .allowIpNet net => some (.allowIpNet net)
  | .sendTcp _ _ | .connect _ | .closedAck _ | .close _ => none

/-- The rules after the event. -/
def rulesAfter (t : NetworkThread α) (ev : DispatchEvent (DispatchData α)) : BlockList :=
  (blockOp? ev).elim t.blockList fun op => (t.blockList.apply op).2

/-- The address comes to be blocked. -/
def Hits (t : NetworkThread α) (ev : DispatchEvent (DispatchData α)) (addr : SocketAddr) : Prop :=
  t.blockList.socketAddrIsBlocked addr = false ∧ (t.rulesAfter ev).socketAddrIsBlocked addr = true

instance (t : NetworkThread α) (ev : DispatchEvent (DispatchData α)) (addr : SocketAddr) : Decidable (t.Hits ev addr) :=
  inferInstanceAs (Decidable (_ ∧ _))

/-- A polled channel whose peer has an address that comes to be blocked is registered under it, and a
registered channel that has such an address under no other. -/
def FindsHit (t : NetworkThread α) (ev : DispatchEvent (DispatchData α)) : Prop :=
  (∀ i ∈ t.tokenMap, ∀ b ∈ (t.channel i).state.greeted, t.Hits ev b → t.addressMap.lookup b = some i) ∧
    ∀ a ∈ t.addressMap.keys, ∀ i ∈ t.addressMap.lookup a, t.Hits ev (t.channel i).address → a = (t.channel i).address

instance (t : NetworkThread α) (ev : DispatchEvent (DispatchData α)) : Decidable (t.FindsHit ev) :=
  inferInstanceAs (Decidable (_ ∧ _))

/-! ## Who is listed -/

/-- The channel is polled or registered. -/
def Listed (t : NetworkThread α) (i : Nat) : Prop := i ∈ t.tokenMap ∨ ∃ a, t.addressMap.lookup a = some i

/-- A listed channel was listed before and had the peer that it has, or the address of the peer is one of `U`.
The address of a peer is that of its channel. -/
structure Admits (U : SocketAddr → Prop) (t t' : NetworkThread α) : Prop where
  listed : ∀ i b, t'.Listed i → (t'.channel i).state.greeted = some b →
    t.Listed i ∧ (t.channel i).state.greeted = some b ∨ U b
  address : ∀ i b, (t'.channel i).state.greeted = some b → (t'.channel i).address = b ∨
    (t.channel i).state.greeted = some b ∧ (t'.channel i).address = (t.channel i).address

section Admits

variable {U : SocketAddr → Prop}

theorem Admits.trans (h : Admits U t t') (h' : Admits U t' t'') : Admits U t t'' where
  listed i b hl hg := (h'.listed i b hl hg).elim (fun hx => h.listed i b hx.1 hx.2) .inr
  address i b hg := by
    rcases h'.address i b hg with ha' | ⟨hg', ha'⟩
    · exact .inl ha'
    · rcases h.address i b hg' with ha | ⟨hg, ha⟩
      · exact .inl (ha'.trans ha)
      · exact .inr ⟨hg, ha'.trans ha⟩

/-- No channel is new in the maps, and all keep their addresses. -/
theorem Admits.of_listed (hl : ∀ i, t'.Listed i → t.Listed i) (hc : ∀ i, (t.channel i).Unmoved (t'.channel i)) :
    Admits U t t' where
  listed i b h hg := .inl ⟨hl i h, (hc i).greeted b hg⟩
  address i b hg := .inr ⟨(hc i).greeted b hg, (hc i).address⟩

theorem Unmoved.admits (h : Unmoved t t') : Admits U t t' :=
  .of_listed (fun _ hl => hl.imp (h.tokenMap _) fun ⟨a, ha⟩ => ⟨a, h.addressMap ▸ ha⟩) h.channel

theorem admits_dropChannel : Admits U t (t.dropChannel i) := by
  rw [dropChannel_eq]
  refine .of_listed (fun j hl => ?_) fun j => ?_
  · rcases hl with hm | ⟨a, ha⟩
    · exact .inl (mem_discard.mp hm).1
    · rw [lookup_discard] at ha
      split at ha
      · cases ha
      · exact .inr ⟨a, ha⟩
  · rw [channel_discard]
    split
    · subst_vars
      exact .shutdown
    · exact .refl _

theorem admits_storeStream {st : ChannelState} (hg : st.greeted = none) : Admits U t (t.storeStream b st env) := by
  have hnew : ∀ b', ((t.storeStream b st env).channel t.token).state.greeted ≠ some b' := by
    intro b'
    rw [storeStream_new.2, hg]
    exact Option.some_ne_none b' |>.symm
  constructor
  · intro i b' hl hb
    by_cases hi : i = t.token
    · exact absurd (hi ▸ hb) (hnew b')
    rw [channel_storeStream hi] at hb
    refine .inl ⟨hl.imp (fun hm => (List.mem_cons.mp hm).resolve_left hi) fun ⟨a, ha⟩ => ⟨a, ?_⟩, hb⟩
    rw [lookup_storeStream] at ha
    split at ha
    · exact absurd (Option.some.inj ha).symm hi
    · exact ha
  · intro i b' hb
    by_cases hi : i = t.token
    · exact absurd (hi ▸ hb) (hnew b')
    rw [channel_storeStream hi] at hb ⊢
    exact .inr ⟨hb, rfl⟩

theorem admits_parts : KeptByParts (Admits (α := α) U) where
  refl t := (Unmoved.refl t).admits
  trans h h' := h.trans h'
  notify _ _ _ := unmoved_notify.admits
  setBlockList _ _ := .of_listed (fun _ hl => hl) fun _ => .refl _
  dropChannel _ _ := admits_dropChannel
  close _ _ _ := ((unmoved_setChannel (TcpChannel.unmoved_graceful _)).trans unmoved_updateLru).admits

theorem admits_requestStream : Admits U t (t.requestStream a env) :=
  admits_parts.requestStream fun _ => admits_storeStream rfl

/-- An event of the dispatcher lets nobody in. -/
theorem admits_handleDispatchEvent : Admits U t (t.handleDispatchEvent env ev) :=
  admits_parts.handleDispatchEvent (fun _ _ _ => unmoved_sendTcpMessage.admits) fun _ _ => admits_requestStream

/-! ## Frames -/

theorem listed_reregister (h : (t.reregisterChannelAddress a b).Listed i) : t.Listed i := by
  unfold reregisterChannelAddress at h
  split at h
  · rename_i j hj
    refine h.imp id fun ⟨a', ha⟩ => ?_
    have ha' : ((t.addressMap.erase a).insert b j).lookup a' = some i := ha
    rw [AssocMap.lookup_insert, AssocMap.lookup_erase] at ha'
    split at ha'
    · exact ⟨a, Option.some.inj ha' ▸ hj⟩
    · split at ha'
      · cases ha'
      · exact ⟨a', ha'⟩
  · exact h

/-- A channel keeps its peer, or gets one that it is told of. -/
theorem admits_renameChannel (hc : ∀ b', c.state.greeted = some b' → c.address = b' ∧ U b' ∨
      (t.channel i).state.greeted = some b' ∧ c.address = (t.channel i).address) :
    Admits U t (t.renameChannel i b c) := by
  have hch : ∀ j, (t.renameChannel i b c).channel j = if j = i then c else t.channel j := by
    intro j
    unfold NetworkThread.renameChannel
    rw [channel_setChannel, channel_reregister]
  constructor
  · intro j b' hl hg
    have hl' : t.Listed j := listed_reregister hl
    rw [hch] at hg
    split at hg
    · subst_vars
      exact (hc b' hg).elim (fun hx => .inr hx.2) fun hx => .inl ⟨hl', hx.1⟩
    · exact .inl ⟨hl', hg⟩
  · intro j b' hg
    rw [hch] at hg ⊢
    split at hg
    · subst_vars
      rw [if_pos rfl]
      exact (hc b' hg).imp_left And.left
    · rename_i hj
      rw [if_neg hj]
      exact .inr ⟨hg, rfl⟩

theorem admits_handleHello (hU : t.blockList.socketAddrIsBlocked b = false → U b) :
    Admits U t (t.handleHello i b env) := by
  rw [handleHello_eq]
  split
  · exact admits_dropChannel
  · rename_i hb
    refine admits_renameChannel fun b' hg => ?_
    rcases handleHello_spec (c := t.channel i) (b := b) (env.taken i) with ⟨-, ha, hg'⟩ | ⟨-, hc⟩
    · obtain rfl := Option.some.inj (hg'.symm.trans hg)
      exact .inl ⟨ha, hU (eq_false_of_ne_true hb)⟩
    · rw [hc] at hg ⊢
      exact .inr ⟨hg, rfl⟩

theorem admits_startChannel {id : SessionId} (hU : U b) (hs : t.startChannel i b id env = some t') :
    Admits U t t' := by
  obtain ⟨t₁, h₁, rfl⟩ := startChannel_eq hs
  refine .trans (admits_renameChannel fun b' hg => ?_) ((admits_parts.checkSoft h₁).trans unmoved_notify.admits)
  by_cases hst : (t.channel i).state = .initialising
  · obtain ⟨ha, hst'⟩ := handleStart_spec (b := b) hst id (env.taken i)
    rw [hst'] at hg
    obtain rfl := Option.some.inj hg
    exact .inl ⟨ha, hU⟩
  · have hc : (t.channel i).handleStart b id (env.taken i) = t.channel i := by
      unfold TcpChannel.handleStart
      split
      · exact absurd ‹_› hst
      · rfl
    rw [hc] at hg ⊢
    exact .inr ⟨hg, rfl⟩

theorem admits_handleStart {id : SessionId} (hU : t.blockList.socketAddrIsBlocked b = false → U b)
    (hs : t.handleStart i b id env = some t') : Admits U t t' := by
  rcases handleStart_cases hs with ⟨-, rfl⟩ | ⟨hb, hs⟩
  · exact admits_dropChannel
  rcases hs with ⟨-, hs⟩ | ⟨other, t₁, -, -, rfl, hs⟩
  · exact admits_startChannel (hU hb) hs
  have hread : Admits U t (t.setChannel other ((t.channel other).readState env.error)) :=
    (unmoved_setChannel (TcpChannel.unmoved_readState env.error)).admits
  refine hread.trans ?_
  rcases hs with ⟨-, rfl⟩ | ⟨-, hs | hs⟩
  · exact admits_dropChannel
  · exact unmoved_lostConnection.admits.trans (admits_startChannel (hU hb) hs)
  · exact admits_dropChannel.trans (admits_startChannel (hU hb) hs)

theorem admits_handleAck (hs : t.handleAck i env = some t') : Admits U t t' := by
  simp only [NetworkThread.handleAck] at hs
  obtain ⟨t₁, h₁, hs⟩ := Option.bind_eq_some_iff.mp hs
  obtain ⟨id, -, hs⟩ := Option.bind_eq_some_iff.mp hs
  obtain rfl := Option.some.inj hs
  have hack : Admits U t (t.setChannel i (t.channel i).handleAck) :=
    (unmoved_setChannel TcpChannel.unmoved_handleAck).admits
  exact (hack.trans (admits_parts.checkSoft h₁)).trans unmoved_notify.admits

theorem admits_handleBye : Admits U t (t.handleBye i env) := by
  have hu : Unmoved t (t.setChannel i ((t.channel i).handleBye (env.taken i))) :=
    unmoved_setChannel (TcpChannel.unmoved_handleBye _)
  unfold NetworkThread.handleBye
  simp only
  split
  · exact (((hu.trans unmoved_deregister).trans unmoved_notify).trans unmoved_rejectOutbound).admits
  · exact hu.admits
  · exact hu.admits.trans admits_dropChannel

theorem admits_endRead : Admits U t t.endRead := .of_listed (fun _ hl => hl) fun _ => .refl _

theorem admits_handleFrame {frame : NetFrame α} (hU : ∀ b, t.blockList.socketAddrIsBlocked b = false → U b)
    (hs : t.handleFrame i frame env = some t') : Admits U t t' := by
  cases frame with
  | data msg => exact (unmoved_handleData hs).admits
  | hello addr => exact Option.some.inj hs ▸ admits_handleHello (hU addr)
  | start addr id =>
    obtain ⟨t₁, h₁, rfl⟩ := Option.map_eq_some_iff.mp hs
    exact (admits_handleStart (hU addr) h₁).trans admits_endRead
  | ack => exact admits_handleAck hs
  | bye => exact Option.some.inj hs ▸ admits_handleBye.trans admits_endRead

/-- An event of the network lets in only whom the rules allow. -/
theorem admits_step {act : Action α} (hU : ∀ b, t.blockList.socketAddrIsBlocked b = false → U b)
    (hs : t.step act = some t') : Admits U t t' := by
  cases act with
  | accept addr env =>
    obtain ⟨-, rfl⟩ := step_accept hs
    exact admits_parts.receiveStream (admits_storeStream rfl)
  | write i res env =>
    obtain ⟨-, -, rfl⟩ := step_write hs
    exact unmoved_writeTcp.admits
  | beginRead i =>
    obtain ⟨-, -, rfl⟩ := step_beginRead hs
    exact (unmoved_updateLru (i := i)).admits.trans (.of_listed (fun _ hl => hl) fun _ => .refl _)
  | read frame env =>
    obtain ⟨i, -, hs⟩ := Option.bind_eq_some_iff.mp hs
    exact admits_handleFrame hU hs
  | endRead =>
    obtain ⟨i, -, rfl⟩ := Option.map_eq_some_iff.mp hs
    exact admits_endRead
  | resetRead env =>
    obtain ⟨i, -, rfl⟩ := Option.map_eq_some_iff.mp hs
    exact unmoved_lostConnection.admits.trans admits_endRead
  | noBuffers env =>
    obtain ⟨i, -, rfl⟩ := Option.map_eq_some_iff.mp hs
    split
    · exact admits_endRead
    · exact (unmoved_updateLru.trans unmoved_lostConnection).admits.trans admits_endRead

theorem unmoved_stopAll (addrs : List SocketAddr) (t : NetworkThread α) :
    Unmoved t (addrs.foldl (stopChannel env) t) := by
  induction addrs generalizing t with
  | nil => exact .refl t
  | cons a rest ih =>
    refine Unmoved.trans ?_ (ih _)
    unfold stopChannel
    split
    · exact (unmoved_setChannel (TcpChannel.unmoved_graceful _)).trans unmoved_deregister
    · exact .refl t

/-- When the thread is stopped, no channel is registered any more. -/
theorem admits_stop : Admits U t (t.stop env) :=
  (unmoved_stopAll env.order t).admits.trans
    (.of_listed (fun _ hl => hl.imp id fun ⟨_, ha⟩ => by cases ha) fun _ => .refl _)

theorem admits_kill : Admits U t t.kill :=
  .of_listed (fun _ hl => hl.imp id fun ⟨_, ha⟩ => by cases ha) fun _ => .refl _

end Admits

/-! ## The rules -/

theorem blockList_closeConnection : (t.closeConnection a env).blockList = t.blockList := by
  unfold NetworkThread.closeConnection
  split
  · split
    · exact unmoved_updateLru.blockList
    · rfl
  · rfl

theorem blockList_handleClosedAck : (t.handleClosedAck a).blockList = t.blockList := by
  unfold NetworkThread.handleClosedAck
  split
  · split
    · rfl
    · rfl
  · rfl

theorem blockList_checkSoft {busy : Nat} (hs : t.checkSoftConnectionLimit busy env = some t') :
    t'.blockList = t.blockList := by
  rcases checkSoft_cases hs with rfl | ⟨j, -, -, -, rfl⟩
  · rfl
  · exact blockList_closeConnection

theorem blockList_openStream : (t.openStream a env).blockList = t.blockList := by
  unfold NetworkThread.openStream
  split
  · rfl
  · split
    · rfl
    · rfl

theorem blockList_requestStream : (t.requestStream a env).blockList = t.blockList := by
  unfold NetworkThread.requestStream
  split
  · split
    · rfl
    · rfl
    · exact blockList_openStream
  · exact blockList_openStream

theorem blockList_receiveStream : (t.receiveStream a env).blockList = t.blockList := by
  unfold NetworkThread.receiveStream
  split
  · rfl
  · split
    · rfl
    · split
      · rfl
      · rfl

theorem blockList_renameChannel : (t.renameChannel i b c).blockList = t.blockList := by
  unfold NetworkThread.renameChannel reregisterChannelAddress
  split
  · rfl
  · rfl

theorem blockList_startChannel {id : SessionId} (hs : t.startChannel i b id env = some t') :
    t'.blockList = t.blockList := by
  obtain ⟨t₁, h₁, rfl⟩ := startChannel_eq hs
  exact (blockList_checkSoft h₁).trans blockList_renameChannel

theorem blockList_handleStart {id : SessionId} (hs : t.handleStart i b id env = some t') :
    t'.blockList = t.blockList := by
  rcases handleStart_cases hs with ⟨-, rfl⟩ | ⟨-, hs⟩
  · rfl
  rcases hs with ⟨-, hs⟩ | ⟨other, t₁, -, -, rfl, hs⟩
  · exact blockList_startChannel hs
  rcases hs with ⟨-, rfl⟩ | ⟨-, hs | hs⟩
  · rfl
  · exact (blockList_startChannel hs).trans unmoved_lostConnection.blockList
  · refine (blockList_startChannel hs).trans ?_
    rfl

theorem blockList_handleFrame {frame : NetFrame α} (hs : t.handleFrame i frame env = some t') :
    t'.blockList = t.blockList := by
  cases frame with
  | data msg => exact (unmoved_handleData hs).blockList
  | hello addr =>
    obtain rfl := Option.some.inj hs
    rw [handleHello_eq]
    split
    · rfl
    · exact blockList_renameChannel
  | start addr id =>
    obtain ⟨t₁, h₁, rfl⟩ := Option.map_eq_some_iff.mp hs
    have hb : t₁.blockList = t.blockList := blockList_handleStart h₁
    exact hb
  | ack =>
    simp only [NetworkThread.handleFrame, NetworkThread.handleAck] at hs
    obtain ⟨t₁, h₁, hs⟩ := Option.bind_eq_some_iff.mp hs
    obtain ⟨id, -, hs⟩ := Option.bind_eq_some_iff.mp hs
    obtain rfl := Option.some.inj hs
    refine (blockList_checkSoft h₁).trans ?_
    rfl
  | bye =>
    obtain rfl := Option.some.inj hs
    unfold NetworkThread.handleBye
    simp only
    split
    · rfl
    · rfl
    · rfl

theorem blockList_step {act : Action α} (hs : t.step act = some t') : t'.blockList = t.blockList := by
  cases act with
  | accept addr env =>
    obtain ⟨-, rfl⟩ := step_accept hs
    exact blockList_receiveStream
  | write i res env =>
    obtain ⟨-, -, rfl⟩ := step_write hs
    exact unmoved_writeTcp.blockList
  | beginRead i =>
    obtain ⟨-, -, rfl⟩ := step_beginRead hs
    exact unmoved_updateLru.blockList
  | read frame env =>
    obtain ⟨i, -, hs⟩ := Option.bind_eq_some_iff.mp hs
    exact blockList_handleFrame hs
  | endRead =>
    obtain ⟨i, -, rfl⟩ := Option.map_eq_some_iff.mp hs
    rfl
  | resetRead env =>
    obtain ⟨i, -, rfl⟩ := Option.map_eq_some_iff.mp hs
    have hb : (t.lostConnection i env).blockList = t.blockList := unmoved_lostConnection.blockList
    exact hb
  | noBuffers env =>
    obtain ⟨i, -, rfl⟩ := Option.map_eq_some_iff.mp hs
    split
    · rfl
    · have hb : ((t.updateLru i).lostConnection i env).blockList = t.blockList :=
        (unmoved_updateLru.trans unmoved_lostConnection).blockList
      exact hb

theorem blockList_stop : (t.stop env).blockList = t.blockList := (unmoved_stopAll env.order t).blockList

theorem blockList_dropBlocked : (t.dropBlocked a).blockList = t.blockList := by
  unfold NetworkThread.dropBlocked
  split
  · split
    · rfl
    · rfl
  · rfl

theorem blockList_dropAll (addrs : List SocketAddr) (t : NetworkThread α) :
    (addrs.foldl NetworkThread.dropBlocked t).blockList = t.blockList := by
  induction addrs generalizing t with
  | nil => rfl
  | cons a rest ih => exact (ih _).trans blockList_dropBlocked

theorem blockList_handleDispatchEvent : (t.handleDispatchEvent env ev).blockList = t.rulesAfter ev := by
  cases ev with
  | sendTcp addr data => exact unmoved_sendTcpMessage.blockList
  | connect addr =>
    unfold NetworkThread.handleDispatchEvent
    simp only
    split
    · rfl
    · exact blockList_requestStream
  | closedAck addr => exact blockList_handleClosedAck
  | close addr => exact blockList_closeConnection
  | blockSocket addr =>
    unfold NetworkThread.handleDispatchEvent NetworkThread.blockSocketAddr
    simp only
    split
    · rfl
    · rfl
  | blockIpAddr ip =>
    unfold NetworkThread.handleDispatchEvent NetworkThread.blockIpAddr
    simp only
    split
    · exact blockList_dropAll _ _
    · exact (BlockList.blockIpAddr_unmodified (eq_false_of_ne_true ‹_›)).symm
  | blockIpNet net => exact blockList_dropAll _ _
  | allowSocket addr =>
    unfold NetworkThread.handleDispatchEvent NetworkThread.allowSocketAddr
    simp only
    split
    · rfl
    · rfl
  | allowIpAddr ip => rfl
  | allowIpNet net => rfl

/-! ## Dropping what comes to be blocked -/

/-- Channels whose peers have one of the addresses are registered under it, and under no other. -/
structure Found (H : SocketAddr → Prop) (t : NetworkThread α) : Prop where
  address : ∀ i b, (t.channel i).state.greeted = some b → (t.channel i).address = b
  polled : ∀ i ∈ t.tokenMap, ∀ b, (t.channel i).state.greeted = some b → H b → t.addressMap.lookup b = some i
  own : ∀ a i, t.addressMap.lookup a = some i → H (t.channel i).address → a = (t.channel i).address

section Found

variable {H : SocketAddr → Prop}

theorem Found.lookup (h : t.Found H) (hl : t.Listed i) (hg : (t.channel i).state.greeted = some b) (hb : H b) :
    t.addressMap.lookup b = some i := by
  rcases hl with hm | ⟨a, ha⟩
  · exact h.polled i hm b hg hb
  · have haddr := h.address i b hg
    obtain rfl : a = b := (h.own a i ha (haddr.symm ▸ hb)).trans haddr
    exact ha

/-- A registered channel is dropped. -/
theorem Found.dropChannel (h : t.Found H) (ha : t.addressMap.lookup a = some j) : (t.dropChannel j).Found H := by
  have hch : ∀ i, (t.channel i).Unmoved ((t.dropChannel j).channel i) := by
    intro i
    rw [dropChannel_eq, channel_discard]
    split
    · subst_vars
      exact .shutdown
    · exact .refl _
  constructor
  · intro i b hg
    rw [(hch i).address]
    exact h.address i b ((hch i).greeted b hg)
  · intro i hm b hg hb
    rw [dropChannel_eq] at hm
    obtain ⟨hm, hij⟩ := mem_discard.mp hm
    have hi := h.polled i hm b ((hch i).greeted b hg) hb
    rw [dropChannel_eq, lookup_discard, if_neg]
    · exact hi
    · -- the channel under `b` is not the one that is dropped
      rintro rfl
      rw [← h.own a j ha hb, ha] at hi
      exact hij (Option.some.inj hi).symm
  · intro a' i hi hH
    rw [(hch i).address] at hH ⊢
    rw [dropChannel_eq, lookup_discard] at hi
    split at hi
    · cases hi
    · exact h.own a' i hi hH

/-- After it nobody is listed with the address as peer. -/
theorem Found.gone (h : t.Found H) (ha : t.addressMap.lookup a = some j) (hH : H a)
    (hl : (t.dropChannel j).Listed i) : ((t.dropChannel j).channel i).state.greeted ≠ some a := by
  intro hg
  have hi := (h.dropChannel ha).lookup hl hg hH
  rw [dropChannel_eq, lookup_discard] at hi
  split at hi
  · cases hi
  · rename_i hne
    obtain rfl := Option.some.inj (ha.symm.trans hi)
    have haddr := (h.dropChannel ha).address j a hg
    rw [dropChannel_eq, channel_discard, if_pos rfl, address_shutdown] at haddr
    exact hne haddr.symm

theorem Found.dropBlocked (h : t.Found H) : (t.dropBlocked a).Found H ∧
    (H a → ∀ i, (t.dropBlocked a).Listed i → ((t.dropBlocked a).channel i).state.greeted ≠ some a) := by
  unfold NetworkThread.dropBlocked
  split
  · rename_i j hj
    split
    · have hn : (t.notifyNetworkStatus (.connectionDropped a)).Found H := ⟨h.address, h.polled, h.own⟩
      exact ⟨hn.dropChannel hj, fun hH i hl => hn.gone hj hH hl⟩
    · exact ⟨h.dropChannel hj, fun hH i hl => h.gone hj hH hl⟩
  · rename_i hn
    refine ⟨h, fun hH i hl hg => ?_⟩
    rw [h.lookup hl hg hH] at hn
    cases hn

theorem Found.dropAll (addrs : List SocketAddr) (h : t.Found H) (ha : a ∈ addrs) (hH : H a)
    (hl : (addrs.foldl NetworkThread.dropBlocked t).Listed i) :
    ((addrs.foldl NetworkThread.dropBlocked t).channel i).state.greeted ≠ some a := by
  induction addrs generalizing t with
  | nil => cases ha
  | cons b rest ih =>
    obtain ⟨hf, hgone⟩ := h.dropBlocked (a := b)
    rcases List.mem_cons.mp ha with rfl | ha
    · intro hg
      have hadmits : Admits (fun _ => False) _ _ := admits_parts.dropAll rest (t.dropBlocked a)
      obtain ⟨hl', hg'⟩ := (hadmits.listed i a hl hg).resolve_right id
      exact hgone hH i hl' hg'
    · exact ih hf ha hl

end Found

/-- All channels of the addresses that come to be blocked are dropped. -/
theorem gone_dropAllBlocked {bl : BlockList} {hit : IpAddr → Bool} {order : List SocketAddr} {H : SocketAddr → Prop}
    (h : t.Found H) (hH : H b) (hhit : hit b.ip = true) (hb : bl.socketAddrIsBlocked b = true)
    (horder : ∀ a ∈ t.addressMap.keys, a ∈ order)
    (hl : ({ t with blockList := bl }.dropAllBlocked hit order).Listed i) :
    (({ t with blockList := bl }.dropAllBlocked hit order).channel i).state.greeted ≠ some b := by
  intro hg
  have hf : Found H { t with blockList := bl } := ⟨h.address, h.polled, h.own⟩
  refine hf.dropAll _ (List.mem_filter.mpr ⟨horder b ?_, ?_⟩) hH hl hg
  · -- it is registered, since it was listed before
    have hadmits : Admits (fun _ => False) { t with blockList := bl }
        ({ t with blockList := bl }.dropAllBlocked hit order) := admits_parts.dropAll _ _
    obtain ⟨hl', hg'⟩ := (hadmits.listed i b hl hg).resolve_right id
    have hi : t.addressMap.lookup b = some i := hf.lookup hl' hg' hH
    exact AssocMap.mem_keys_of_lookup hi
  · rw [hhit]
    exact hb

/-- After an event nobody is listed whose peer has come to be blocked. -/
theorem gone_handleDispatchEvent (ha : ∀ i b, (t.channel i).state.greeted = some b → (t.channel i).address = b)
    (hf : t.FindsHit ev) (horder : visitsAll ev = true → ∀ a ∈ t.addressMap.keys, a ∈ env.order) (hH : t.Hits ev b)
    (hl : (t.handleDispatchEvent env ev).Listed i) :
    ((t.handleDispatchEvent env ev).channel i).state.greeted ≠ some b := by
  have hfound : t.Found (t.Hits ev) := by
    exact ⟨ha, hf.1, fun a i hi hx => hf.2 a (AssocMap.mem_keys_of_lookup hi) i hi hx⟩
  obtain ⟨hold, hnew⟩ := hH
  -- where no rule is added nothing comes to be blocked
  have hnone : (t.rulesAfter ev).socketAddrIsBlocked b = false →
      ((t.handleDispatchEvent env ev).channel i).state.greeted ≠ some b :=
    fun hb => absurd (hb.symm.trans hnew) Bool.false_ne_true
  cases ev with
  | sendTcp | connect | closedAck | close => exact hnone hold
  | allowSocket addr => exact hnone (BlockList.unblocked_allowSocketAddr hold)
  | allowIpAddr ip => exact hnone (BlockList.unblocked_allowIpAddr hold)
  | allowIpNet net => exact hnone (BlockList.unblocked_allowIpNet hold)
  | blockSocket addr =>
    by_cases hb : b = addr
    · subst hb
      cases hm : (t.blockList.blockSocketAddr b).1 with
      | false => exact hnone ((congrArg (·.socketAddrIsBlocked b) (BlockList.blockSocketAddr_unmodified hm)).trans hold)
      | true =>
        have hf₁ : Found (t.Hits (.blockSocket b)) { t with blockList := (t.blockList.blockSocketAddr b).2 } :=
          ⟨hfound.address, hfound.polled, hfound.own⟩
        unfold NetworkThread.handleDispatchEvent NetworkThread.blockSocketAddr at hl ⊢
        cases hlk : t.addressMap.lookup b with
        | none =>
          simp only [hm, hlk] at hl ⊢
          intro hg
          have hreg := hf₁.lookup hl hg ⟨hold, hnew⟩
          rw [hlk] at hreg
          cases hreg
        | some j =>
          simp only [hm, hlk] at hl ⊢
          exact hf₁.gone hlk ⟨hold, hnew⟩ hl
    · exact hnone (BlockList.unblocked_blockSocketAddr hb hold)
  | blockIpAddr ip =>
    by_cases hb : b.ip = ip
    · unfold NetworkThread.handleDispatchEvent NetworkThread.blockIpAddr at hl ⊢
      cases hm : (t.blockList.blockIpAddr ip).1 with
      | false => exact hnone ((congrArg (·.socketAddrIsBlocked b) (BlockList.blockIpAddr_unmodified hm)).trans hold)
      | true =>
        simp only [hm, if_true] at hl ⊢
        exact gone_dropAllBlocked hfound ⟨hold, hnew⟩ (decide_eq_true hb) hnew (horder rfl) hl
    · exact hnone (BlockList.unblocked_blockIpAddr hb hold)
  | blockIpNet net =>
    cases hb : net.contains b.ip with
    | false => exact hnone (BlockList.unblocked_blockIpNet hb hold)
    | true => exact gone_dropAllBlocked hfound ⟨hold, hnew⟩ hb hnew (horder rfl) hl

/-! ## Who is let in -/

/-- The peer of a listed channel is not blocked. -/
structure Admitted (t : NetworkThread α) : Prop where
  address : ∀ i b, (t.channel i).state.greeted = some b → (t.channel i).address = b
  unblocked : ∀ i b, t.Listed i → (t.channel i).state.greeted = some b → t.blockList.socketAddrIsBlocked b = false

theorem Admitted.admits (h : t.Admitted) (ha : Admits (fun b => t'.blockList.socketAddrIsBlocked b = false) t t')
    (hb : ∀ i b, t'.Listed i → (t'.channel i).state.greeted = some b → t.blockList.socketAddrIsBlocked b = false →
      t'.blockList.socketAddrIsBlocked b = false) : t'.Admitted where
  address i b hg := (ha.address i b hg).elim id fun hx => hx.2.trans (h.address i b hx.1)
  unblocked i b hl hg := (ha.listed i b hl hg).elim (fun hx => hb i b hl hg (h.unblocked i b hx.1 hx.2)) id

/-- The rules are as before. -/
theorem Admitted.same (h : t.Admitted) (hbl : t'.blockList = t.blockList)
    (ha : Admits (fun b => t.blockList.socketAddrIsBlocked b = false) t t') : t'.Admitted := by
  rw [← hbl] at ha
  refine h.admits ha fun i b _ _ hb => ?_
  rw [hbl]
  exact hb

/-- Where the maps agree every channel is found. -/
theorem Admitted.findsHit (h : t.Admitted) (hm : t.Mapped) (ev : DispatchEvent (DispatchData α)) : t.FindsHit ev := by
  refine ⟨fun i hi b hb _ => ?_, fun a _ i hi _ => (hm.key a i hi).symm⟩
  rw [← h.address i b hb]
  exact hm.polled i hi

theorem Admitted.handleDispatchEvent (h : t.Admitted) (hf : t.FindsHit ev)
    (horder : visitsAll ev = true → ∀ a ∈ t.addressMap.keys, a ∈ env.order) :
    (t.handleDispatchEvent env ev).Admitted := by
  refine h.admits admits_handleDispatchEvent fun i b hl hg hb => ?_
  by_contra hne
  rw [blockList_handleDispatchEvent] at hne
  exact gone_handleDispatchEvent h.address hf horder ⟨hb, eq_true_of_ne_false hne⟩ hl hg

end NetworkThread

/-! ## Runs -/

namespace RunLoop

open NetworkThread

variable {α : Type} {r r' : RunLoop α} {addr : SocketAddr} {soft hard : Nat}

/-- An event that blocks addresses finds the channels of their peers. -/
def FindsHit (r : RunLoop α) : Action α → Prop
  | .dispatch ev _ => r.thread.FindsHit ev
  | _ => True

instance (r : RunLoop α) : (act : Action α) → Decidable (r.FindsHit act)
  | .dispatch ev _ => inferInstanceAs (Decidable (r.thread.FindsHit ev))
  | .stop _ | .kill | .network _ => inferInstanceAs (Decidable True)

theorem admitted_step {act : Action α} (h : r.thread.Admitted) (hf : r.FindsHit act) (hs : r.step act = some r') :
    r'.thread.Admitted := by
  rcases step_cases hs with ⟨ev, env, rfl, -, horder, ht⟩ | ⟨env, rfl, -, -, ht⟩ | ⟨rfl, -, ht⟩ | ⟨nact, rfl, ht⟩
  · rw [ht]
    exact h.handleDispatchEvent hf fun hv a ha => (horder hv).mem_iff.mpr ha
  · rw [ht]
    exact h.same blockList_stop admits_stop
  · rw [ht]
    exact h.same rfl admits_kill
  · exact h.same (blockList_step ht) (admits_step (fun _ hb => hb) ht)

theorem admitted_of_reach (h : Reach step FindsHit (new addr soft hard) r) : r.thread.Admitted := by
  have hnew : (new addr soft hard : RunLoop α).thread.Admitted := by
    constructor
    · intro i b hg
      cases hg
    · intro i b _ hg
      cases hg
  exact h.invariant (fun r => r.thread.Admitted) hnew fun hi hf hs => admitted_step hi hf hs

/-- In the runs in which no channel pushes another one aside all events find the channels. -/
theorem findsHit_of_undisturbed (h : Reach step Undisturbed (new addr soft hard) r) :
    Reach step FindsHit (new addr soft hard) r := by
  induction h with
  | init => exact .init
  | @step r r' act h hok hs ih =>
    refine ih.step ?_ hs
    cases act with
    | dispatch ev env => exact (admitted_of_reach ih).findsHit (mapped_of_reach h).1 ev
    | stop | kill | network => trivial

/-- In every run in which the events that block addresses find the channels of their peers blocking is
enforced, whatever the peers say, and also after the thread was stopped or killed. -/
theorem blockingEnforced_of_findsHit (h : Reach step FindsHit (new addr soft hard) r) :
    r.thread.BlockingEnforced := by
  have hadm := admitted_of_reach h
  intro i hi addr id hst
  have hg : (r.thread.channel i).state.greeted = some addr := by rw [hst]; rfl
  have hb := hadm.unblocked i addr hi hg
  rw [hadm.address i addr hg]
  exact ⟨hb, hb⟩

/-- One peer says `Hello` twice, and another one is blocked after it was started; the thread is killed. -/
theorem blockingEnforced_of_findsHit_killed :
    let run : List (Action Nat) := greetedTwice ++ [.network (.beginRead 0), .network (.read .ack {}),
      .network .endRead, .network (.accept (Dispatcher.localhost 9000) {}), .network (.beginRead 1),
      .network (.read (.start (Dispatcher.localhost 83) ⟨9⟩) {}), .dispatch (.blockSocket (Dispatcher.localhost 83)) {},
      .kill]
    ∃ h : (runActions step (new (Dispatcher.localhost 1) 100 100) run).isSome,
      (Option.get _ h).thread.tokenMap = [0] ∧
        (Option.get _ h).thread.blockList.socketAddrIsBlocked (Dispatcher.localhost 83) = true ∧
        ((Option.get _ h).thread.channel 0).connected = true ∧ (Option.get _ h).thread.BlockingEnforced :=
  ⟨by decide, by decide, by decide, by decide, blockingEnforced_of_findsHit (Reach.of_run _ (by decide) (by decide))⟩

/-- The peer that said `Hello` twice is blocked under its first address, and completes the handshake. -/
theorem not_blockingEnforced_greeted_twice :
    ∃ r : RunLoop Nat, Reach step (fun _ _ => True) (new (Dispatcher.localhost 1) 100 100) r ∧
      ¬ r.thread.BlockingEnforced := by
  have hrun : ∃ r : RunLoop Nat, Reach step (fun _ _ => True) (new (Dispatcher.localhost 1) 100 100) r ∧
      0 ∈ r.thread.tokenMap ∧ (r.thread.channel 0).state = .connected (Dispatcher.localhost 81) ⟨7⟩ ∧
      r.thread.blockList.socketAddrIsBlocked (Dispatcher.localhost 81) = true :=
    ⟨_, Reach.of_run (greetedTwice ++ [.dispatch (.blockSocket (Dispatcher.localhost 81)) {}, .network (.beginRead 0),
      .network (.read .ack {})]) (by decide) (runMeets_true _ _), by decide, by decide, by decide⟩
  obtain ⟨r, hr, hm, hst, hb⟩ := hrun
  refine ⟨r, hr, fun he => ?_⟩
  exact absurd (hb.symm.trans (he 0 (.inl hm) _ _ hst).1) (by decide)

end RunLoop

end Kompact
