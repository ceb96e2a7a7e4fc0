import Kompact.Network.Thread

/-!
# One side of a mutual connect

A network thread that is asked to connect to a peer and is connected to by the
same peer has at most two channels, the one it requested (`out`) and the one
it accepted (`acc`). `Side` is all there is to know about the thread: which of
the two is polled and registered where. `phase` is how far a channel has come,
and `flight` are the frames on their way from it to the other end.

There is one lemma for each thing that can happen to the side, about the two
phases and the two lists of frames.
-/

namespace Kompact

/-- How far a channel has come. -/
inductive Phase where
  | absent
  | inUse (state : ChannelState)
  | gone
  deriving DecidableEq, Repr

namespace Phase

def isInUse : Phase → Bool
  | inUse _ => true
  | _ => false

def isConnected : Phase → Bool
  | inUse state => state.isConnected
  | _ => false

end Phase

namespace TcpChannel

variable {α : Type} {c : TcpChannel α}

/-- The frames that the channel has sent or is going to send. -/
def pipeline (c : TcpChannel α) : List (NetFrame α) := c.written ++ c.outboundQueue

theorem pipeline_tryDrain (n : Nat) : (c.tryDrain n).pipeline = c.pipeline := by
  show (c.written ++ c.outboundQueue.take n) ++ c.outboundQueue.drop n = _
  rw [List.append_assoc, List.take_append_drop]
  rfl

theorem pipeline_enqueueSerialised (f : NetFrame α) : (c.enqueueSerialised f).pipeline = c.pipeline ++ [f] :=
  (List.append_assoc _ _ _).symm

theorem pipeline_sendFrame (f : NetFrame α) (n : Nat) : (c.sendFrame f n).pipeline = c.pipeline ++ [f] :=
  (pipeline_tryDrain n).trans (pipeline_enqueueSerialised f)

/-- The other end reads the next frame. -/
def takeWritten (c : TcpChannel α) : TcpChannel α := { c with written := c.written.tail }

end TcpChannel

namespace NetworkThread

variable {α : Type} {t t' : NetworkThread α} {out acc e : Option Nat} {i j : Nat} {c : TcpChannel α} {env : Env}

def phase (t : NetworkThread α) : Option Nat → Phase
  | none => .absent
  | some i => if i ∈ t.tokenMap then .inUse (t.channel i).state else .gone

/-- Frames on their way to the other end; a channel that is not polled any more sends nothing. -/
def flight (t : NetworkThread α) : Option Nat → List (NetFrame α)
  | none => []
  | some i => if i ∈ t.tokenMap then (t.channel i).pipeline else (t.channel i).written

theorem phase_polled (h : i ∈ t.tokenMap) : t.phase (some i) = .inUse (t.channel i).state := if_pos h

theorem flight_polled (h : i ∈ t.tokenMap) : t.flight (some i) = (t.channel i).pipeline := if_pos h

theorem phase_some : t.phase (some i) = if i ∈ t.tokenMap then .inUse (t.channel i).state else .gone := rfl

theorem flight_some :
    t.flight (some i) = if i ∈ t.tokenMap then (t.channel i).pipeline else (t.channel i).written := rfl

theorem phase_congr (h : ∀ i, e = some i →
    (i ∈ t'.tokenMap ↔ i ∈ t.tokenMap) ∧ (t'.channel i).state = (t.channel i).state) : t'.phase e = t.phase e := by
  rcases e with _ | i
  · rfl
  · obtain ⟨hm, hs⟩ := h i rfl
    rw [phase_some, phase_some, hs]
    exact if_congr hm rfl rfl

theorem flight_congr (h : ∀ i, e = some i → (i ∈ t'.tokenMap ↔ i ∈ t.tokenMap) ∧
    (t'.channel i).pipeline = (t.channel i).pipeline ∧ (t'.channel i).written = (t.channel i).written) :
    t'.flight e = t.flight e := by
  rcases e with _ | i
  · rfl
  · obtain ⟨hm, hp, hw⟩ := h i rfl
    rw [flight_some, flight_some, hp, hw]
    exact if_congr hm rfl rfl

theorem phase_inUse {st : ChannelState} (h : t.phase e = .inUse st) :
    ∃ i, e = some i ∧ i ∈ t.tokenMap ∧ (t.channel i).state = st := by
  rcases e with _ | i
  · cases h
  · by_cases hm : i ∈ t.tokenMap
    · rw [phase_polled hm] at h
      exact ⟨i, rfl, hm, Phase.inUse.inj h⟩
    · rw [phase, if_neg hm] at h
      cases h

/-- The two channels of the thread, and where they are registered. -/
structure Side (own peer src : SocketAddr) (t : NetworkThread α) (out acc : Option Nat) : Prop where
  addr : t.addr = own
  unblocked : t.blockList = .new
  soft : 2 ≤ t.softConnectionLimit
  hard : 2 ≤ t.hardConnectionLimit
  nodup : t.tokenMap.Nodup
  ends : ∀ i ∈ t.tokenMap, out = some i ∨ acc = some i
  lt : ∀ i, out = some i ∨ acc = some i → i < t.token
  ne : ∀ i, out = some i → acc ≠ some i
  reading : ∀ i ∈ t.reading, i ∈ t.tokenMap
  requested : ∀ i, out = some i → i ∈ t.tokenMap → (t.channel i).address = peer ∧ (t.channel i).ownAddr = own
  accepted : ∀ i, acc = some i → i ∈ t.tokenMap → (t.channel i).state = .initialising → (t.channel i).address = src
  atPeer : t.addressMap.lookup peer =
    if (t.phase out).isInUse then out else if (t.phase acc).isConnected then acc else none
  atSource : t.addressMap.lookup src = if t.phase acc = .inUse .initialising then acc else none

variable {own peer src : SocketAddr}

theorem Side.length_le (h : Side own peer src t out acc) : t.tokenMap.length ≤ 2 := by
  have hsub : t.tokenMap ⊆ (out.toList ++ acc.toList) := by
    intro i hi
    rcases h.ends i hi with rfl | rfl
    · exact List.mem_append_left _ (List.mem_singleton_self i)
    · exact List.mem_append_right _ (List.mem_singleton_self i)
  have hlen := (List.subperm_of_subset h.nodup hsub).length_le
  have hone : ∀ o : Option Nat, o.toList.length ≤ 1 := by
    intro o
    cases o with
    | none => exact Nat.zero_le 1
    | some i => exact Nat.le_refl 1
  rw [List.length_append] at hlen
  have := hone out
  have := hone acc
  omega

theorem Side.notBlocked (h : Side own peer src t out acc) (a : SocketAddr) :
    t.blockList.socketAddrIsBlocked a = false := by
  rw [h.unblocked]
  rfl

theorem Side.checkSoft (h : Side own peer src t out acc) (busy : Nat) :
    t.checkSoftConnectionLimit busy env = some t := by
  unfold checkSoftConnectionLimit
  rw [if_neg]
  have := h.length_le
  have := h.soft
  omega

/-- The parts of the thread that a side depends on have not changed. -/
theorem Side.congr (h : Side own peer src t out acc) (ha : t'.addr = t.addr) (hb : t'.blockList = t.blockList)
    (hs : t'.softConnectionLimit = t.softConnectionLimit) (hh : t'.hardConnectionLimit = t.hardConnectionLimit)
    (hn : t'.tokenMap.Nodup) (hm : ∀ i, i ∈ t'.tokenMap ↔ i ∈ t.tokenMap) (ht : t'.token = t.token)
    (hr : ∀ i ∈ t'.reading, i ∈ t.tokenMap) (hl : ∀ a, t'.addressMap.lookup a = t.addressMap.lookup a)
    (hc : ∀ i ∈ t.tokenMap, (t'.channel i).address = (t.channel i).address ∧
      (t'.channel i).ownAddr = (t.channel i).ownAddr)
    (hst : ∀ i, acc = some i → i ∈ t.tokenMap → (t'.channel i).state = (t.channel i).state) :
    Side own peer src t' out acc := by
  have hout : (t'.phase out).isInUse = (t.phase out).isInUse := by
    rcases out with _ | i
    · rfl
    · rw [phase_some, phase_some]
      by_cases hi : i ∈ t.tokenMap
      · rw [if_pos hi, if_pos ((hm i).mpr hi)]
        rfl
      · rw [if_neg hi, if_neg (fun h => hi ((hm i).mp h))]
  have hacc : t'.phase acc = t.phase acc := by
    rcases acc with _ | i
    · rfl
    · rw [phase_some, phase_some]
      by_cases hi : i ∈ t.tokenMap
      · rw [if_pos hi, if_pos ((hm i).mpr hi), hst i rfl hi]
      · rw [if_neg hi, if_neg (fun h => hi ((hm i).mp h))]
  refine ⟨ha.trans h.addr, hb.trans h.unblocked, hs ▸ h.soft, hh ▸ h.hard, hn, fun i hi => h.ends i ((hm i).mp hi),
    fun i hi => ht ▸ h.lt i hi, h.ne, fun i hi => (hm i).mpr (hr i hi), fun i he hi => ?_, fun i he hi hs' => ?_, ?_, ?_⟩
  · have hi' := (hm i).mp hi
    rw [(hc i hi').1, (hc i hi').2]
    exact h.requested i he hi'
  · have hi' := (hm i).mp hi
    rw [hst i he hi'] at hs'
    rw [(hc i hi').1]
    exact h.accepted i he hi' hs'
  · rw [hl, hout, hacc]
    exact h.atPeer
  · rw [hl, hacc]
    exact h.atSource

/-- A channel changes, but not its address, and its state only if it is the requested one. -/
theorem Side.setChannel (h : Side own peer src t out acc) (ha : c.address = (t.channel i).address)
    (ho : c.ownAddr = (t.channel i).ownAddr) (hs : acc = some i → c.state = (t.channel i).state) :
    Side own peer src (t.setChannel i c) out acc := by
  refine h.congr rfl rfl rfl rfl h.nodup (fun _ => Iff.rfl) rfl h.reading (fun _ => rfl) (fun j _ => ?_)
    (fun j hj _ => ?_)
  · rw [channel_setChannel]
    split
    · subst_vars; exact ⟨ha, ho⟩
    · exact ⟨rfl, rfl⟩
  · rw [channel_setChannel]
    by_cases hji : j = i
    · rw [if_pos hji]
      rw [hji] at hj ⊢
      exact hs hj
    · rw [if_neg hji]

theorem phase_setChannel (hi : i ∈ t.tokenMap) :
    (t.setChannel i c).phase e = if e = some i then .inUse c.state else t.phase e := by
  rcases e with _ | j
  · rfl
  · have hm : i ∈ (t.setChannel i c).tokenMap := hi
    by_cases hj : j = i
    · subst hj
      rw [if_pos rfl, phase_polled hm, channel_setChannel, if_pos rfl]
    · rw [if_neg (fun he => hj (Option.some.inj he))]
      refine phase_congr (fun k hk => ⟨Iff.rfl, ?_⟩)
      rw [channel_setChannel, if_neg (Option.some.inj hk ▸ hj)]

theorem flight_setChannel (hi : i ∈ t.tokenMap) :
    (t.setChannel i c).flight e = if e = some i then c.pipeline else t.flight e := by
  rcases e with _ | j
  · rfl
  · have hm : i ∈ (t.setChannel i c).tokenMap := hi
    by_cases hj : j = i
    · subst hj
      rw [if_pos rfl, flight_polled hm, channel_setChannel, if_pos rfl]
    · rw [if_neg (fun he => hj (Option.some.inj he))]
      refine flight_congr (fun k hk => ⟨Iff.rfl, ?_⟩)
      rw [channel_setChannel, if_neg (Option.some.inj hk ▸ hj)]
      exact ⟨rfl, rfl⟩

theorem Side.updateLru (h : Side own peer src t out acc) : Side own peer src (t.updateLru i) out acc := by
  have hn : (t.updateLru i).tokenMap.Nodup := by
    unfold NetworkThread.updateLru
    split
    · refine List.nodup_cons.mpr ⟨fun hm => ?_, h.nodup.filter _⟩
      exact absurd rfl (of_decide_eq_true (List.mem_filter.mp hm).2)
    · exact h.nodup
  have hfields : (t.updateLru i).addr = t.addr ∧ (t.updateLru i).blockList = t.blockList ∧
      (t.updateLru i).softConnectionLimit = t.softConnectionLimit ∧
      (t.updateLru i).hardConnectionLimit = t.hardConnectionLimit := by
    unfold NetworkThread.updateLru
    split
    · exact ⟨rfl, rfl, rfl, rfl⟩
    · exact ⟨rfl, rfl, rfl, rfl⟩
  obtain ⟨h1, h2, h3, h4⟩ := hfields
  refine h.congr h1 h2 h3 h4 hn (fun _ => mem_updateLru) token_updateLru (fun j hj => ?_) (fun a => ?_)
    (fun j _ => ?_) (fun j _ _ => ?_)
  · rw [reading_updateLru] at hj
    exact h.reading j hj
  · rw [addressMap_updateLru]
  · rw [channel_updateLru]
    exact ⟨rfl, rfl⟩
  · rw [channel_updateLru]

theorem phase_updateLru : (t.updateLru i).phase e = t.phase e :=
  phase_congr (fun _ _ => ⟨mem_updateLru, by rw [channel_updateLru]⟩)

theorem flight_updateLru : (t.updateLru i).flight e = t.flight e :=
  flight_congr (fun _ _ => ⟨mem_updateLru, by rw [channel_updateLru], by rw [channel_updateLru]⟩)

/-! ## New channels -/

section

variable {a : SocketAddr} {st : ChannelState} (h : Side own peer src t out acc)
include h

theorem Side.not_new (he : e = out ∨ e = acc) : e ≠ some t.token := by
  intro hn
  refine absurd (h.lt t.token ?_) (Nat.lt_irrefl _)
  rcases he with rfl | rfl
  · exact .inl hn
  · exact .inr hn

/-- The other channel is left alone. -/
theorem Side.old_storeStream (he : e = out ∨ e = acc) :
    (t.storeStream a st env).phase e = t.phase e ∧ (t.storeStream a st env).flight e = t.flight e := by
  have hne : ∀ i, e = some i → i ≠ t.token := fun i hi hn => h.not_new he (hi.trans (congrArg some hn))
  have hmem : ∀ i, e = some i → (i ∈ (t.storeStream a st env).tokenMap ↔ i ∈ t.tokenMap) := fun i hi =>
    List.mem_cons.trans ⟨fun hm => hm.resolve_left (hne i hi), .inr⟩
  have hch : ∀ i, e = some i → (t.storeStream a st env).channel i = t.channel i := fun i hi =>
    channel_setChannel.trans (if_neg (hne i hi))
  refine ⟨phase_congr (fun i hi => ⟨hmem i hi, by rw [hch i hi]⟩), flight_congr (fun i hi => ⟨hmem i hi, ?_⟩)⟩
  rw [hch i hi]
  exact ⟨rfl, rfl⟩

omit h in
theorem new_storeStream : (t.storeStream a st env).phase (some t.token) = .inUse st ∧
    (t.storeStream a st env).flight (some t.token) = if st = .initialising then [.hello t.addr] else [] := by
  have hm : t.token ∈ (t.storeStream a st env).tokenMap := List.mem_cons_self
  have hc : (t.storeStream a st env).channel t.token =
      (TcpChannel.new t.addr a st).initialise t.addr (env.taken t.token) := channel_setChannel.trans (if_pos rfl)
  rw [phase_polled hm, flight_polled hm, hc]
  unfold TcpChannel.initialise
  split
  · rename_i hst
    have hst' : st = .initialising := hst
    rw [if_pos hst', TcpChannel.pipeline_sendFrame]
    exact ⟨rfl, rfl⟩
  · rename_i hst
    have hst' : st ≠ .initialising := hst
    rw [if_neg hst']
    exact ⟨rfl, rfl⟩

theorem Side.nodup_storeStream : (t.storeStream a st env).tokenMap.Nodup := by
  refine List.nodup_cons.mpr ⟨fun hm => ?_, h.nodup⟩
  exact Nat.lt_irrefl _ (h.lt _ (h.ends _ hm))

omit h in
theorem token_storeStream_ne : (t.storeStream a st env).token ≠ t.token := Nat.succ_ne_self _

omit h in
theorem address_storeStream : ((t.storeStream a st env).channel t.token).address = a ∧
    ((t.storeStream a st env).channel t.token).ownAddr = t.addr := by
  have hc : (t.storeStream a st env).channel t.token =
      (TcpChannel.new t.addr a st).initialise t.addr (env.taken t.token) := channel_setChannel.trans (if_pos rfl)
  rw [hc]
  unfold TcpChannel.initialise
  split
  · exact ⟨rfl, rfl⟩
  · exact ⟨rfl, rfl⟩

end

/-- A connection is requested. -/
theorem Side.storeRequested {id : SessionId} (h : Side own peer src t none acc) (hne : peer ≠ src) :
    Side own peer src (t.storeStream peer (.requested peer id) env) (some t.token) acc := by
  have hp : (t.storeStream peer (.requested peer id) env).phase acc = t.phase acc := (h.old_storeStream (.inr rfl)).1
  have hnew : (t.storeStream peer (.requested peer id) env).phase (some t.token) = .inUse (.requested peer id) :=
    new_storeStream.1
  have hold : ∀ i, acc = some i → i ≠ t.token := fun i hi hn => h.not_new (.inr rfl) (hi.trans (congrArg some hn))
  refine ⟨h.addr, h.unblocked, h.soft, h.hard, h.nodup_storeStream, fun i hi => ?_, fun i hi => ?_, fun i hi => ?_,
    fun i hi => List.mem_cons_of_mem _ (h.reading i hi), fun i hi _ => ?_, fun i hi hm hs => ?_, ?_, ?_⟩
  · rcases List.mem_cons.mp hi with rfl | hi
    · exact .inl rfl
    · exact .inr ((h.ends i hi).resolve_left (fun he => by cases he))
  · rcases hi with hi | hi
    · obtain rfl := Option.some.inj hi
      exact Nat.lt_succ_self _
    · exact Nat.lt_succ_of_lt (h.lt i (.inr hi))
  · obtain rfl := Option.some.inj hi
    exact h.not_new (.inr rfl)
  · obtain rfl := Option.some.inj hi
    exact ⟨address_storeStream.1, address_storeStream.2.trans h.addr⟩
  · rw [channel_storeStream (hold i hi)] at hs ⊢
    exact h.accepted i hi ((List.mem_cons.mp hm).resolve_left (hold i hi)) hs
  · rw [lookup_storeStream, if_pos rfl, hnew]
    rfl
  · rw [lookup_storeStream, if_neg (Ne.symm hne), hp]
    exact h.atSource

/-- A stream is accepted. -/
theorem Side.storeAccepted (h : Side own peer src t out none) (hne : peer ≠ src) (env : Env) :
    Side own peer src (t.storeStream src .initialising env) out (some t.token) := by
  have hp : (t.storeStream src .initialising env).phase out = t.phase out := (h.old_storeStream (.inl rfl)).1
  have hnew : (t.storeStream src .initialising env).phase (some t.token) = .inUse .initialising := new_storeStream.1
  have hold : ∀ i, out = some i → i ≠ t.token := fun i hi hn => h.not_new (.inl rfl) (hi.trans (congrArg some hn))
  refine ⟨h.addr, h.unblocked, h.soft, h.hard, h.nodup_storeStream, fun i hi => ?_, fun i hi => ?_, fun i hi => ?_,
    fun i hi => List.mem_cons_of_mem _ (h.reading i hi), fun i hi hm => ?_, fun i hi _ _ => ?_, ?_, ?_⟩
  · rcases List.mem_cons.mp hi with rfl | hi
    · exact .inr rfl
    · exact .inl ((h.ends i hi).resolve_right (fun he => by cases he))
  · rcases hi with hi | hi
    · exact Nat.lt_succ_of_lt (h.lt i (.inl hi))
    · obtain rfl := Option.some.inj hi
      exact Nat.lt_succ_self _
  · intro hn
    exact hold i hi (Option.some.inj hn).symm
  · rw [channel_storeStream (hold i hi)]
    exact h.requested i hi ((List.mem_cons.mp hm).resolve_left (hold i hi))
  · obtain rfl := Option.some.inj hi
    exact address_storeStream.1
  · rw [lookup_storeStream, if_neg hne, hp, hnew]
    exact h.atPeer
  · rw [lookup_storeStream, if_pos rfl, hnew, if_pos rfl]

theorem Side.hardLimit (h : Side own peer src t out acc) (hn : out = none ∨ acc = none) : t.hardLimitReached = false := by
  have hlen : t.tokenMap.length ≤ 1 := by
    have hsub : ∀ e : Option Nat, (∀ i ∈ t.tokenMap, e = some i) → t.tokenMap.length ≤ 1 := by
      intro e he
      have hs : t.tokenMap ⊆ e.toList := fun i hi => Option.mem_toList.mpr (he i hi)
      have hle := (List.subperm_of_subset h.nodup hs).length_le
      cases e with
      | none => exact Nat.le_trans hle (Nat.zero_le 1)
      | some i => exact hle
    rcases hn with rfl | rfl
    · exact hsub acc (fun i hi => (h.ends i hi).resolve_left (fun he => by cases he))
    · exact hsub out (fun i hi => (h.ends i hi).resolve_right (fun he => by cases he))
  have := h.hard
  refine decide_eq_false (fun hle => ?_)
  omega

/-- The thread is asked to connect: nothing to do if the peer has connected, else a new channel is opened. -/
theorem Side.connect (h : Side own peer src t none acc) (hok : env.ok = true) :
    t.handleDispatchEvent env (.connect peer) =
      if (t.phase acc).isConnected then t else t.storeStream peer (.requested peer env.id) env := by
  have hl := h.atPeer
  rw [show (t.phase none).isInUse = false from rfl, if_neg Bool.false_ne_true] at hl
  show (if t.blockList.socketAddrIsBlocked peer then t else t.requestStream peer env) = _
  rw [h.notBlocked, if_neg Bool.false_ne_true]
  unfold requestStream
  by_cases hc : (t.phase acc).isConnected = true
  · rw [if_pos hc] at hl
    rw [if_pos hc, hl]
    rcases acc with _ | i
    · cases hc
    · rw [phase_some] at hc
      split at hc
      · cases hst : (t.channel i).state with
        | connected _ _ => simp only [hst]
        | _ => rw [hst] at hc; cases hc
      · cases hc
  · rw [if_neg hc] at hl
    rw [if_neg hc, hl]
    unfold openStream
    rw [h.hardLimit (.inl rfl), if_neg Bool.false_ne_true, hok, if_pos rfl]

theorem Side.accept (h : Side own peer src t out none) (hok : env.ok = true) :
    t.receiveStream src env = t.storeStream src .initialising env := by
  have hb : t.blockList.ipAddrIsBlocked src.ip = false := by
    rw [h.unblocked]
    rfl
  unfold receiveStream
  rw [hb, if_neg Bool.false_ne_true, h.hardLimit (.inr rfl), if_neg Bool.false_ne_true, hok, if_pos rfl]

/-! ## Frames -/

/-- What a step does not touch. -/
structure Same (t t' : NetworkThread α) (e : Option Nat) : Prop where
  phase : t'.phase e = t.phase e
  flight : t'.flight e = t.flight e

theorem same_setChannel (hi : i ∈ t.tokenMap) (he : e ≠ some i) : Same t (t.setChannel i c) e :=
  ⟨(phase_setChannel hi).trans (if_neg he), (flight_setChannel hi).trans (if_neg he)⟩

/-- Only the state of the requested channel changes, and what it sends. -/
theorem Side.setRequested (h : Side own peer src t (some i) acc) (hi : i ∈ t.tokenMap)
    (ha : c.address = (t.channel i).address) (ho : c.ownAddr = (t.channel i).ownAddr) :
    Side own peer src (t.setChannel i c) (some i) acc ∧ Same t (t.setChannel i c) acc :=
  ⟨h.setChannel ha ho (fun he => absurd he (h.ne i rfl)), same_setChannel hi (h.ne i rfl)⟩

/-- `Hello` on the requested channel. -/
theorem Side.hello {id : SessionId} {a : SocketAddr} (h : Side own peer src t (some i) acc) (hi : i ∈ t.tokenMap)
    (hst : (t.channel i).state = .requested a id) (env : Env) :
    Side own peer src (t.handleHello i peer env) (some i) acc ∧ Same t (t.handleHello i peer env) acc ∧
      (t.handleHello i peer env).phase (some i) = .inUse (.initialised peer id) ∧
      (t.handleHello i peer env).flight (some i) = t.flight (some i) ++ [.start own id] := by
  obtain ⟨ha, ho⟩ := h.requested i rfl hi
  have hc : (t.channel i).handleHello peer (env.taken i) =
      { (t.channel i).sendFrame (.start own id) (env.taken i) with state := .initialised peer id, address := peer } := by
    unfold TcpChannel.handleHello
    rw [hst, ← ho]
  have hl : t.addressMap.lookup peer = some i := by
    rw [h.atPeer, phase_polled hi]
    rfl
  have heq : t.handleHello i peer env = { t with addressMap := (t.addressMap.erase peer).insert peer i }.setChannel i
      ((t.channel i).handleHello peer (env.taken i)) := by
    unfold NetworkThread.handleHello
    rw [h.notBlocked, if_neg Bool.false_ne_true]
    simp only [channel_reregister]
    unfold reregisterChannelAddress
    rw [ha, hl]
  have hside : Side own peer src { t with addressMap := (t.addressMap.erase peer).insert peer i } (some i) acc := by
    refine h.congr rfl rfl rfl rfl h.nodup (fun _ => Iff.rfl) rfl h.reading (fun a => ?_) (fun _ _ => ⟨rfl, rfl⟩)
      (fun _ _ _ => rfl)
    show ((t.addressMap.erase peer).insert peer i).lookup a = _
    rw [AssocMap.lookup_insert, AssocMap.lookup_erase]
    split
    · subst_vars; exact hl.symm
    · rfl
  rw [heq, hc]
  obtain ⟨h1, h2⟩ := hside.setRequested (c := { (t.channel i).sendFrame (.start own id) (env.taken i) with
    state := .initialised peer id, address := peer }) hi ha.symm rfl
  refine ⟨h1, ⟨h2.phase, h2.flight⟩, (phase_setChannel hi).trans (if_pos rfl), ?_⟩
  refine (flight_setChannel hi).trans ((if_pos rfl).trans ?_)
  rw [flight_polled hi]
  exact TcpChannel.pipeline_sendFrame _ _

/-- `Ack` on the requested channel. -/
theorem Side.ack {id : SessionId} {a : SocketAddr} (h : Side own peer src t (some i) acc) (hi : i ∈ t.tokenMap)
    (hst : (t.channel i).state = .initialised a id) (env : Env) :
    ∃ t', t.handleAck i env = some t' ∧ Side own peer src t' (some i) acc ∧ Same t t' acc ∧
      t'.phase (some i) = .inUse (.connected a id) ∧ t'.flight (some i) = t.flight (some i) := by
  have hc : (t.channel i).handleAck = { t.channel i with state := .connected a id } := by
    unfold TcpChannel.handleAck
    rw [hst]
  have hset : Side own peer src (t.setChannel i { t.channel i with state := .connected a id }) (some i) acc ∧
      Same t (t.setChannel i { t.channel i with state := .connected a id }) acc := h.setRequested hi rfl rfl
  have hch : (t.setChannel i { t.channel i with state := .connected a id }).channel i =
      { t.channel i with state := .connected a id } := channel_setChannel.trans (if_pos rfl)
  refine ⟨(t.setChannel i { t.channel i with state := .connected a id }).notifyNetworkStatus
    (.connectionEstablished (t.channel i).address id), ?_, ?_, ?_, ?_, ?_⟩
  · unfold handleAck
    rw [hc]
    simp only [hset.1.checkSoft, Option.bind_eq_bind, Option.bind_some, hch]
    rfl
  · exact hset.1.congr rfl rfl rfl rfl hset.1.nodup (fun _ => Iff.rfl) rfl hset.1.reading (fun _ => rfl)
      (fun _ _ => ⟨rfl, rfl⟩) (fun _ _ _ => rfl)
  · exact ⟨hset.2.phase, hset.2.flight⟩
  · exact (phase_setChannel hi).trans (if_pos rfl)
  · refine (flight_setChannel hi).trans ((if_pos rfl).trans ?_)
    rw [flight_polled hi]
    rfl

/-- A channel changes, but neither where it is nor what it has to send. -/
theorem Side.stays (h : Side own peer src t out acc) (hi : i ∈ t.tokenMap) (ha : c.address = (t.channel i).address)
    (ho : c.ownAddr = (t.channel i).ownAddr) (hs : c.state = (t.channel i).state)
    (hp : c.pipeline = (t.channel i).pipeline) :
    Side own peer src (t.setChannel i c) out acc ∧ ∀ e, Same t (t.setChannel i c) e := by
  refine ⟨h.setChannel ha ho (fun _ => hs), fun e => ?_⟩
  by_cases he : e = some i
  · subst he
    refine ⟨(phase_setChannel hi).trans ((if_pos rfl).trans ?_), (flight_setChannel hi).trans ((if_pos rfl).trans ?_)⟩
    · rw [phase_polled hi, hs]
    · rw [flight_polled hi, hp]
  · exact same_setChannel hi he

/-- A data frame. -/
theorem Side.data (h : Side own peer src t out acc) (hi : i ∈ t.tokenMap) (hs : t.handleData i = some t') :
    Side own peer src t' out acc ∧ ∀ e, Same t t' e := by
  simp only [handleData] at hs
  obtain ⟨id, -, hs⟩ := Option.bind_eq_some_iff.mp hs
  obtain rfl := Option.some.inj hs
  exact h.stays hi rfl rfl rfl rfl

/-- The stream takes some of the frames. -/
theorem Side.write (h : Side own peer src t out acc) (hi : i ∈ t.tokenMap)
    (hst : ∀ a id, (t.channel i).state ≠ .closeReceived a id) (env : Env) :
    Side own peer src (t.writeTcp i .ok env) out acc ∧ ∀ e, Same t (t.writeTcp i .ok env) e := by
  have hi' : i ∈ (t.updateLru i).tokenMap := mem_updateLru.mpr hi
  have hstays : Side own peer src ((t.updateLru i).setChannel i ((t.channel i).tryDrain (env.taken i))) out acc ∧
      ∀ e, Same (t.updateLru i) ((t.updateLru i).setChannel i ((t.channel i).tryDrain (env.taken i))) e := by
    refine h.updateLru.stays hi' ?_ ?_ ?_ ?_
    · rw [channel_updateLru]; rfl
    · rw [channel_updateLru]; rfl
    · rw [channel_updateLru]; rfl
    · rw [channel_updateLru]; exact TcpChannel.pipeline_tryDrain _
  have heq : t.writeTcp i .ok env = (t.updateLru i).setChannel i ((t.channel i).tryDrain (env.taken i)) := by
    have hc : (((t.updateLru i).setChannel i ((t.channel i).tryDrain (env.taken i))).channel i).state =
        (t.channel i).state := by
      rw [channel_setChannel, if_pos rfl]
      rfl
    unfold writeTcp
    simp only
    split
    · rename_i a id he
      rw [hc] at he
      exact absurd he (hst a id)
    · rfl
  rw [heq]
  refine ⟨hstays.1, fun e => ⟨(hstays.2 e).phase.trans phase_updateLru, (hstays.2 e).flight.trans flight_updateLru⟩⟩

/-- A message is sent on the channel that is connected, if there is one. -/
theorem Side.send (h : Side own peer src t out acc) (hok : env.ok = true) (msg : α) :
    Side own peer src (t.sendTcpMessage peer (.lazy msg) env) out acc ∧
      (∀ e, (t.sendTcpMessage peer (.lazy msg) env).phase e = t.phase e) ∧
      ((∀ e, (t.sendTcpMessage peer (.lazy msg) env).flight e = t.flight e) ∨
        ∃ i, (out = some i ∨ acc = some i) ∧ (t.phase (some i)).isConnected = true ∧
          ∀ e, (t.sendTcpMessage peer (.lazy msg) env).flight e =
            if e = some i then t.flight e ++ [.data msg] else t.flight e) := by
  have hreject : ∀ t₁ : NetworkThread α, Side own peer src t₁ out acc →
      Side own peer src (t₁.rejectDispatchData peer (.lazy msg)) out acc := fun t₁ h₁ =>
    h₁.congr rfl rfl rfl rfl h₁.nodup (fun _ => Iff.rfl) rfl h₁.reading (fun _ => rfl) (fun _ _ => ⟨rfl, rfl⟩)
      (fun _ _ _ => rfl)
  unfold sendTcpMessage
  split
  · rename_i i hl
    -- what is registered for the peer is one of the two channels, and polled
    have hreg : (out = some i ∨ acc = some i) ∧ i ∈ t.tokenMap := by
      rw [h.atPeer] at hl
      split at hl
      · rename_i hr
        refine ⟨.inl hl, ?_⟩
        by_contra hm
        rw [hl, phase_some, if_neg hm] at hr
        cases hr
      · split at hl
        · rename_i hr
          refine ⟨.inr hl, ?_⟩
          by_contra hm
          rw [hl, phase_some, if_neg hm] at hr
          cases hr
        · cases hl
    obtain ⟨hend, hm⟩ := hreg
    have hm' : i ∈ (t.updateLru i).tokenMap := mem_updateLru.mpr hm
    have hlru : Side own peer src (t.updateLru i) out acc := h.updateLru
    simp only [channel_updateLru]
    split
    · rename_i hc
      have hser : serialiseDispatchData (.lazy msg) env.ok = some (.data msg) := by rw [hok]; rfl
      simp only [hser]
      have hset :
          Side own peer src ((t.updateLru i).setChannel i ((t.channel i).enqueueSerialised (.data msg))) out acc := by
        refine hlru.setChannel ?_ ?_ (fun _ => ?_)
        · rw [channel_updateLru]; rfl
        · rw [channel_updateLru]; rfl
        · rw [channel_updateLru]; rfl
      refine ⟨?_, fun e => ?_, .inr ⟨i, hend, ?_, fun e => ?_⟩⟩
      · exact hset.congr rfl rfl rfl rfl hset.nodup (fun _ => Iff.rfl) rfl hset.reading (fun _ => rfl)
          (fun _ _ => ⟨rfl, rfl⟩) (fun _ _ _ => rfl)
      · refine Eq.trans ?_ (phase_updateLru (i := i))
        refine (phase_setChannel (c := (t.channel i).enqueueSerialised (.data msg)) hm').trans ?_
        split
        · subst_vars
          rw [phase_polled hm', channel_updateLru]
          rfl
        · rfl
      · rw [phase_polled hm]
        exact hc
      · refine Eq.trans (flight_setChannel (c := (t.channel i).enqueueSerialised (.data msg)) hm') ?_
        split
        · subst_vars
          rw [flight_polled hm]
          exact TcpChannel.pipeline_enqueueSerialised _
        · exact flight_updateLru
    · exact ⟨hreject _ hlru, fun e => phase_updateLru, .inl (fun e => flight_updateLru)⟩
  · exact ⟨hreject _ h, fun _ => rfl, .inl (fun _ => rfl)⟩

/-- The other end reads the next frame. -/
theorem Side.take {f : NetFrame α} {rest : List (NetFrame α)} (h : Side own peer src t out acc)
    (hw : (t.channel i).written = f :: rest) :
    Side own peer src (t.setChannel i (t.channel i).takeWritten) out acc ∧
      (∀ e, (t.setChannel i (t.channel i).takeWritten).phase e = t.phase e) ∧
      (∀ e, e ≠ some i → (t.setChannel i (t.channel i).takeWritten).flight e = t.flight e) ∧
      t.flight (some i) = f :: (t.setChannel i (t.channel i).takeWritten).flight (some i) := by
  have hch : ∀ j, j ≠ i → (t.setChannel i (t.channel i).takeWritten).channel j = t.channel j := fun j hj =>
    channel_setChannel.trans (if_neg hj)
  have hself : (t.setChannel i (t.channel i).takeWritten).channel i = (t.channel i).takeWritten :=
    channel_setChannel.trans (if_pos rfl)
  refine ⟨h.setChannel rfl rfl (fun _ => rfl), fun e => phase_congr (fun j _ => ⟨Iff.rfl, ?_⟩),
    fun e he => flight_congr (fun j hj => ⟨Iff.rfl, ?_⟩), ?_⟩
  · by_cases hj : j = i
    · subst hj; rw [hself]; rfl
    · rw [hch j hj]
  · have hji : j ≠ i := fun hji => he (hji ▸ hj)
    rw [hch j hji]
    exact ⟨rfl, rfl⟩
  · rw [flight_some, flight_some, hself]
    show (if i ∈ t.tokenMap then _ else _) = f :: (if i ∈ t.tokenMap then _ else _)
    unfold TcpChannel.takeWritten TcpChannel.pipeline
    rw [hw]
    split
    · rfl
    · rfl

/-! ## `Start` -/

theorem mem_dropChannel : j ∈ (t.dropChannel i).tokenMap ↔ j ∈ t.tokenMap ∧ j ≠ i := by
  show j ∈ t.tokenMap.filter (· ≠ i) ↔ _
  rw [List.mem_filter]
  exact and_congr Iff.rfl decide_eq_true_iff

theorem channel_dropChannel : (t.dropChannel i).channel j = if j = i then (t.channel i).shutdown else t.channel j :=
  channel_setChannel

theorem lookup_dropChannel (a : SocketAddr) : (t.dropChannel i).addressMap.lookup a =
    if a = (t.channel i).address then none else t.addressMap.lookup a := AssocMap.lookup_erase _ _ _

theorem written_shutdown : c.shutdown.written = c.written := by
  unfold TcpChannel.shutdown
  split
  · rfl
  · rfl

/-- A channel that is dropped is gone; what it had written is still on its way. -/
theorem gone_dropChannel : (t.dropChannel i).phase (some i) = .gone ∧
    (t.dropChannel i).flight (some i) = (t.channel i).written := by
  have hm : i ∉ (t.dropChannel i).tokenMap := fun hm => (mem_dropChannel.mp hm).2 rfl
  rw [phase_some, if_neg hm, flight_some, if_neg hm, channel_dropChannel, if_pos rfl]
  exact ⟨rfl, written_shutdown⟩

theorem same_dropChannel (he : e ≠ some i) : Same t (t.dropChannel i) e := by
  have hne : ∀ j, e = some j → j ≠ i := fun j hj hji => he (hj.trans (congrArg some hji))
  have hm : ∀ j, e = some j → (j ∈ (t.dropChannel i).tokenMap ↔ j ∈ t.tokenMap) := fun j hj =>
    mem_dropChannel.trans ⟨And.left, fun hm => ⟨hm, hne j hj⟩⟩
  refine ⟨phase_congr (fun j hj => ⟨hm j hj, ?_⟩), flight_congr (fun j hj => ⟨hm j hj, ?_⟩)⟩
  · rw [channel_dropChannel, if_neg (hne j hj)]
  · rw [channel_dropChannel, if_neg (hne j hj)]
    exact ⟨rfl, rfl⟩

/-- The requested channel is dropped, while the accepted one is not connected. -/
theorem Side.dropRequested (h : Side own peer src t (some j) acc) (hne : peer ≠ src) (hj : j ∈ t.tokenMap)
    (hr : ∀ k ∈ t.reading, k ≠ j) (ha : (t.phase acc).isConnected = false) :
    Side own peer src (t.dropChannel j) (some j) acc := by
  have haddr := (h.requested j rfl hj).1
  have hsame : Same t (t.dropChannel j) acc := same_dropChannel (h.ne j rfl)
  refine ⟨h.addr, h.unblocked, h.soft, h.hard, h.nodup.filter _, fun i hi => h.ends i (mem_dropChannel.mp hi).1, h.lt,
    h.ne, fun i hi => mem_dropChannel.mpr ⟨h.reading i hi, hr i hi⟩, fun i hi hm => ?_, fun i hi hm hs => ?_, ?_, ?_⟩
  · obtain rfl := Option.some.inj hi
    exact absurd rfl (mem_dropChannel.mp hm).2
  · obtain ⟨hm, hij⟩ := mem_dropChannel.mp hm
    rw [channel_dropChannel, if_neg hij] at hs ⊢
    exact h.accepted i hi hm hs
  · rw [lookup_dropChannel, if_pos haddr.symm, gone_dropChannel.1, hsame.phase, ha]
    rfl
  · rw [lookup_dropChannel, if_neg (by rw [haddr]; exact hne.symm), hsame.phase]
    exact h.atSource

/-- The accepted channel is dropped, and not read any more. -/
theorem Side.dropAccepted (h : Side own peer src t out (some i)) (hne : peer ≠ src) (hi : i ∈ t.tokenMap)
    (hst : (t.channel i).state = .initialising) : Side own peer src (t.dropChannel i).endRead out (some i) := by
  have haddr := h.accepted i rfl hi hst
  have hout : out ≠ some i := fun he => h.ne i he rfl
  have hsame : (t.dropChannel i).endRead.phase out = t.phase out :=
    (same_dropChannel (t := t) hout).phase
  have hgone : (t.dropChannel i).endRead.phase (some i) = .gone := gone_dropChannel.1
  have hl : ∀ a, (t.dropChannel i).endRead.addressMap.lookup a =
      if a = (t.channel i).address then none else t.addressMap.lookup a := lookup_dropChannel
  refine ⟨h.addr, h.unblocked, h.soft, h.hard, h.nodup.filter _, fun j hj => h.ends j (mem_dropChannel.mp hj).1, h.lt,
    h.ne, (fun j hj => by cases hj), fun j hj hm => ?_, fun j hj hm hs => ?_, ?_, ?_⟩
  · obtain ⟨hm, hij⟩ := mem_dropChannel.mp hm
    have hc : (t.dropChannel i).endRead.channel j = t.channel j := channel_dropChannel.trans (if_neg hij)
    rw [hc]
    exact h.requested j hj hm
  · obtain rfl := Option.some.inj hj
    exact absurd rfl (mem_dropChannel.mp hm).2
  · rw [hl, if_neg (by rw [haddr]; exact hne), hsame, hgone, h.atPeer, phase_polled hi, hst]
    rfl
  · rw [hl, if_pos haddr.symm, hgone]
    rfl

/-- The accepted channel is started: no other is registered for the peer. -/
theorem Side.startChannel (h : Side own peer src t out (some i)) (hne : peer ≠ src)
    (hi : i ∈ t.tokenMap) (hst : (t.channel i).state = .initialising) (hout : (t.phase out).isInUse = false)
    (hretry : env.retriesLeft = true) (id : SessionId) :
    ∃ t', t.startChannel i peer id env = some t' ∧ Side own peer src t' out (some i) ∧ Same t t' out ∧
      t'.phase (some i) = .inUse (.connected peer id) ∧ t'.flight (some i) = t.flight (some i) ++ [.ack] := by
  have haddr := h.accepted i rfl hi hst
  have hoi : out ≠ some i := fun he => h.ne i he rfl
  have hl : t.addressMap.lookup src = some i := by
    rw [h.atSource, phase_polled hi, hst, if_pos rfl]
  have hc : (t.channel i).handleStart peer id (env.taken i) =
      { (t.channel i).sendFrame .ack (env.taken i) with state := .connected peer id, address := peer } := by
    unfold TcpChannel.handleStart
    rw [hst]
  -- the thread with the channel registered for the peer and connected
  let t₁ : NetworkThread α := { t with addressMap := (t.addressMap.erase src).insert peer i }.setChannel i
    { (t.channel i).sendFrame .ack (env.taken i) with state := .connected peer id, address := peer }
  have hphase : t₁.phase (some i) = .inUse (.connected peer id) := (phase_setChannel hi).trans (if_pos rfl)
  have hphaseOut : t₁.phase out = t.phase out := (phase_setChannel hi).trans (if_neg hoi)
  have hlook : ∀ a, t₁.addressMap.lookup a =
      if a = peer then some i else if a = src then none else t.addressMap.lookup a := by
    intro a
    show ((t.addressMap.erase src).insert peer i).lookup a = _
    rw [AssocMap.lookup_insert, AssocMap.lookup_erase]
  have hside : Side own peer src t₁ out (some i) := by
    refine ⟨h.addr, h.unblocked, h.soft, h.hard, h.nodup, h.ends, h.lt, h.ne, h.reading, fun j hj hm => ?_,
      fun j hj hm hs => ?_, ?_, ?_⟩
    · have hji : j ≠ i := fun hji => hoi (hji ▸ hj)
      have hcj : t₁.channel j = t.channel j := channel_setChannel.trans (if_neg hji)
      rw [hcj]
      exact h.requested j hj hm
    · obtain rfl := Option.some.inj hj
      have hp : t₁.phase (some i) = .inUse (t₁.channel i).state := phase_polled hi
      rw [hphase, hs] at hp
      cases hp
    · rw [hlook, if_pos rfl, hphaseOut, hout, hphase]
      rfl
    · rw [hlook, if_neg hne.symm, if_pos rfl, hphase]
      rfl
  refine ⟨t₁.notifyNetworkStatus (.connectionEstablished peer id), ?_, ?_, ?_, hphase, ?_⟩
  · unfold NetworkThread.startChannel
    simp only [channel_reregister, haddr]
    have hre : t.reregisterChannelAddress src peer =
        { t with addressMap := (t.addressMap.erase src).insert peer i } := by
      unfold reregisterChannelAddress
      rw [hl]
    rw [hre, hc, hretry]
    have hs : t₁.checkSoftConnectionLimit i env = some t₁ := hside.checkSoft i
    show (do let t ← t₁.checkSoftConnectionLimit i env; return t.notifyNetworkStatus (.connectionEstablished peer id)) = _
    rw [hs]
    rfl
  · exact hside.congr rfl rfl rfl rfl hside.nodup (fun _ => Iff.rfl) rfl hside.reading (fun _ => rfl)
      (fun _ _ => ⟨rfl, rfl⟩) (fun _ _ _ => rfl)
  · exact ⟨hphaseOut, (flight_setChannel hi).trans (if_neg hoi)⟩
  · refine (flight_setChannel hi).trans ((if_pos rfl).trans ?_)
    rw [flight_polled hi]
    exact TcpChannel.pipeline_sendFrame _ _

theorem Side.endRead (h : Side own peer src t out acc) : Side own peer src t.endRead out acc :=
  h.congr rfl rfl rfl rfl h.nodup (fun _ => Iff.rfl) rfl (fun i hi => by cases hi) (fun _ => rfl)
    (fun _ _ => ⟨rfl, rfl⟩) (fun _ _ _ => rfl)

section

variable {id : SessionId} (h : Side own peer src t out (some i)) (hne : peer ≠ src) (hi : i ∈ t.tokenMap)
  (hst : (t.channel i).state = .initialising)
include h hne hi hst

/-- There is no other channel. -/
theorem Side.start_alone (hout : (t.phase out).isInUse = false) (hretry : env.retriesLeft = true) :
    ∃ t', t.handleFrame i (.start peer id) env = some t' ∧ Side own peer src t' out (some i) ∧ Same t t' out ∧
      t'.phase (some i) = .inUse (.connected peer id) ∧ t'.flight (some i) = t.flight (some i) ++ [.ack] := by
  obtain ⟨t₁, hs, h1, h2, h3, h4⟩ := h.startChannel hne hi hst hout hretry id
  refine ⟨t₁.endRead, ?_, h1.endRead, ⟨h2.phase, h2.flight⟩, h3, h4⟩
  have hl : t.addressMap.lookup peer = none := by
    rw [h.atPeer, hout, if_neg Bool.false_ne_true, phase_polled hi, hst]
    rfl
  show (t.handleStart i peer id env).map NetworkThread.endRead = _
  unfold handleStart
  rw [h.notBlocked, if_neg Bool.false_ne_true, hl]
  simp only [hs]
  rfl

variable (hout : out = some j) (hj : j ∈ t.tokenMap) (herr : env.error = false)
include hout hj herr

omit hne hi hst in
/-- The two channels meet. -/
theorem Side.handleStart_eq : t.handleStart i peer id env =
    match (t.channel j).state with
    | .connected _ _ =>
      if (t.channel j).messages = 0 then some (t.dropChannel i)
      else (t.lostConnection j env).startChannel i peer id env
    | .requested _ otherId =>
      if otherId.asU128 > id.asU128 then some (t.dropChannel i) else (t.dropChannel j).startChannel i peer id env
    | .initialised _ otherId =>
      if otherId.asU128 > id.asU128 then some (t.dropChannel i) else (t.dropChannel j).startChannel i peer id env
    | _ => (t.dropChannel j).startChannel i peer id env := by
  have hl : t.addressMap.lookup peer = some j := by
    rw [h.atPeer, hout, phase_polled hj]
    rfl
  have hji : j ≠ i := fun hji => h.ne j hout (congrArg some hji.symm)
  have hself : t.setChannel j ((t.channel j).readState env.error) = t := by
    rw [herr]
    exact setChannel_self
  unfold NetworkThread.handleStart
  rw [h.notBlocked, if_neg Bool.false_ne_true, hl]
  cases hstate : (t.channel j).state <;> simp only [if_neg hji, hself, hstate]

/-- The other channel is kept: it is connected and unused, or not connected and has the greater id. -/
theorem Side.start_refused
    (hkeep : (∃ a x, (t.channel j).state = .connected a x ∧ (t.channel j).messages = 0) ∨
      ∃ a x, ((t.channel j).state = .requested a x ∨ (t.channel j).state = .initialised a x) ∧ id.asU128 < x.asU128) :
    ∃ t', t.handleFrame i (.start peer id) env = some t' ∧ Side own peer src t' out (some i) ∧ Same t t' out ∧
      t'.phase (some i) = .gone ∧ t'.flight (some i) = (t.channel i).written := by
  have hs : t.handleStart i peer id env = some (t.dropChannel i) := by
    rw [h.handleStart_eq hout hj herr]
    rcases hkeep with ⟨a, x, hc, hm⟩ | ⟨a, x, hc | hc, hlt⟩
    · simp only [hc]
      exact if_pos hm
    · simp only [hc]
      exact if_pos hlt
    · simp only [hc]
      exact if_pos hlt
  have hoi : out ≠ some i := fun he => h.ne i he rfl
  refine ⟨(t.dropChannel i).endRead, ?_, h.dropAccepted hne hi hst, ?_, gone_dropChannel⟩
  · show (t.handleStart i peer id env).map NetworkThread.endRead = _
    rw [hs]
    rfl
  · have hsame : Same t (t.dropChannel i) out := same_dropChannel hoi
    exact ⟨hsame.phase, hsame.flight⟩

/-- The other channel is not connected and has the smaller id: it makes way. -/
theorem Side.start_merged (hr : t.reading = some i) (hretry : env.retriesLeft = true)
    (hlose : ∃ a x, ((t.channel j).state = .requested a x ∨ (t.channel j).state = .initialised a x) ∧
      ¬ id.asU128 < x.asU128) :
    ∃ t', t.handleFrame i (.start peer id) env = some t' ∧ Side own peer src t' out (some i) ∧
      t'.phase out = .gone ∧ t'.flight out = (t.channel j).written ∧
      t'.phase (some i) = .inUse (.connected peer id) ∧ t'.flight (some i) = t.flight (some i) ++ [.ack] := by
  subst hout
  have hij : i ≠ j := fun hij => h.ne j rfl (congrArg some hij)
  have hs : t.handleStart i peer id env = (t.dropChannel j).startChannel i peer id env := by
    rw [h.handleStart_eq rfl hj herr]
    obtain ⟨a, x, hc | hc, hlt⟩ := hlose
    · simp only [hc]
      exact if_neg hlt
    · simp only [hc]
      exact if_neg hlt
  have hdrop : Side own peer src (t.dropChannel j) (some j) (some i) := by
    refine h.dropRequested hne hj (fun k hk => ?_) (by rw [phase_polled hi, hst]; rfl)
    rw [hr] at hk
    exact Option.some.inj hk ▸ hij
  have hch : (t.dropChannel j).channel i = t.channel i := channel_dropChannel.trans (if_neg hij)
  obtain ⟨hg, hw⟩ := gone_dropChannel (t := t) (i := j)
  have hsame : Same t (t.dropChannel j) (some i) := same_dropChannel (h.ne j rfl)
  obtain ⟨t₁, hs₁, h1, h2, h3, h4⟩ := hdrop.startChannel hne (mem_dropChannel.mpr ⟨hi, hij⟩)
    (by rw [hch]; exact hst) (by rw [hg]; rfl) hretry id
  refine ⟨t₁.endRead, ?_, h1.endRead, h2.phase.trans hg, h2.flight.trans hw, h3, ?_⟩
  · show (t.handleStart i peer id env).map NetworkThread.endRead = _
    rw [hs, hs₁]
    rfl
  · rw [← hsame.flight]
    exact h4

end

end NetworkThread

end Kompact
