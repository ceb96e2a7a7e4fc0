import Kompact.Network.Thread

/-!
# The maps of the network thread

A channel is found by its address or by its token. `Tidy` is what the two maps
have to do with each other, as long as no channel pushes another one aside:
a polled channel is registered under its own address. `slot` is the state of
the polled channel that is registered for an address.

Every change of the maps is one of three: a channel is retired (`retire`),
retired and removed (`discard`), or registered under another address
(`renameChannel`); for each there is a lemma about `Tidy` and one about slots.
-/

namespace Kompact

namespace ChannelState

/-- The channel is established, or closing gracefully. -/
def isLive : ChannelState → Bool
  | connected _ _ => true
  | closeRequested _ _ => true
  | closeReceived _ _ => true
  | _ => false

/-- A connection was requested, and the peer has not greeted yet. -/
def isRequested : ChannelState → Bool
  | requested _ _ => true
  | _ => false

/-- The channel is closing gracefully. -/
def isClosing : ChannelState → Bool
  | closeRequested _ _ => true
  | closeReceived _ _ => true
  | _ => false

/-- The state of a channel with peer `a` that is in use. -/
def Fits (a : SocketAddr) : ChannelState → Prop
  | requested addr _ => addr = a
  | initialising => True
  | initialised addr _ => addr = a
  | connected addr _ => addr = a
  | closeRequested addr _ => addr = a
  | closeReceived addr _ => addr = a
  | closed _ _ => False
  | error => False

end ChannelState

namespace NetworkThread

variable {α : Type} {t t' t'' : NetworkThread α} {a b : SocketAddr} {i j : Nat} {c : TcpChannel α} {env : Env}

/-- The state of the polled channel that is registered for an address. -/
def slot (t : NetworkThread α) (a : SocketAddr) : Option ChannelState :=
  (t.addressMap.lookup a).bind fun i => if i ∈ t.tokenMap then some (t.channel i).state else none

theorem slot_of_lookup (h : t.addressMap.lookup a = some i) :
    t.slot a = if i ∈ t.tokenMap then some (t.channel i).state else none := by
  unfold slot
  rw [h]
  rfl

theorem slot_of_none (h : t.addressMap.lookup a = none) : t.slot a = none := by
  unfold slot
  rw [h]
  rfl

theorem mem_keys_of_slot {p : ChannelState → Bool} (h : (t.slot a).any p = true) : a ∈ t.addressMap.keys := by
  rcases hl : t.addressMap.lookup a with _ | i
  · rw [slot_of_none hl] at h
    cases h
  · exact AssocMap.mem_keys_of_lookup hl

theorem slot_congr (hl : t'.addressMap.lookup a = t.addressMap.lookup a)
    (h : ∀ i, t.addressMap.lookup a = some i →
      (i ∈ t'.tokenMap ↔ i ∈ t.tokenMap) ∧ (t'.channel i).state = (t.channel i).state) : t'.slot a = t.slot a := by
  rcases hi : t.addressMap.lookup a with _ | i
  · rw [slot_of_none hi, slot_of_none (hl.trans hi)]
  · obtain ⟨hm, hs⟩ := h i hi
    rw [slot_of_lookup hi, slot_of_lookup (hl.trans hi), hs]
    exact if_congr hm rfl rfl

/-! ## The maps of the thread -/

/-- A channel is registered under its address, every polled channel is
registered, and the next token is a new one. -/
structure Mapped (t : NetworkThread α) : Prop where
  key : ∀ a i, t.addressMap.lookup a = some i → (t.channel i).address = a
  polled : ∀ i ∈ t.tokenMap, t.addressMap.lookup (t.channel i).address = some i
  fresh : ∀ a i, t.addressMap.lookup a = some i → i < t.token

theorem Mapped.slot_polled (h : t.Mapped) (hi : i ∈ t.tokenMap) :
    t.slot (t.channel i).address = some (t.channel i).state := by
  rw [slot_of_lookup (h.polled i hi), if_pos hi]

theorem Mapped.lt_token (h : t.Mapped) (hi : i ∈ t.tokenMap) : i < t.token := h.fresh _ i (h.polled i hi)

theorem Mapped.lookup_unique (h : t.Mapped) (hi : i ∈ t.tokenMap) :
    ∀ j, t.addressMap.lookup (t.channel i).address = some j → j = i := by
  intro j hj
  rw [h.polled i hi] at hj
  exact (Option.some.inj hj).symm

theorem Mapped.lookup_own (h : t.Mapped) (ha : t.addressMap.lookup a = some i) :
    ∀ j, t.addressMap.lookup (t.channel i).address = some j → j = i := by
  intro j hj
  rw [h.key a i ha, ha] at hj
  exact (Option.some.inj hj).symm

/-- The registrations are as before, and nothing else is polled. -/
theorem Mapped.congr (h : t.Mapped) (hl : ∀ a, t'.addressMap.lookup a = t.addressMap.lookup a)
    (hm : ∀ i ∈ t'.tokenMap, i ∈ t.tokenMap) (hc : ∀ i, (t'.channel i).address = (t.channel i).address)
    (ht : t'.token = t.token) : t'.Mapped where
  key a i hi := (hc i).trans (h.key a i ((hl a).symm.trans hi))
  polled i hi := by rw [hl, hc i]; exact h.polled i (hm i hi)
  fresh a i hi := by rw [ht]; exact h.fresh a i ((hl a).symm.trans hi)

theorem Mapped.setChannel (h : t.Mapped) (hc : c.address = (t.channel i).address) : (t.setChannel i c).Mapped := by
  refine h.congr (fun _ => rfl) (fun _ hj => hj) (fun j => ?_) rfl
  rw [channel_setChannel]
  split
  · subst_vars; exact hc
  · rfl

/-- A channel is registered under its own address if at all. -/
theorem Mapped.unregistered (h : t.Mapped) (hn : t.addressMap.lookup (t.channel i).address = none) :
    ∀ a, t.addressMap.lookup a ≠ some i := by
  intro a ha
  rw [h.key a i ha, ha] at hn
  cases hn

/-- A channel that is not registered changes. -/
theorem Mapped.setUnregistered (h : t.Mapped) (hn : ∀ a, t.addressMap.lookup a ≠ some i) : (t.setChannel i c).Mapped := by
  have hc : ∀ a j, t.addressMap.lookup a = some j → (t.setChannel i c).channel j = t.channel j := by
    intro a j hj
    rw [channel_setChannel, if_neg]
    rintro rfl
    exact hn a hj
  refine ⟨fun a j hj => ?_, fun j hj => ?_, h.fresh⟩
  · rw [hc a j hj]
    exact h.key a j hj
  · have hp := h.polled j hj
    rw [hc _ j hp]
    exact hp

/-- A polled channel is registered under its address, and only channels with
an address are registered under it. -/
structure Tidy (t : NetworkThread α) : Prop where
  key : ∀ a i, t.addressMap.lookup a = some i → (t.channel i).address = a
  polled : ∀ i ∈ t.tokenMap, t.addressMap.lookup (t.channel i).address = some i
  fits : ∀ i ∈ t.tokenMap, (t.channel i).state.Fits (t.channel i).address
  alive : ∀ a i, t.addressMap.lookup a = some i → (t.channel i).connected = true → i ∈ t.tokenMap
  fresh : ∀ a i, t.addressMap.lookup a = some i → i < t.token

theorem Tidy.mapped (h : t.Tidy) : t.Mapped := ⟨h.key, h.polled, h.fresh⟩

theorem Tidy.congr (h : t.Tidy) (hl : ∀ a, t'.addressMap.lookup a = t.addressMap.lookup a)
    (hm : ∀ i, i ∈ t'.tokenMap ↔ i ∈ t.tokenMap)
    (hc : ∀ i, (t'.channel i).address = (t.channel i).address ∧ (t'.channel i).state = (t.channel i).state)
    (ht : t'.token = t.token) : t'.Tidy := by
  have hmap : t'.Mapped := h.mapped.congr hl (fun i => (hm i).mp) (fun i => (hc i).1) ht
  refine ⟨hmap.key, hmap.polled, fun i hi => ?_, fun a i hi hconn => ?_, hmap.fresh⟩
  · rw [(hc i).1, (hc i).2]
    exact h.fits i ((hm i).mp hi)
  · refine (hm i).mpr (h.alive a i ((hl a).symm.trans hi) ?_)
    unfold TcpChannel.connected at hconn ⊢
    rwa [(hc i).2] at hconn

/-- The state of a polled channel changes. -/
theorem Tidy.setChannel (h : t.Tidy) (hi : i ∈ t.tokenMap) (hc : c.address = (t.channel i).address)
    (hf : c.state.Fits c.address) : (t.setChannel i c).Tidy := by
  have hmap : (t.setChannel i c).Mapped := h.mapped.setChannel hc
  refine ⟨hmap.key, hmap.polled, fun j hj => ?_, fun a j hj hconn => ?_, hmap.fresh⟩
  · rw [channel_setChannel]
    split
    · exact hf
    · exact h.fits j hj
  · rw [channel_setChannel] at hconn
    split at hconn
    · subst_vars; exact hi
    · exact h.alive a j hj hconn

/-- The channel is not polled any more. -/
def retire (t : NetworkThread α) (i : Nat) (c : TcpChannel α) : NetworkThread α :=
  (t.setChannel i c).deregisterChannel i

theorem mem_retire : j ∈ (t.retire i c).tokenMap ↔ j ∈ t.tokenMap ∧ j ≠ i := by
  unfold retire deregisterChannel
  rw [List.mem_filter]
  exact and_congr Iff.rfl decide_eq_true_iff

theorem channel_retire : (t.retire i c).channel j = if j = i then c else t.channel j := channel_setChannel

theorem Mapped.retire (h : t.Mapped) (hc : c.address = (t.channel i).address) : (t.retire i c).Mapped :=
  (h.setChannel hc).congr (fun _ => rfl) (fun _ hj => (mem_retire.mp hj).1) (fun _ => rfl) rfl

theorem Tidy.retire (h : t.Tidy) (hc : c.address = (t.channel i).address) (hn : c.connected = false) :
    (t.retire i c).Tidy := by
  have hmap : (t.retire i c).Mapped := h.mapped.retire hc
  refine ⟨hmap.key, hmap.polled, fun j hj => ?_, fun a j hj hconn => ?_, hmap.fresh⟩
  · obtain ⟨hj, hne⟩ := mem_retire.mp hj
    rw [channel_retire, if_neg hne]
    exact h.fits j hj
  · rw [channel_retire] at hconn
    split at hconn
    · rw [hn] at hconn; exact absurd hconn Bool.false_ne_true
    · exact mem_retire.mpr ⟨h.alive a j hj hconn, ‹_›⟩

/-- The slot of a channel that is retired is empty; other slots are left alone. -/
theorem Mapped.slot_retire (h : t.Mapped) (hi : ∀ j, t.addressMap.lookup (t.channel i).address = some j → j = i) :
    (t.retire i c).slot a = if a = (t.channel i).address then none else t.slot a := by
  split
  · subst_vars
    rcases hl : t.addressMap.lookup (t.channel i).address with _ | j
    · have hl' : (t.retire i c).addressMap.lookup (t.channel i).address = none := hl
      exact slot_of_none hl'
    · obtain rfl := hi j hl
      have hl' : (t.retire j c).addressMap.lookup (t.channel j).address = some j := hl
      rw [slot_of_lookup hl', if_neg (fun hm => (mem_retire.mp hm).2 rfl)]
  · rename_i hne
    refine slot_congr rfl (fun j hj => ?_)
    have hji : j ≠ i := by
      rintro rfl
      exact hne (h.key a j hj).symm
    rw [channel_retire, if_neg hji]
    exact ⟨mem_retire.trans ⟨And.left, fun hm => ⟨hm, hji⟩⟩, rfl⟩

/-- The channel is retired, and its address removed. -/
def discard (t : NetworkThread α) (i : Nat) (c : TcpChannel α) : NetworkThread α :=
  { t.retire i c with addressMap := t.addressMap.erase (t.channel i).address }

theorem dropChannel_eq : t.dropChannel i = t.discard i (t.channel i).shutdown := rfl

theorem address_shutdown : c.shutdown.address = c.address := by
  unfold TcpChannel.shutdown
  split
  · rfl
  · rfl

theorem not_connected_shutdown : c.shutdown.connected = false := by
  unfold TcpChannel.shutdown TcpChannel.connected
  split
  · rfl
  · rename_i hne
    unfold ChannelState.isConnected
    split
    · rename_i addr id he
      exact absurd he (hne addr id)
    · rfl

theorem mem_discard : j ∈ (t.discard i c).tokenMap ↔ j ∈ t.tokenMap ∧ j ≠ i := mem_retire

theorem channel_discard : (t.discard i c).channel j = if j = i then c else t.channel j := channel_retire

theorem lookup_discard : (t.discard i c).addressMap.lookup a =
    if a = (t.channel i).address then none else t.addressMap.lookup a := AssocMap.lookup_erase _ _ _

/-- Another channel is registered as before. -/
theorem Mapped.registered_discard (h : t.Mapped) (hj : (t.discard i c).addressMap.lookup a = some j) :
    t.addressMap.lookup a = some j ∧ j ≠ i := by
  rw [lookup_discard] at hj
  split at hj
  · cases hj
  · rename_i hne
    refine ⟨hj, ?_⟩
    rintro rfl
    exact hne (h.key a j hj).symm

/-- The channel is the one that is registered for its address, if one is. -/
theorem Mapped.discard (h : t.Mapped) (hi : ∀ j, t.addressMap.lookup (t.channel i).address = some j → j = i) :
    (t.discard i c).Mapped where
  key a j hj := by
    obtain ⟨hj, hne⟩ := h.registered_discard hj
    rw [channel_discard, if_neg hne]
    exact h.key a j hj
  polled j hj := by
    obtain ⟨hj, hne⟩ := mem_discard.mp hj
    have hp := h.polled j hj
    rw [channel_discard, if_neg hne, lookup_discard, if_neg]
    · exact hp
    · intro he
      exact hne (hi j (he ▸ hp))
  fresh a j hj := h.fresh a j (h.registered_discard hj).1

theorem Tidy.discard (h : t.Tidy) (hi : t.addressMap.lookup (t.channel i).address = some i)
    (hc : c.address = (t.channel i).address) (hn : c.connected = false) : (t.discard i c).Tidy := by
  have hmap : (t.discard i c).Mapped := h.mapped.discard (h.mapped.lookup_own hi)
  have hret : (t.retire i c).Tidy := h.retire hc hn
  exact ⟨hmap.key, hmap.polled, hret.fits, fun a j hj hconn => hret.alive a j (h.mapped.registered_discard hj).1 hconn,
    hmap.fresh⟩

theorem Mapped.slot_discard (h : t.Mapped) :
    (t.discard i c).slot a = if a = (t.channel i).address then none else t.slot a := by
  have hl : (t.discard i c).addressMap.lookup a =
      if a = (t.channel i).address then none else t.addressMap.lookup a := lookup_discard
  split
  · rename_i he
    exact slot_of_none (hl.trans (if_pos he))
  · rename_i hne
    refine slot_congr (hl.trans (if_neg hne)) (fun j hj => ?_)
    have hji : j ≠ i := by
      rintro rfl
      exact hne (h.key a j hj).symm
    rw [channel_discard, if_neg hji]
    exact ⟨mem_discard.trans ⟨And.left, fun hm => ⟨hm, hji⟩⟩, rfl⟩

/-- The slot of a polled channel follows its state. -/
theorem Mapped.slot_setChannel (h : t.Mapped) (hi : i ∈ t.tokenMap) :
    (t.setChannel i c).slot a = if a = (t.channel i).address then some c.state else t.slot a := by
  split
  · subst_vars
    have hl : (t.setChannel i c).addressMap.lookup (t.channel i).address = some i := h.polled i hi
    have hm : i ∈ (t.setChannel i c).tokenMap := hi
    rw [slot_of_lookup hl, if_pos hm, channel_setChannel, if_pos rfl]
  · rename_i hne
    refine slot_congr rfl (fun j hj => ⟨Iff.rfl, ?_⟩)
    rw [channel_setChannel, if_neg]
    rintro rfl
    exact hne (h.key a j hj).symm

/-! ## Another address -/

/-- A channel is registered under another address, and changed. -/
def renameChannel (t : NetworkThread α) (i : Nat) (b : SocketAddr) (c : TcpChannel α) : NetworkThread α :=
  (t.reregisterChannelAddress (t.channel i).address b).setChannel i c

section

variable (h : t.Mapped) (hi : i ∈ t.tokenMap)
include h hi

theorem Mapped.renameChannel_eq : t.renameChannel i b c =
    { t with addressMap := (t.addressMap.erase (t.channel i).address).insert b i }.setChannel i c := by
  unfold renameChannel reregisterChannelAddress
  rw [h.polled i hi]

theorem Mapped.lookup_renameChannel : (t.renameChannel i b c).addressMap.lookup a =
    if a = b then some i else if a = (t.channel i).address then none else t.addressMap.lookup a := by
  rw [h.renameChannel_eq hi]
  show ((t.addressMap.erase (t.channel i).address).insert b i).lookup a = _
  rw [AssocMap.lookup_insert, AssocMap.lookup_erase]

theorem Mapped.tokenMap_renameChannel : (t.renameChannel i b c).tokenMap = t.tokenMap := by
  rw [h.renameChannel_eq hi]
  rfl

theorem Mapped.channel_renameChannel : (t.renameChannel i b c).channel j = if j = i then c else t.channel j := by
  rw [h.renameChannel_eq hi]
  exact channel_setChannel

theorem Mapped.toDispatcher_renameChannel : (t.renameChannel i b c).toDispatcher = t.toDispatcher := by
  rw [h.renameChannel_eq hi]
  rfl

/-- Another polled channel is not registered where this one is going to be. -/
theorem Mapped.address_ne (hb : b = (t.channel i).address ∨ t.slot b = none) (hj : j ∈ t.tokenMap) (hne : j ≠ i) :
    (t.channel j).address ≠ b ∧ (t.channel j).address ≠ (t.channel i).address := by
  have hown : (t.channel j).address ≠ (t.channel i).address := by
    intro he
    exact hne (h.lookup_unique hi j (he ▸ h.polled j hj))
  refine ⟨?_, hown⟩
  rintro rfl
  rcases hb with hb | hb
  · exact hown hb
  · rw [h.slot_polled hj] at hb
    cases hb

/-- Registered is this channel under its new address, or another one as before. -/
theorem Mapped.registered_renameChannel (hj : (t.renameChannel i b c).addressMap.lookup a = some j) :
    a = b ∧ j = i ∨ j ≠ i ∧ t.addressMap.lookup a = some j := by
  rw [h.lookup_renameChannel hi] at hj
  split at hj
  · exact .inl ⟨‹_›, (Option.some.inj hj).symm⟩
  · split at hj
    · cases hj
    · rename_i hne
      refine .inr ⟨?_, hj⟩
      rintro rfl
      exact hne (h.key a j hj).symm

theorem Mapped.renameChannel (hb : b = (t.channel i).address ∨ t.slot b = none) (hc : c.address = b) :
    (t.renameChannel i b c).Mapped := by
  refine ⟨fun a j hj => ?_, fun j hj => ?_, fun a j hj => ?_⟩
  · rw [h.channel_renameChannel hi]
    rcases h.registered_renameChannel hi hj with ⟨rfl, rfl⟩ | ⟨hne, hj⟩
    · rw [if_pos rfl]
      exact hc
    · rw [if_neg hne]
      exact h.key a j hj
  · rw [h.tokenMap_renameChannel hi] at hj
    rw [h.channel_renameChannel hi, h.lookup_renameChannel hi]
    by_cases hne : j = i
    · subst hne
      rw [if_pos rfl, if_pos hc]
    · obtain ⟨h1, h2⟩ := h.address_ne hi hb hj hne
      rw [if_neg hne, if_neg h1, if_neg h2]
      exact h.polled j hj
  · have ht : (t.renameChannel i b c).token = t.token := by rw [h.renameChannel_eq hi]; rfl
    rw [ht]
    rcases h.registered_renameChannel hi hj with ⟨-, rfl⟩ | ⟨-, hj⟩
    · exact h.lt_token hi
    · exact h.fresh a j hj

omit h in
theorem Tidy.renameChannel (h : t.Tidy) (hb : b = (t.channel i).address ∨ t.slot b = none) (hc : c.address = b)
    (hf : c.state.Fits b) : (t.renameChannel i b c).Tidy := by
  have hmap : (t.renameChannel i b c).Mapped := h.mapped.renameChannel hi hb hc
  refine ⟨hmap.key, hmap.polled, fun j hj => ?_, fun a j hj hconn => ?_, hmap.fresh⟩
  · rw [h.mapped.tokenMap_renameChannel hi] at hj
    rw [h.mapped.channel_renameChannel hi]
    by_cases hne : j = i
    · rw [if_pos hne, hc]
      exact hf
    · rw [if_neg hne]
      exact h.fits j hj
  · rw [h.mapped.tokenMap_renameChannel hi]
    rcases h.mapped.registered_renameChannel hi hj with ⟨-, rfl⟩ | ⟨hne, hj⟩
    · exact hi
    · rw [h.mapped.channel_renameChannel hi, if_neg hne] at hconn
      exact h.alive a j hj hconn

theorem Mapped.slot_renameChannel : (t.renameChannel i b c).slot a =
    if a = b then some c.state else if a = (t.channel i).address then none else t.slot a := by
  have hl := h.lookup_renameChannel hi (a := a) (b := b) (c := c)
  split
  · rename_i hab
    rw [if_pos hab] at hl
    rw [slot_of_lookup hl, h.tokenMap_renameChannel hi, if_pos hi, h.channel_renameChannel hi, if_pos rfl]
  · rename_i hab
    rw [if_neg hab] at hl
    split
    · rename_i ha
      rw [if_pos ha] at hl
      exact slot_of_none hl
    · rename_i ha
      rw [if_neg ha] at hl
      refine slot_congr hl (fun j hj => ?_)
      rw [h.tokenMap_renameChannel hi, h.channel_renameChannel hi, if_neg]
      · exact ⟨Iff.rfl, rfl⟩
      · rintro rfl
        exact ha (h.key a j hj).symm

end

end NetworkThread

end Kompact
