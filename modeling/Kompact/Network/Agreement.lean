import Kompact.Network.Sessions

/-!
# Agreement between the dispatcher and the thread

In every run of orderly steps (`Orderly`), the dispatcher and its thread agree
on who is connected whenever no event is on its way between the two
(`inAgreement_of_orderly`). The invariant is `InStep`.
-/

namespace Kompact

/-! ## The dispatcher's side -/

/-- The events on their way decide the view of an address, or say nothing about it. -/
theorem foldl_viewAfter {α : Type} (a : SocketAddr) (evs : List (NetworkDispatcherEvent (DispatchData α))) :
    (∃ r, ∀ conn, evs.foldl (viewAfter a) conn = r) ∨ ∀ conn, evs.foldl (viewAfter a) conn = conn := by
  have hone : ∀ ev : NetworkDispatcherEvent (DispatchData α),
      (∃ r, ∀ conn, viewAfter a conn ev = r) ∨ ∀ conn, viewAfter a conn ev = conn := by
    have hif : ∀ (addr : SocketAddr) (r : Option ConnectionState),
        (∃ r', ∀ conn, (if a = addr then r else conn) = r') ∨ ∀ conn, (if a = addr then r else conn) = conn := by
      intro addr r
      by_cases hab : a = addr
      · exact .inl ⟨r, fun _ => if_pos hab⟩
      · exact .inr (fun _ => if_neg hab)
    intro ev
    unfold viewAfter
    split
    · exact hif _ _
    · exact hif _ _
    · exact hif _ _
    · exact hif _ _
    · exact hif _ _
    · exact .inr (fun _ => rfl)
  induction evs with
  | nil => exact .inr (fun _ => rfl)
  | cons ev evs ih =>
    rcases ih with ⟨r, hr⟩ | hid
    · exact .inl ⟨r, fun conn => hr _⟩
    · rcases hone ev with ⟨r, hr⟩ | hid'
      · exact .inl ⟨r, fun conn => (hid _).trans (hr conn)⟩
      · exact .inr (fun conn => (hid _).trans (hid' conn))

namespace Dispatcher

variable {α : Type} {d : Dispatcher α} {a : SocketAddr}

theorem not_connected_iff : ¬ d.Connected a ↔ ∀ id, d.connections.lookup a ≠ some (.connected id) := by
  unfold Connected
  rcases d.connections.lookup a with _ | st
  · exact ⟨(fun _ _ he => by cases he), (fun _ he => by cases he)⟩
  · cases st with
    | connected id => exact ⟨fun h => absurd rfl h, fun h => absurd rfl (h id)⟩
    | _ => exact ⟨(fun _ _ he => by cases he), (fun _ he => by cases he)⟩

/-- Routing a message changes an entry only where there is no connection. -/
theorem lookup_routeRemoteTcp {addr : SocketAddr} {data : α} :
    (d.routeRemoteTcp addr data).connections.lookup a = d.connections.lookup a ∨
      ¬ d.Connected a ∧ ∀ id, (d.routeRemoteTcp addr data).connections.lookup a ≠ some (.connected id) := by
  have hset : ∀ {d' : Dispatcher α} {st : ConnectionState}, d.connections.lookupD addr .new = st →
      st.isConnected = false → d'.connections = d.connections →
      (d'.setConnection addr .initializing).connections.lookup a = d.connections.lookup a ∨
      ¬ d.Connected a ∧ ∀ id, (d'.setConnection addr .initializing).connections.lookup a ≠ some (.connected id) := by
    intro d' st hst hn hd
    rw [lookup_setConnection, hd]
    by_cases hab : a = addr
    · subst hab
      rw [if_pos rfl]
      refine .inr ⟨not_connected_iff.mpr (fun id he => ?_), (fun id he => by cases he)⟩
      unfold AssocMap.lookupD at hst
      rw [he] at hst
      subst hst
      cases hn
    · exact .inl (if_neg hab)
  unfold routeRemoteTcp
  split
  · rename_i hst
    exact hset hst rfl rfl
  · split
    · exact .inl rfl
    · exact .inl rfl
  · exact .inl rfl
  · rename_i hst
    exact hset hst rfl rfl
  · exact .inl rfl
  · exact .inl rfl

/-- The loop over the retry map removes an entry only where it gives up. -/
theorem lookup_foldl_retry (attempt : SocketAddr → Nat) (order : List SocketAddr) (d : Dispatcher α) :
    (order.foldl (fun d' addr => d'.retry addr (attempt addr)) d).connections.lookup a = d.connections.lookup a ∨
      a ∈ order ∧ d.maxConnectionRetryAttempts ≤ attempt a ∧
        (order.foldl (fun d' addr => d'.retry addr (attempt addr)) d).connections.lookup a = none := by
  induction order generalizing d with
  | nil => exact .inl rfl
  | cons b rest ih =>
    have hmax : (d.retry b (attempt b)).maxConnectionRetryAttempts = d.maxConnectionRetryAttempts := by
      unfold retry
      split
      · rfl
      · rfl
    rw [List.foldl_cons]
    rcases ih (d.retry b (attempt b)) with hl | ⟨hm, hle, hl⟩
    · rw [hl]
      unfold retry
      split
      · exact .inl rfl
      · rename_i hlt
        show (d.connections.erase b).lookup a = _ ∨ _ ∧ _ ∧ (d.connections.erase b).lookup a = _
        rw [AssocMap.lookup_erase]
        by_cases hab : a = b
        · subst hab
          rw [if_pos rfl]
          exact .inr ⟨List.mem_cons_self, Nat.not_lt.mp hlt, rfl⟩
        · exact .inl (if_neg hab)
    · exact .inr ⟨List.mem_cons_of_mem _ hm, hmax ▸ hle, hl⟩

theorem connections_handleRequest {req : NetworkStatusRequest} :
    (d.handleRequest req).connections = d.connections := by
  cases req with
  | disconnectSystem addr =>
    unfold handleRequest closeChannel
    simp only
    split
    · rfl
    · rfl
  | _ => rfl

end Dispatcher

/-! ## Runs -/

namespace System

variable {α : Type} {s s' : System α} {a : SocketAddr}

/-- What the dispatcher will hold about an address. -/
def view (s : System α) (a : SocketAddr) : Option ConnectionState :=
  s.thread.toDispatcher.foldl (viewAfter a) (s.dispatcher.connections.lookup a)

/-- The steps that keep the two sides in step: a tick gives up on no address
that the dispatcher holds connected, and the thread drops no session, and has
the dispatcher drop none, without the other side knowing. -/
def Orderly (s : System α) : Action α → Prop
  | .tick order => ∀ a ∈ order, s.dispatcher.Connected a →
      s.dispatcher.retryMap.lookupD a 0 < s.dispatcher.maxConnectionRetryAttempts
  | .deliver _ => ∀ ev ∈ s.dispatcher.toThread.head?, s.thread.DispatchOk ev
  | .network act => s.thread.ActionOk act
  | _ => True

instance (s : System α) : (act : Action α) → Decidable (s.Orderly act)
  | .route _ _ => inferInstanceAs (Decidable True)
  | .tick order => inferInstanceAs (Decidable (∀ a ∈ order, _ → _))
  | .request _ => inferInstanceAs (Decidable True)
  | .receive => inferInstanceAs (Decidable True)
  | .deliver _ => inferInstanceAs (Decidable (∀ ev ∈ s.dispatcher.toThread.head?, s.thread.DispatchOk ev))
  | .network act => inferInstanceAs (Decidable (s.thread.ActionOk act))

instance (s : System α) [DecidableEq α] : Decidable s.Quiescent := inferInstanceAs (Decidable (_ ∧ _))

structure InStep (s : System α) : Prop where
  tidy : s.thread.Tidy
  reader : s.thread.Reader
  alive : ∀ ev ∈ s.thread.toDispatcher, ev ≠ .network .criticalNetworkFailure
  agrees : ∀ a, Agrees (s.thread.slot a) (s.view a)

/-- The thread moves on. -/
theorem InStep.keeps {t' : NetworkThread α} {d' : Dispatcher (DispatchData α)} (h : s.InStep)
    (hd : d'.connections = s.dispatcher.connections) (hk : NetworkThread.Keeps s.thread t') (hr : t'.Reader) :
    InStep ⟨d', t'⟩ := by
  refine ⟨hk.tidy, hr, fun ev hev => ?_, fun a => ?_⟩
  · obtain ⟨evs, ⟨he, hn⟩, -⟩ := hk.moves (SocketAddr.v4 0 0)
    have hev' : ev ∈ t'.toDispatcher := hev
    rw [he] at hev'
    rcases List.mem_append.mp hev' with h' | h'
    · exact h.alive ev h'
    · exact hn ev h'
  · obtain ⟨evs, ⟨he, -⟩, hv⟩ := hk.moves a
    have hview : view ⟨d', t'⟩ a = evs.foldl (viewAfter a) (s.view a) := by
      unfold view
      rw [hd, he, List.foldl_append]
    rw [hview]
    exact hv _ (h.agrees a)

/-- The dispatcher changes entries, but none that is connected or comes to be. -/
theorem InStep.entries {d' : Dispatcher (DispatchData α)} (h : s.InStep)
    (hd : ∀ a, d'.connections.lookup a = s.dispatcher.connections.lookup a ∨
      ¬ s.dispatcher.Connected a ∧ ∀ id, d'.connections.lookup a ≠ some (.connected id)) :
    InStep { s with dispatcher := d' } := by
  refine ⟨h.tidy, h.reader, h.alive, fun a => ?_⟩
  have ha := h.agrees a
  unfold view at ha ⊢
  rcases hd a with he | ⟨hn, hn'⟩
  · simp only [he]
    exact ha
  · rw [Dispatcher.not_connected_iff] at hn
    rcases foldl_viewAfter a s.thread.toDispatcher with ⟨r, hr⟩ | hid
    · simp only [hr] at ha ⊢
      exact ha
    · simp only [hid] at ha ⊢
      refine ⟨fun addr id hc => absurd (ha.connected addr id hc) (hn id), fun id hc => absurd hc (hn' id)⟩

theorem InStep.step {act : Action α} (h : s.InStep) (ho : s.Orderly act) (hs : s.step act = some s') : s'.InStep := by
  cases act with
  | route addr data =>
    obtain rfl := Option.some.inj hs
    exact h.entries (fun a => Dispatcher.lookup_routeRemoteTcp)
  | tick order =>
    obtain ⟨d', hd, rfl⟩ := Option.map_eq_some_iff.mp hs
    simp only [Dispatcher.step] at hd
    split at hd
    · obtain rfl := Option.some.inj hd
      refine h.entries (fun a => ?_)
      unfold Dispatcher.scheduleRetries
      rcases Dispatcher.lookup_foldl_retry (a := a) (fun addr => s.dispatcher.retryMap.lookupD addr 0) order
        { s.dispatcher with retryMap := ∅ } with hl | ⟨hm, hle, hl⟩
      · exact .inl hl
      · refine .inr ⟨fun hc => ?_, fun id he => ?_⟩
        · exact Nat.not_lt.mpr hle (ho a hm hc)
        · rw [hl] at he
          cases he
    · cases hd
  | request req =>
    obtain rfl := Option.some.inj hs
    exact h.entries (fun a => .inl (by rw [Dispatcher.connections_handleRequest]))
  | receive =>
    simp only [System.step] at hs
    split at hs
    · rename_i ev rest hev
      obtain ⟨d', hd, rfl⟩ := Option.map_eq_some_iff.mp hs
      obtain rfl := Option.some.inj hd
      have hne := h.alive ev (by rw [hev]; exact List.mem_cons_self)
      refine ⟨⟨h.tidy.key, h.tidy.polled, h.tidy.fits, h.tidy.alive, h.tidy.fresh⟩, h.reader,
        fun ev' hev' => ?_, fun a => ?_⟩
      · exact h.alive ev' (by rw [hev]; exact List.mem_cons_of_mem _ hev')
      · have ha := h.agrees a
        unfold view at ha ⊢
        rw [hev] at ha
        simp only [Dispatcher.lookup_onEvent hne]
        exact ha
    · cases hs
  | deliver env =>
    simp only [System.step] at hs
    split at hs
    · rename_i ev rest hev
      obtain ⟨t', ht, rfl⟩ := Option.map_eq_some_iff.mp hs
      obtain ⟨hr, -, rfl⟩ := NetworkThread.receiveDispatch_some ht
      refine h.keeps rfl (h.tidy.keeps_handleDispatchEvent (ho ev (by rw [hev]; rfl))) (fun i hi => ?_)
      rw [NetworkThread.reading_handleDispatchEvent, hr] at hi
      cases hi
    · cases hs
  | network act =>
    obtain ⟨t', ht, rfl⟩ := Option.map_eq_some_iff.mp hs
    obtain ⟨hk, hr⟩ := h.tidy.keeps_step h.reader ho ht
    exact h.keeps rfl hk hr

theorem inStep_new (n : Nat) (addr : SocketAddr) (soft hard : Nat) : (new n addr soft hard : System α).InStep := by
  have hl : ∀ a i, (new n addr soft hard : System α).thread.addressMap.lookup a ≠ some i := fun a i h => by cases h
  refine ⟨⟨fun a i h => absurd h (hl a i), (fun i h => by cases h), (fun i h => by cases h),
    fun a i h => absurd h (hl a i), fun a i h => absurd h (hl a i)⟩, (fun i h => by cases h),
    (fun ev h => by cases h), fun a => ?_⟩
  exact agrees_none (fun id h => by cases h)

/-- A connected channel is known to the dispatcher, and what the dispatcher
holds connected has a channel with that session. -/
structure InAgreement (s : System α) : Prop where
  known : ∀ addr id i, s.thread.addressMap.lookup addr = some i → (s.thread.channel i).state = .connected addr id →
    s.dispatcher.connections.lookup addr = some (.connected id)
  held : ∀ addr id, s.dispatcher.connections.lookup addr = some (.connected id) →
    ∃ i, s.thread.addressMap.lookup addr = some i ∧ (s.thread.channel i).sessionId = some id ∧
      (s.thread.channel i).state.isLive = true

/-- In every run of orderly steps the two sides agree when no event is on its way. -/
theorem inAgreement_of_orderly {n : Nat} {addr : SocketAddr} {soft hard : Nat}
    (h : Reach step Orderly (new n addr soft hard) s) (hq : s.Quiescent) : s.InAgreement := by
  have hinv : s.InStep := Reach.invariant InStep (inStep_new n addr soft hard) (fun h ho hs => h.step ho hs) h
  have hview : ∀ a, s.view a = s.dispatcher.connections.lookup a := by
    intro a
    unfold view
    rw [hq.2]
    rfl
  refine ⟨fun addr id i hl hst => ?_, fun addr id hc => ?_⟩
  · have hm : i ∈ s.thread.tokenMap := by
      refine hinv.tidy.alive addr i hl ?_
      unfold TcpChannel.connected
      rw [hst]
      rfl
    rw [← hview]
    refine (hinv.agrees addr).connected addr id ?_
    rw [NetworkThread.slot_of_lookup hl, if_pos hm, hst]
  · obtain ⟨st, hslot, hlive, hid⟩ := (hinv.agrees addr).held id (by rw [hview]; exact hc)
    rcases hl : s.thread.addressMap.lookup addr with _ | i
    · rw [NetworkThread.slot_of_none hl] at hslot
      cases hslot
    · rw [NetworkThread.slot_of_lookup hl] at hslot
      split at hslot
      · obtain rfl := Option.some.inj hslot
        exact ⟨i, rfl, hid, hlive⟩
      · cases hslot

/-- The session is established, used, and closing. -/
theorem inAgreement_of_orderly_closing :
    let run := connecting ++ [.route (Dispatcher.localhost 80) (.lazy 1), .deliver {},
      .request (.disconnectSystem (Dispatcher.localhost 80)), .deliver {}]
    ∃ h : (runActions step booted run).isSome, (Option.get _ h).InAgreement :=
  ⟨by decide, inAgreement_of_orderly (Reach.of_run _ (by decide) (by decide)) (by decide)⟩

/-- Blocking the IP address of a channel drops it, and the dispatcher goes on to
hold the address connected. Allowing the address makes the dispatcher forget
it, and the channel goes on. -/
theorem not_inAgreement_blocked_and_allowed :
    (∃ s : System Nat, Reach step (fun _ _ => True) booted s ∧ s.Quiescent ∧
      s.dispatcher.connections.lookup (Dispatcher.localhost 80) = some (.connected ⟨7⟩) ∧
      s.thread.addressMap.lookup (Dispatcher.localhost 80) = none) ∧
    ∃ s : System Nat, Reach step (fun _ _ => True) booted s ∧ s.Quiescent ∧
      s.thread.addressMap.lookup (Dispatcher.localhost 80) = some 0 ∧
      (s.thread.channel 0).state = .connected (Dispatcher.localhost 80) ⟨7⟩ ∧
      s.dispatcher.connections.lookup (Dispatcher.localhost 80) = none := by
  refine ⟨⟨_, Reach.of_run (connecting ++ [.request (.blockIp (.v4 0x7F000001#32)),
    .deliver { order := [Dispatcher.localhost 80] }, .receive, .receive]) (by decide) (runMeets_true _ _),
    by decide, by decide, by decide⟩, ?_⟩
  exact ⟨_, Reach.of_run (connecting ++ [.request (.allowSystem (Dispatcher.localhost 80)), .deliver {}, .receive])
    (by decide) (runMeets_true _ _), by decide, by decide, by decide, by decide⟩

end System

end Kompact
