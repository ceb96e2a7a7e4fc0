import Kompact.Framework.Delivery
import Kompact.Network.System
import Kompact.Network.Traffic

/-!
# Messages in order

The dispatcher and its thread as a delivery of messages (`Delivery`). The
messages for an address wait, in this order, in the priority queue of the
dispatcher, on their way back to it, on their way to the thread, and in the
queue of the dispatcher.

Two things can make a fresh message overtake another one. A message is queued
on a channel although an earlier one was refused, because the connection was
made again meanwhile; or the dispatcher sends what was refused after messages
that are on their way already. Runs without these steps (`InTurn`) keep the
order.
-/

namespace Kompact

/-- The messages that are on their way to the thread, for an address. -/
def sendsTo {α : Type} (a : SocketAddr) (evs : List (DispatchEvent (DispatchData α))) : List α :=
  evs.filterMap fun
    | .sendTcp b data => if b = a then data.msg? else none
    | _ => none

theorem sendsTo_append {α : Type} (a : SocketAddr) (evs evs' : List (DispatchEvent (DispatchData α))) :
    sendsTo a (evs ++ evs') = sendsTo a evs ++ sendsTo a evs' := List.filterMap_append

theorem sendsTo_cons {α : Type} {a b : SocketAddr} {data : DispatchData α}
    {evs : List (DispatchEvent (DispatchData α))} : sendsTo b (.sendTcp a data :: evs) =
      (if b = a then data.msg?.toList else []) ++ sendsTo b evs :=
  (filterMap_cons_toList _ _ _).trans (congrArg (· ++ _) (toList_ite_eq a b data.msg?))

namespace Dispatcher

variable {α : Type}

/-- The messages in the priority queue of the address. -/
def returned (d : Dispatcher (DispatchData α)) (a : SocketAddr) : List α :=
  (d.queueManager.priorityQueue.lookupD a []).filterMap DispatchData.msg?

/-- The messages in the queue of the address. -/
def backlog (d : Dispatcher (DispatchData α)) (a : SocketAddr) : List α :=
  (d.queueManager.inner.lookupD a []).filterMap DispatchData.msg?

end Dispatcher

/-- The system, and the address of each message that was routed. A message is its number in this list. -/
structure Dispatching where
  sys : System Nat
  sent : List SocketAddr

namespace Dispatching

/-- A message that is routed gets the next number. -/
def step (s : Dispatching) (act : System.Action Nat) : Option Dispatching :=
  match act with
  | .route addr data =>
    if data.msg? = some s.sent.length then (s.sys.step act).map fun sys => ⟨sys, s.sent ++ [addr]⟩ else none
  | act => (s.sys.step act).map fun sys => { s with sys }

def toLog : HistoryEntry Nat → Option (DeliveryEntry Nat)
  | .enqueued i f => f.msg?.map (.enqueued i)
  | .handedBack i f => f.msg?.map (.handedBack i)

def log (s : Dispatching) : List (DeliveryEntry Nat) := s.sys.thread.history.filterMap toLog

def delivery (s : Dispatching) : Delivery SocketAddr Nat where
  sent := s.sent
  waiting a := s.sys.dispatcher.returned a ++ rejectedFor a s.sys.thread.toDispatcher ++
    sendsTo a s.sys.dispatcher.toThread ++ s.sys.dispatcher.backlog a
  queued i := (s.sys.thread.channel i).queuedMessages
  dead := s.sys.thread.Dead
  log := s.log

/-! ## The condition -/

/-- Of the fresh messages for the address, none is in the priority queue, or none is on its way. -/
def DrainsInTurn (s : Dispatching) (a : SocketAddr) : Prop :=
  Delivery.fresh s.log (s.sys.dispatcher.returned a) = [] ∨
    Delivery.fresh s.log (rejectedFor a s.sys.thread.toDispatcher ++ sendsTo a s.sys.dispatcher.toThread) = []

/-- A fresh message is queued on a channel only if none for the same address was refused and has not been sent
again, and queues are drained in turn. -/
def InTurn (s : Dispatching) : System.Action Nat → Prop
  | .route addr _ => s.sys.dispatcher.Connected addr → s.DrainsInTurn addr
  | .request (.disconnectSystem addr) => s.sys.dispatcher.Connected addr → s.DrainsInTurn addr
  | .receive =>
    match s.sys.thread.toDispatcher with
    | .network (.connectionEstablished addr _) :: _ => s.DrainsInTurn addr
    | _ => True
  | .deliver _ =>
    match s.sys.dispatcher.toThread with
    | .sendTcp addr data :: _ =>
      (s.sys.thread.addressMap.lookup addr).any (fun i => (s.sys.thread.channel i).connected) = true →
        Delivery.fresh s.log data.msg?.toList ≠ [] →
          Delivery.fresh s.log (s.sys.dispatcher.returned addr ++ rejectedFor addr s.sys.thread.toDispatcher) = []
    | _ => True
  | _ => True

/-! ## The invariant -/

structure Tracked (s : Dispatching) : Prop where
  inv : s.delivery.Inv
  bounded : s.sys.thread.Bounded
  known : ∀ i m, .enqueued i m ∈ s.log → i < s.sys.thread.token

variable {s : Dispatching} {t' : NetworkThread Nat} {a addr : SocketAddr} {data : DispatchData Nat}

def setThread (s : Dispatching) (thread : NetworkThread Nat) : Dispatching := { s with sys := { s.sys with thread } }

/-- The thread neither queues nor hands back messages. -/
theorem Tracked.idle (h : s.Tracked) (hlog : (s.setThread t').log = s.log)
    (hr : ∀ a, rejectedFor a t'.toDispatcher = rejectedFor a s.sys.thread.toDispatcher)
    (hq : ∀ i, (t'.channel i).queuedMessages.Sublist (s.sys.thread.channel i).queuedMessages)
    (hd : ∀ i, s.sys.thread.Dead i → t'.Dead i) (hb : t'.Bounded) (ht : s.sys.thread.token ≤ t'.token) :
    (s.setThread t').Tracked := by
  have hwait : ∀ a, (s.setThread t').delivery.waiting a = s.delivery.waiting a := by
    intro a
    show _ ++ rejectedFor a t'.toDispatcher ++ _ ++ _ = _
    rw [hr]
    rfl
  refine ⟨h.inv.shed ⟨rfl, hlog, fun a m => ?_, fun a => ?_, fun i m => (hq i).count_le m, hd⟩, hb, fun i m hm => ?_⟩
  · rw [hwait]
  · rw [hwait]
  · rw [hlog] at hm
    exact Nat.lt_of_lt_of_le (h.known i m hm) ht

theorem toLog_handedBack (i : Nat) (fs : List (NetFrame Nat)) :
    (fs.map (.handedBack i)).filterMap toLog = (messagesIn fs).map (.handedBack i) := by
  unfold messagesIn
  rw [List.filterMap_map, List.map_filterMap]
  rfl

theorem log_handsBack {i : Nat} {fs : List (NetFrame Nat)} (h : NetworkThread.HandsBack s.sys.thread t' i a fs) :
    (s.setThread t').log = s.log ++ (messagesIn fs).map (.handedBack i) := by
  show t'.history.filterMap toLog = _
  rw [h.history, List.filterMap_append, toLog_handedBack]
  rfl

theorem Tracked.handsBack {i : Nat} {fs : List (NetFrame Nat)} (h : s.Tracked)
    (hb : NetworkThread.HandsBack s.sys.thread t' i a fs) (hdead : i < s.sys.thread.token → t'.Dead i)
    (hne : messagesIn fs ≠ []) : (s.setThread t').Tracked := by
  have hlog := log_handsBack hb
  have hlt : i < s.sys.thread.token := by
    obtain ⟨m, hm⟩ := List.exists_mem_of_ne_nil _ hne
    exact h.known i m (h.inv.queued i m (hb.back.subset hm))
  have hnil : Delivery.fresh (s.setThread t').log (messagesIn fs) = [] := by
    refine Delivery.fresh_eq_nil (fun m hm => ⟨i, ?_⟩)
    rw [hlog]
    exact List.mem_append_left _ (h.inv.queued i m (hb.back.subset hm))
  have hwait : ∀ b, (s.setThread t').delivery.waiting b = s.sys.dispatcher.returned b ++
      (rejectedFor b s.sys.thread.toDispatcher ++ if b = a then messagesIn fs else []) ++
        sendsTo b s.sys.dispatcher.toThread ++ s.sys.dispatcher.backlog b := by
    intro b
    show _ ++ rejectedFor b t'.toDispatcher ++ _ ++ _ = _
    rw [hb.rejected]
    rfl
  have hold : ∀ b, (s.delivery.handBack i a (messagesIn fs)).waiting b =
      s.delivery.waiting b ++ if b = a then messagesIn fs else [] := by
    intro b
    refine (Function.update_apply _ _ _ _).trans ?_
    split
    · subst_vars; rfl
    · exact (List.append_nil _).symm
  have hhand : (s.delivery.handBack i a (messagesIn fs)).Inv := h.inv.handBack hb.back
  refine ⟨hhand.shed ⟨rfl, hlog, fun b m => ?_, fun b => ?_, fun j m => ?_, fun j hj => ?_⟩, hb.bounded h.bounded,
    fun j m hm => ?_⟩
  · rw [hwait, hold]
    unfold delivery
    simp only [List.count_append]
    omega
  · -- what is handed back is not fresh, wherever it is put
    have hlog' : (s.delivery.handBack i a (messagesIn fs)).log = (s.setThread t').log := hlog.symm
    have hif : ∀ b, Delivery.fresh (s.setThread t').log (if b = a then messagesIn fs else []) = [] := by
      intro b
      split
      · exact hnil
      · rfl
    rw [hlog', hwait, hold]
    unfold delivery
    simp only [Delivery.fresh_append, hif, List.append_nil]
    exact List.Sublist.refl _
  · show ((t'.channel j).queuedMessages).count m ≤ (Function.update s.delivery.queued i [] j).count m
    rw [Function.update_apply]
    split
    · subst_vars
      rw [hb.emptied]
    · exact (hb.queued j).count_le m
  · have hj : Function.update s.sys.thread.Dead i True j := hj
    rw [Function.update_apply] at hj
    split at hj
    · subst_vars; exact hdead hlt
    · exact hb.dead j hj
  · rw [hlog] at hm
    rcases List.mem_append.mp hm with hm | hm
    · exact Nat.lt_of_lt_of_le (h.known j m hm) hb.token
    · obtain ⟨m', -, he⟩ := List.mem_map.mp hm
      cases he

/-- The thread handles an event of the network. -/
theorem Tracked.passes (h : s.Tracked) (hs : NetworkThread.Passes s.sys.thread t') : (s.setThread t').Tracked := by
  rcases hs with hq | ⟨i, a, fs, hb, hdead⟩
  · exact h.idle (congrArg (List.filterMap toLog) hq.history) hq.rejected hq.queued hq.dead (hq.bounded h.bounded)
      hq.token
  · by_cases hne : messagesIn fs = []
    · refine h.idle ?_ (fun b => ?_) hb.queued hb.dead (hb.bounded h.bounded) hb.token
      · rw [log_handsBack hb, hne]
        exact List.append_nil _
      · rw [hb.rejected, hne]
        split
        · exact List.append_nil _
        · exact List.append_nil _
    · exact h.handsBack hb hdead hne

/-! ## The thread receives an event -/

section

variable {rest : List (DispatchEvent (DispatchData Nat))}

/-- The thread has received the next event. -/
def afterDelivery (s : Dispatching) (rest : List (DispatchEvent (DispatchData Nat))) (thread : NetworkThread Nat) :
    Dispatching :=
  { s with sys := ⟨{ s.sys.dispatcher with toThread := rest }, thread⟩ }

theorem waiting_sendTcp (hev : s.sys.dispatcher.toThread = .sendTcp addr data :: rest) (a : SocketAddr) :
    s.delivery.waiting a = s.sys.dispatcher.returned a ++ rejectedFor a s.sys.thread.toDispatcher ++
      ((if a = addr then data.msg?.toList else []) ++ sendsTo a rest) ++ s.sys.dispatcher.backlog a := by
  show _ ++ _ ++ sendsTo a s.sys.dispatcher.toThread ++ _ = _
  rw [hev, sendsTo_cons]

theorem Tracked.refused (h : s.Tracked) (hev : s.sys.dispatcher.toThread = .sendTcp addr data :: rest)
    (hr : NetworkThread.Refuses s.sys.thread t' addr data) : (s.afterDelivery rest t').Tracked := by
  have hlog : (s.afterDelivery rest t').log = s.log := congrArg (List.filterMap toLog) hr.history
  -- the message has come to the end of those that go back
  have hwait : ∀ a, (s.afterDelivery rest t').delivery.waiting a = s.delivery.waiting a := by
    intro a
    rw [waiting_sendTcp hev]
    show _ ++ rejectedFor a t'.toDispatcher ++ _ ++ _ = _
    rw [hr.rejected]
    simp only [List.append_assoc]
    rfl
  refine ⟨h.inv.shed ⟨rfl, hlog, fun a m => ?_, fun a => ?_, fun i m => ?_, hr.dead⟩, hr.bounded h.bounded,
    fun i m hm => ?_⟩
  · rw [hwait]
  · rw [hwait]
  · exact Nat.le_of_eq (congrArg _ (hr.queued i))
  · rw [hlog] at hm
    exact hr.token ▸ h.known i m hm

section

variable {i m : Nat} (hq : NetworkThread.Queues s.sys.thread t' i data)
include hq

theorem log_queued : (s.afterDelivery rest t').log = s.log ++ (data.msg?.map (.enqueued i)).toList := by
  show t'.history.filterMap toLog = _
  rw [hq.history, List.filterMap_append]
  exact congrArg _ ((filterMap_cons_toList _ _ _).trans (List.append_nil _))

theorem waiting_queued (a : SocketAddr) : (s.afterDelivery rest t').delivery.waiting a = s.sys.dispatcher.returned a ++
    rejectedFor a s.sys.thread.toDispatcher ++ sendsTo a rest ++ s.sys.dispatcher.backlog a := by
  show _ ++ rejectedFor a t'.toDispatcher ++ _ ++ _ = _
  rw [hq.rejected]
  rfl

/-- A control frame that was handed back is queued. -/
theorem Tracked.queuedControl (h : s.Tracked) (hev : s.sys.dispatcher.toThread = .sendTcp addr data :: rest)
    (hmsg : data.msg? = none) : (s.afterDelivery rest t').delivery.Inv := by
  have hlog : (s.afterDelivery rest t').log = _ := log_queued hq
  rw [hmsg] at hlog
  have hsame : ∀ a, (s.afterDelivery rest t').delivery.waiting a = s.delivery.waiting a := by
    intro a
    rw [waiting_queued hq, waiting_sendTcp hev, hmsg]
    simp
  refine h.inv.shed ⟨rfl, hlog.trans (List.append_nil _), fun a m => ?_, fun a => ?_, fun j m => ?_, hq.dead⟩
  · rw [hsame]
  · rw [hsame]
  · refine Nat.le_of_eq (congrArg _ ((hq.queued j).trans ?_))
    rw [hmsg]
    simp
    rfl

omit hq in
/-- The message that is next in turn is queued. -/
theorem Tracked.enqueue (h : s.Tracked) (hev : s.sys.dispatcher.toThread = .sendTcp addr data :: rest)
    (hmsg : data.msg? = some m) (hc : (s.sys.thread.channel i).connected = true)
    (hturn : Delivery.fresh s.log [m] ≠ [] →
      Delivery.fresh s.log (s.sys.dispatcher.returned addr ++ rejectedFor addr s.sys.thread.toDispatcher) = []) :
    (s.delivery.enqueue addr i m).Inv := by
  have hmem : m ∈ s.delivery.waiting addr := by
    rw [waiting_sendTcp hev, hmsg, if_pos rfl]
    simp
  refine h.inv.enqueue hmem (fun hd => ?_) (fun hf => ?_)
  · rw [hd.connected] at hc
    cases hc
  · have hfresh : Delivery.fresh s.log [m] = [m] := by
      refine List.filter_eq_self.mpr (fun m' hm' => ?_)
      obtain rfl := List.mem_singleton.mp hm'
      exact (List.mem_filter.mp hf).2
    have hnil := hturn (by rw [hfresh]; exact List.cons_ne_nil _ _)
    show (Delivery.fresh s.log (s.delivery.waiting addr)).head? = some m
    rw [waiting_sendTcp hev, hmsg, if_pos rfl, List.append_assoc, Delivery.fresh_append, hnil, List.nil_append]
    show (Delivery.fresh s.log ([m] ++ sendsTo addr rest ++ s.sys.dispatcher.backlog addr)).head? = some m
    rw [List.append_assoc, Delivery.fresh_append, hfresh]
    rfl

/-- It waits nowhere else, so that it is the one that is taken. -/
theorem Tracked.waiting_enqueue (h : s.Tracked) (hev : s.sys.dispatcher.toThread = .sendTcp addr data :: rest)
    (hmsg : data.msg? = some m) (a : SocketAddr) :
    (s.delivery.enqueue addr i m).waiting a = (s.afterDelivery rest t').delivery.waiting a := by
  have hnotin : m ∉ s.sys.dispatcher.returned addr ++ rejectedFor addr s.sys.thread.toDispatcher := by
    have hnd : (s.delivery.waiting addr).Nodup := h.inv.once.nodup (.inl addr)
    rw [waiting_sendTcp hev, hmsg, if_pos rfl, List.append_assoc] at hnd
    intro hin
    exact (List.nodup_append.mp hnd).2.2 m hin m (by simp) rfl
  refine (Function.update_apply _ _ _ _).trans ?_
  rw [waiting_queued hq]
  split
  · rename_i ha
    subst ha
    rw [waiting_sendTcp hev, hmsg, if_pos rfl, List.append_assoc, List.erase_append_right _ hnotin]
    show _ ++ (m :: (sendsTo a rest ++ s.sys.dispatcher.backlog a)).erase m = _
    rw [List.erase_cons_head, List.append_assoc, List.append_assoc, List.append_assoc]
  · rename_i ha
    rw [waiting_sendTcp hev, if_neg ha]
    rfl

/-- The message is queued. -/
theorem Tracked.queuedMessage (h : s.Tracked) (hev : s.sys.dispatcher.toThread = .sendTcp addr data :: rest)
    (hmsg : data.msg? = some m) (henq : (s.delivery.enqueue addr i m).Inv) : (s.afterDelivery rest t').delivery.Inv := by
  have hlog : (s.afterDelivery rest t').log = _ := log_queued hq
  rw [hmsg] at hlog
  refine henq.shed ⟨rfl, hlog, fun a m' => ?_, fun a => ?_, fun j m' => ?_, hq.dead⟩
  · rw [h.waiting_enqueue hq hev hmsg]
  · rw [h.waiting_enqueue hq hev hmsg]
  · show (t'.channel j).queuedMessages.count m' ≤ (Function.update s.delivery.queued i _ j).count m'
    rw [Function.update_apply, hq.queued, hmsg]
    split
    · subst_vars; exact Nat.le_refl _
    · rw [List.append_nil]
      exact Nat.le_refl _

theorem Tracked.queued (h : s.Tracked) (hev : s.sys.dispatcher.toThread = .sendTcp addr data :: rest)
    (hl : s.sys.thread.addressMap.lookup addr = some i) (hc : (s.sys.thread.channel i).connected = true)
    (hturn : Delivery.fresh s.log data.msg?.toList ≠ [] →
      Delivery.fresh s.log (s.sys.dispatcher.returned addr ++ rejectedFor addr s.sys.thread.toDispatcher) = []) :
    (s.afterDelivery rest t').Tracked := by
  refine ⟨?_, hq.bounded h.bounded, fun j m hm => ?_⟩
  · cases hmsg : data.msg? with
    | none => exact h.queuedControl hq hev hmsg
    | some m =>
      rw [hmsg] at hturn
      exact h.queuedMessage hq hev hmsg (h.enqueue hev hmsg hc hturn)
  · rw [log_queued hq] at hm
    have htoken : s.sys.thread.token = t'.token := hq.token.symm
    rcases List.mem_append.mp hm with hm | hm
    · exact htoken ▸ h.known j m hm
    · obtain ⟨m', -, he⟩ := Option.map_eq_some_iff.mp (Option.mem_toList.mp hm)
      obtain ⟨rfl, rfl⟩ := DeliveryEntry.enqueued.inj he
      exact htoken ▸ h.bounded addr i hl

end

end

end Dispatching

/-! ## The dispatcher -/

namespace Dispatcher

variable {α : Type} {d d' d₁ : Dispatcher (DispatchData α)} {a addr : SocketAddr}

/-- Messages may be lost, and nothing else. -/
structure Loses (d d' : Dispatcher (DispatchData α)) : Prop where
  returned : ∀ a, (d'.returned a).Sublist (d.returned a)
  sends : ∀ a, (sendsTo a d'.toThread).Sublist (sendsTo a d.toThread)
  backlog : ∀ a, (d'.backlog a).Sublist (d.backlog a)

theorem Loses.trans (h : Loses d d₁) (h' : Loses d₁ d') : Loses d d' :=
  ⟨fun a => (h'.returned a).trans (h.returned a), fun a => (h'.sends a).trans (h.sends a),
    fun a => (h'.backlog a).trans (h.backlog a)⟩

/-- The queues and the events for the thread are as before. -/
theorem loses_of_eq (hq : d'.queueManager = d.queueManager) (ht : d'.toThread = d.toThread) : Loses d d' := by
  refine ⟨fun a => ?_, fun a => ?_, fun a => ?_⟩
  · unfold returned
    rw [hq]
  · rw [ht]
  · unfold backlog
    rw [hq]

/-- An event that is not a message is sent. -/
theorem loses_send (ev : DispatchEvent (DispatchData α)) (h : ∀ a data, ev ≠ .sendTcp a data) :
    Loses d (d.send ev) := by
  refine ⟨fun _ => List.Sublist.refl _, fun a => ?_, fun _ => List.Sublist.refl _⟩
  have hnone : sendsTo a [ev] = [] := by
    cases ev with
    | sendTcp b data => exact absurd rfl (h b data)
    | _ => rfl
  show (sendsTo a (d.toThread ++ [ev])).Sublist _
  rw [sendsTo_append, hnone, List.append_nil]

theorem loses_retry (n : Nat) : Loses d (d.retry addr n) := by
  unfold retry
  split
  · have hmap : Loses d { d with retryMap := d.retryMap.insert addr (n + 1) } := loses_of_eq rfl rfl
    exact hmap.trans (loses_send (.connect addr) (fun _ _ h => by cases h))
  · refine ⟨fun a => ?_, fun a => List.Sublist.refl _, fun a => ?_⟩
    · show ((AssocMap.lookupD (d.queueManager.priorityQueue.erase addr) a []).filterMap _).Sublist _
      rw [AssocMap.lookupD_erase]
      split
      · exact List.nil_sublist _
      · exact List.Sublist.refl _
    · show ((AssocMap.lookupD (d.queueManager.inner.erase addr) a []).filterMap _).Sublist _
      rw [AssocMap.lookupD_erase]
      split
      · exact List.nil_sublist _
      · exact List.Sublist.refl _

theorem loses_foldl_retry (attempt : SocketAddr → Nat) (order : List SocketAddr) (d : Dispatcher (DispatchData α)) :
    Loses d (order.foldl (fun d' addr => d'.retry addr (attempt addr)) d) := by
  induction order generalizing d with
  | nil => exact loses_of_eq rfl rfl
  | cons b rest ih => exact (loses_retry (attempt b)).trans (ih _)

theorem loses_foldl_restore (entries : List (Sigma fun _ : SocketAddr => ConnectionState))
    (d : Dispatcher (DispatchData α)) : Loses d (entries.foldl (fun d' e => d'.restore e.1 e.2) d) := by
  induction entries generalizing d with
  | nil => exact loses_of_eq rfl rfl
  | cons e rest ih =>
    refine Loses.trans ?_ (ih _)
    show Loses d (d.restore e.1 e.2)
    unfold restore
    split
    · exact loses_of_eq rfl rfl
    · exact loses_of_eq rfl rfl

/-- Every status but a new connection. -/
theorem loses_onStatus {status : NetworkStatus} (h : ∀ addr id, status ≠ .connectionEstablished addr id) :
    Loses d (d.onStatus status) := by
  cases status with
  | connectionEstablished addr id => exact absurd rfl (h addr id)
  | connectionLost addr id =>
    have hlose : Loses d (d.loseConnection addr id) := loses_of_eq rfl rfl
    exact hlose.trans (loses_send (.closedAck addr) (fun _ _ h => by cases h))
  | connectionClosed addr id =>
    have htrigger : Loses d (d.trigger (.connectionClosed addr id)) := loses_of_eq rfl rfl
    have hsend : Loses d ((d.trigger (.connectionClosed addr id)).send (.closedAck addr)) :=
      htrigger.trans (loses_send (.closedAck addr) (fun _ _ h => by cases h))
    show Loses d (d.connectionClosed addr id)
    unfold connectionClosed
    simp only
    split
    · exact hsend.trans (loses_of_eq rfl rfl)
    · exact hsend.trans (loses_of_eq rfl rfl)
  | criticalNetworkFailure =>
    have hfold := loses_foldl_restore d.connections.entries
      { d.trigger .criticalNetworkFailure with connections := ∅ }
    exact ⟨hfold.returned, fun a => List.nil_sublist _, hfold.backlog⟩
  | _ => exact loses_of_eq rfl rfl

theorem backlog_enqueue {data : DispatchData α} : (d.enqueue addr data).backlog a =
    d.backlog a ++ if a = addr then data.msg?.toList else [] := by
  show (AssocMap.lookupD (d.queueManager.inner.insert addr (d.queueManager.inner.lookupD addr [] ++ [data])) a
    []).filterMap _ = _
  rw [AssocMap.lookupD_insert]
  split
  · subst_vars
    rw [List.filterMap_append]
    exact congrArg _ ((filterMap_cons_toList _ _ _).trans (List.append_nil _))
  · exact (List.append_nil _).symm

/-- Everything that is queued for the address is sent, what was returned first. -/
theorem drainTo_spec (d : Dispatcher (DispatchData α)) (addr a : SocketAddr) :
    (d.drainTo addr).returned a = (if a = addr then [] else d.returned a) ∧
    (d.drainTo addr).backlog a = (if a = addr then [] else d.backlog a) ∧
    sendsTo a (d.drainTo addr).toThread =
      sendsTo a d.toThread ++ if a = addr then d.returned a ++ d.backlog a else [] := by
  have hspec := QueueManager.drain_spec d.queueManager addr
  have hsent : sendsTo a ((d.queueManager.drain addr).1.map (.sendTcp addr)) =
      if a = addr then d.returned a ++ d.backlog a else [] := by
    rw [hspec.1]
    unfold sendsTo
    rw [List.filterMap_map]
    split
    · subst_vars
      refine (List.filterMap_congr (fun x _ => ?_)).trans List.filterMap_append
      exact if_pos rfl
    · rename_i hne
      exact List.filterMap_eq_nil_iff.mpr (fun x _ => if_neg (Ne.symm hne))
  refine ⟨?_, ?_, ?_⟩
  · by_cases ha : a = addr
    · subst ha
      have hnil : (d.queueManager.drain a).2.data a = [] := (hspec.2 a).trans (if_pos rfl)
      rw [if_pos rfl]
      exact congrArg (List.filterMap DispatchData.msg?) (List.append_eq_nil_iff.mp hnil).1
    · rw [if_neg ha]
      exact congrArg (List.filterMap DispatchData.msg?) (QueueManager.drain_others ha).1
  · by_cases ha : a = addr
    · subst ha
      have hnil : (d.queueManager.drain a).2.data a = [] := (hspec.2 a).trans (if_pos rfl)
      rw [if_pos rfl]
      exact congrArg (List.filterMap DispatchData.msg?) (List.append_eq_nil_iff.mp hnil).2
    · rw [if_neg ha]
      exact congrArg (List.filterMap DispatchData.msg?) (QueueManager.drain_others ha).2
  · show sendsTo a (d.toThread ++ (d.queueManager.drain addr).1.map (.sendTcp addr)) = _
    rw [sendsTo_append, hsent]

end Dispatcher

namespace Dispatching

variable {s : Dispatching} {d' : Dispatcher (DispatchData Nat)} {a addr : SocketAddr} {data : DispatchData Nat}

def setDispatcher (s : Dispatching) (dispatcher : Dispatcher (DispatchData Nat)) : Dispatching :=
  { s with sys := { s.sys with dispatcher } }

theorem Tracked.loses (h : s.Tracked) (hl : Dispatcher.Loses s.sys.dispatcher d') : (s.setDispatcher d').Tracked := by
  have hsub : ∀ a, ((s.setDispatcher d').delivery.waiting a).Sublist (s.delivery.waiting a) := by
    intro a
    exact (((hl.returned a).append (List.Sublist.refl _)).append (hl.sends a)).append (hl.backlog a)
  refine ⟨h.inv.shed ⟨rfl, rfl, fun a m => (hsub a).count_le m, fun a => (hsub a).filter _,
    fun _ _ => Nat.le_refl _, fun _ hd => hd⟩, h.bounded, h.known⟩

/-- The dispatcher sends what it has queued for an address. -/
theorem Tracked.drain (h : s.Tracked) (hd : s.DrainsInTurn addr) :
    (s.setDispatcher (s.sys.dispatcher.drainTo addr)).Tracked := by
  have hwait : ∀ a, (s.setDispatcher (s.sys.dispatcher.drainTo addr)).delivery.waiting a =
      if a = addr then rejectedFor a s.sys.thread.toDispatcher ++ (sendsTo a s.sys.dispatcher.toThread ++
        (s.sys.dispatcher.returned a ++ s.sys.dispatcher.backlog a)) else s.delivery.waiting a := by
    intro a
    obtain ⟨hr, hb, hs⟩ := s.sys.dispatcher.drainTo_spec addr a
    show (s.sys.dispatcher.drainTo addr).returned a ++ _ ++ sendsTo a (s.sys.dispatcher.drainTo addr).toThread ++
      (s.sys.dispatcher.drainTo addr).backlog a = _
    rw [hr, hb, hs]
    split
    · rw [List.nil_append, List.append_nil]
      rfl
    · rw [List.append_nil]
      rfl
  refine ⟨h.inv.shed ⟨rfl, rfl, fun a m => ?_, fun a => ?_, fun _ _ => Nat.le_refl _, fun _ hd => hd⟩, h.bounded,
    h.known⟩
  · rw [hwait]
    split
    · unfold delivery
      simp only [List.count_append]
      omega
    · exact Nat.le_refl _
  · rw [hwait]
    split
    · subst_vars
      show (Delivery.fresh s.log _).Sublist (Delivery.fresh s.log (_ ++ _ ++ _ ++ _))
      unfold DrainsInTurn at hd
      rw [Delivery.fresh_append] at hd
      simp only [Delivery.fresh_append]
      rcases hd with hd | hd
      · rw [hd, List.nil_append, List.nil_append, List.append_assoc]
      · obtain ⟨h1, h2⟩ := List.append_eq_nil_iff.mp hd
        rw [h1, h2, List.nil_append, List.nil_append, List.append_nil, List.append_nil]
    · exact List.Sublist.refl _

/-! ## A message is routed -/

def routed (s : Dispatching) (addr : SocketAddr) (dispatcher : Dispatcher (DispatchData Nat)) : Dispatching :=
  ⟨{ s.sys with dispatcher }, s.sent ++ [addr]⟩

/-- The message is the last one that waits, or lost. -/
theorem Tracked.routed (h : s.Tracked)
    (hw : ∀ a, ((s.routed addr d').delivery.waiting a).Sublist ((s.delivery.dispatch addr).waiting a)) :
    (s.routed addr d').Tracked := by
  have hdis : (s.delivery.dispatch addr).Inv := h.inv.dispatch addr
  exact ⟨hdis.shed ⟨rfl, rfl, fun a m => (hw a).count_le m, fun a => (hw a).filter _, fun _ _ => Nat.le_refl _,
    fun _ hd => hd⟩, h.bounded, h.known⟩

theorem waiting_dispatch (a : SocketAddr) : (s.delivery.dispatch addr).waiting a =
    s.delivery.waiting a ++ if a = addr then [s.sent.length] else [] := by
  refine (Function.update_apply _ _ _ _).trans ?_
  split
  · subst_vars; rfl
  · exact (List.append_nil _).symm

theorem Tracked.enqueued (h : s.Tracked) (hm : data.msg? = some s.sent.length) :
    (s.routed addr (s.sys.dispatcher.enqueue addr data)).Tracked := by
  refine h.routed (fun a => ?_)
  rw [waiting_dispatch]
  show (_ ++ _ ++ _ ++ (s.sys.dispatcher.enqueue addr data).backlog a).Sublist _
  rw [Dispatcher.backlog_enqueue, hm, ← List.append_assoc]
  exact List.Sublist.refl _

/-- The message is queued, and then some are lost. -/
theorem Tracked.enqueuedThen (h : s.Tracked) (hm : data.msg? = some s.sent.length)
    (hl : Dispatcher.Loses (s.sys.dispatcher.enqueue addr data) d') : (s.routed addr d').Tracked :=
  (h.enqueued hm).loses hl

theorem drainsInTurn_enqueue (h : s.DrainsInTurn a) :
    (s.routed addr (s.sys.dispatcher.enqueue addr data)).DrainsInTurn a := h

theorem Tracked.route (h : s.Tracked) (hm : data.msg? = some s.sent.length)
    (hturn : s.sys.dispatcher.Connected addr → s.DrainsInTurn addr) :
    (s.routed addr (s.sys.dispatcher.routeRemoteTcp addr data)).Tracked := by
  have hconnect : ∀ r : AssocMap SocketAddr Nat, Dispatcher.Loses (s.sys.dispatcher.enqueue addr data)
      (({ s.sys.dispatcher.enqueue addr data with retryMap := r }.send (.connect addr)).setConnection addr
        .initializing) := by
    intro r
    have hmap : Dispatcher.Loses (s.sys.dispatcher.enqueue addr data)
        { s.sys.dispatcher.enqueue addr data with retryMap := r } := Dispatcher.loses_of_eq rfl rfl
    exact (hmap.trans (Dispatcher.loses_send (.connect addr) (fun _ _ h => by cases h))).trans
      (Dispatcher.loses_of_eq rfl rfl)
  unfold Dispatcher.routeRemoteTcp
  split
  · exact h.enqueuedThen hm (hconnect _)
  · rename_i id hst
    have hc : s.sys.dispatcher.Connected addr := by
      unfold Dispatcher.Connected
      unfold AssocMap.lookupD at hst
      rcases hl : s.sys.dispatcher.connections.lookup addr with _ | st
      · rw [hl] at hst
        cases hst
      · rw [hl] at hst
        obtain rfl : st = .connected id := hst
        rfl
    split
    · exact (h.enqueued hm).drain (drainsInTurn_enqueue (hturn hc))
    · rename_i hnone
      -- nothing is queued, so the message is the last one to be sent
      have hnil : s.sys.dispatcher.queueManager.data addr = [] := by
        by_contra hne
        exact hnone (QueueManager.hasData_iff.mpr hne)
      obtain ⟨hprio, hinner⟩ := List.append_eq_nil_iff.mp hnil
      have hback : s.sys.dispatcher.backlog addr = [] := by
        unfold Dispatcher.backlog
        rw [hinner]
        rfl
      refine h.routed (fun a => ?_)
      rw [waiting_dispatch]
      show (_ ++ _ ++ sendsTo a (s.sys.dispatcher.toThread ++ [DispatchEvent.sendTcp addr data]) ++
        s.sys.dispatcher.backlog a).Sublist (_ ++ _ ++ _ ++ s.sys.dispatcher.backlog a ++ _)
      rw [sendsTo_append, sendsTo_cons, hm]
      split
      · subst_vars
        rw [hback, List.append_nil, List.append_nil, ← List.append_assoc]
        exact List.Sublist.refl _
      · simp only [List.nil_append, List.append_nil]
        rw [show sendsTo a ([] : List (DispatchEvent (DispatchData Nat))) = [] from rfl, List.append_nil]
        exact List.Sublist.refl _
  · exact h.enqueued hm
  · exact h.enqueuedThen hm (hconnect _)
  · exact h.enqueued hm
  · -- the message is dropped
    refine h.routed (fun a => ?_)
    rw [waiting_dispatch]
    exact List.sublist_append_left _ _

/-! ## The dispatcher receives an event -/

theorem Tracked.receive {ev : NetworkDispatcherEvent (DispatchData Nat)}
    {rest : List (NetworkDispatcherEvent (DispatchData Nat))} (h : s.Tracked)
    (hev : s.sys.thread.toDispatcher = ev :: rest)
    (hturn : ∀ addr id, ev = .network (.connectionEstablished addr id) → s.DrainsInTurn addr) :
    Tracked { s with sys := ⟨s.sys.dispatcher.onEvent ev, { s.sys.thread with toDispatcher := rest }⟩ } := by
  cases ev with
  | rejectedData b data =>
    -- the message has come to the end of those that were returned
    have hwait : ∀ a, Delivery.waiting (delivery { s with sys := ⟨s.sys.dispatcher.onEvent (.rejectedData b data),
        { s.sys.thread with toDispatcher := rest }⟩ }) a = s.delivery.waiting a := by
      intro a
      have hret : (s.sys.dispatcher.onEvent (.rejectedData b data)).returned a =
          s.sys.dispatcher.returned a ++ if a = b then data.msg?.toList else [] := by
        show (AssocMap.lookupD (s.sys.dispatcher.queueManager.priorityQueue.insert b _) a []).filterMap _ = _
        rw [AssocMap.lookupD_insert]
        split
        · subst_vars
          rw [List.filterMap_append]
          exact congrArg _ ((filterMap_cons_toList _ _ _).trans (List.append_nil _))
        · exact (List.append_nil _).symm
      show (s.sys.dispatcher.onEvent (.rejectedData b data)).returned a ++ _ ++ _ ++ _ =
        _ ++ rejectedFor a s.sys.thread.toDispatcher ++ _ ++ _
      rw [hret, hev, rejectedFor_cons, List.append_assoc (s.sys.dispatcher.returned a)]
      rfl
    refine ⟨h.inv.shed ⟨rfl, rfl, fun a m => ?_, fun a => ?_, fun _ _ => Nat.le_refl _,
      fun _ hd => ⟨hd.lt, hd.polled, hd.reading, hd.connected⟩⟩, h.bounded, h.known⟩
    · rw [hwait]
    · rw [hwait]
  | network status =>
    -- a status is no message
    have hpop : (s.setThread { s.sys.thread with toDispatcher := rest }).Tracked := by
      refine h.idle rfl (fun a => ?_) (fun _ => List.Sublist.refl _)
        (fun _ hd => ⟨hd.lt, hd.polled, hd.reading, hd.connected⟩) h.bounded (Nat.le_refl _)
      rw [hev]
      rfl
    by_cases hest : ∃ addr id, status = .connectionEstablished addr id
    · obtain ⟨addr, id, rfl⟩ := hest
      have hd : (s.setThread { s.sys.thread with toDispatcher := rest }).DrainsInTurn addr := by
        have ht := hturn addr id rfl
        unfold DrainsInTurn at ht ⊢
        rw [hev] at ht
        exact ht
      have htrigger : Dispatcher.Loses s.sys.dispatcher { s.sys.dispatcher.trigger (.connectionEstablished addr id) with
          retryMap := s.sys.dispatcher.retryMap.erase addr } := Dispatcher.loses_of_eq rfl rfl
      show Tracked { s with sys := ⟨s.sys.dispatcher.connectionEstablished addr id, _⟩ }
      unfold Dispatcher.connectionEstablished
      simp only
      split
      · have hdrained := (hpop.loses htrigger).drain hd
        exact hdrained.loses (Dispatcher.loses_of_eq rfl rfl)
      · exact hpop.loses (htrigger.trans (Dispatcher.loses_of_eq rfl rfl))
    · exact hpop.loses (Dispatcher.loses_onStatus (fun addr id he => hest ⟨addr, id, he⟩))

/-! ## Runs -/

/-- A request becomes an event; a connection that is closed gets rid of its queue first. -/
theorem Tracked.request {req : NetworkStatusRequest} (h : s.Tracked) (ht : s.InTurn (.request req)) :
    (s.setDispatcher (s.sys.dispatcher.handleRequest req)).Tracked := by
  have hsend : ∀ ev, (∀ a data, ev ≠ DispatchEvent.sendTcp a data) →
      (s.setDispatcher (s.sys.dispatcher.send ev)).Tracked := fun ev he => h.loses (Dispatcher.loses_send ev he)
  cases req with
  | disconnectSystem addr =>
    show Tracked (s.setDispatcher (s.sys.dispatcher.closeChannel addr))
    unfold Dispatcher.closeChannel
    split
    · rename_i id hl
      have hc : s.sys.dispatcher.Connected addr := by
        unfold Dispatcher.Connected
        rw [hl]
        rfl
      exact (h.drain (ht hc)).loses (Dispatcher.loses_send (.close addr) (fun _ _ h => by cases h))
    · exact h.loses (Dispatcher.loses_of_eq rfl rfl)
  | connectSystem addr => exact hsend _ (fun _ _ h => by cases h)
  | blockSystem addr => exact hsend _ (fun _ _ h => by cases h)
  | blockIp ip => exact hsend _ (fun _ _ h => by cases h)
  | blockIpNet net => exact hsend _ (fun _ _ h => by cases h)
  | allowSystem addr => exact hsend _ (fun _ _ h => by cases h)
  | allowIp ip => exact hsend _ (fun _ _ h => by cases h)
  | allowIpNet net => exact hsend _ (fun _ _ h => by cases h)

/-- An event that is received does not wait any more. -/
theorem loses_pop {ev : DispatchEvent (DispatchData Nat)} {rest : List (DispatchEvent (DispatchData Nat))}
    (hev : s.sys.dispatcher.toThread = ev :: rest) :
    Dispatcher.Loses s.sys.dispatcher { s.sys.dispatcher with toThread := rest } := by
  refine ⟨fun _ => List.Sublist.refl _, fun a => ?_, fun _ => List.Sublist.refl _⟩
  rw [hev]
  exact (List.sublist_cons_self ev rest).filterMap _

/-- The thread receives the next event: a message is refused, lost or queued. -/
theorem Tracked.deliver {ev : DispatchEvent (DispatchData Nat)} {rest : List (DispatchEvent (DispatchData Nat))} {env : Env}
    (h : s.Tracked) (ht : s.InTurn (.deliver env)) (hev : s.sys.dispatcher.toThread = ev :: rest) :
    (s.afterDelivery rest (s.sys.thread.handleDispatchEvent env ev)).Tracked := by
  by_cases hsend : ∃ addr data, ev = .sendTcp addr data
  · obtain ⟨addr, data, rfl⟩ := hsend
    simp only [InTurn, hev] at ht
    rcases NetworkThread.sendTcpMessage_cases s.sys.thread addr data env with hr | hq | ⟨i, hl, hc, hq⟩
    · exact h.refused hev hr
    · exact (h.loses (loses_pop hev)).passes (.inl hq)
    · refine h.queued hq hev hl hc (ht ?_)
      rw [hl]
      exact hc
  · exact (h.loses (loses_pop hev)).passes
      (.inl (NetworkThread.quiet_handleDispatchEvent (fun addr data he => hsend ⟨addr, data, he⟩)))

theorem Tracked.step {s' : Dispatching} {act : System.Action Nat} (h : s.Tracked) (ht : s.InTurn act)
    (hs : s.step act = some s') : s'.Tracked := by
  cases act with
  | route addr data =>
    simp only [Dispatching.step] at hs
    split at hs
    · rename_i hm
      obtain ⟨sys, hsys, rfl⟩ := Option.map_eq_some_iff.mp hs
      obtain rfl := Option.some.inj hsys
      exact h.route hm ht
    · cases hs
  | tick order =>
    obtain ⟨sys, hsys, rfl⟩ := Option.map_eq_some_iff.mp hs
    obtain ⟨d', hd, rfl⟩ := Option.map_eq_some_iff.mp hsys
    simp only [Dispatcher.step] at hd
    split at hd
    · obtain rfl := Option.some.inj hd
      have hmap : Dispatcher.Loses s.sys.dispatcher { s.sys.dispatcher with retryMap := ∅ } :=
        Dispatcher.loses_of_eq rfl rfl
      exact h.loses (hmap.trans (Dispatcher.loses_foldl_retry _ _ _))
    · cases hd
  | request req =>
    simp only [Dispatching.step] at hs
    obtain ⟨sys, hsys, rfl⟩ := Option.map_eq_some_iff.mp hs
    obtain rfl := Option.some.inj hsys
    exact h.request ht
  | receive =>
    obtain ⟨sys, hsys, rfl⟩ := Option.map_eq_some_iff.mp hs
    simp only [System.step] at hsys
    split at hsys
    · rename_i ev rest hev
      obtain ⟨d', hd, rfl⟩ := Option.map_eq_some_iff.mp hsys
      obtain rfl := Option.some.inj hd
      refine h.receive hev (fun addr id he => ?_)
      subst he
      simp only [InTurn, hev] at ht
      exact ht
    · cases hsys
  | deliver env =>
    obtain ⟨sys, hsys, rfl⟩ := Option.map_eq_some_iff.mp hs
    simp only [System.step] at hsys
    split at hsys
    · rename_i ev rest hev
      obtain ⟨t', ht', rfl⟩ := Option.map_eq_some_iff.mp hsys
      obtain ⟨-, -, rfl⟩ := NetworkThread.receiveDispatch_some ht'
      exact h.deliver ht hev
    · cases hsys
  | network act =>
    obtain ⟨sys, hsys, rfl⟩ := Option.map_eq_some_iff.mp hs
    obtain ⟨t', ht', rfl⟩ := Option.map_eq_some_iff.mp hsys
    exact h.passes (NetworkThread.passes_step ht')

def new (n : Nat) (addr : SocketAddr) (soft hard : Nat) : Dispatching := ⟨.new n addr soft hard, []⟩

theorem tracked_new (n : Nat) (addr : SocketAddr) (soft hard : Nat) : (new n addr soft hard).Tracked :=
  ⟨Delivery.inv_empty 0 (fun _ => rfl) (fun _ => rfl) rfl, (fun a i hl => by cases hl), (fun i m hm => by cases hm)⟩

/-- Messages for one address are queued in the order in which they were routed, unless they were queued before
and handed back; and no message is queued twice on a channel. -/
def QueuedInOrder (s : Dispatching) : Prop :=
  ∀ before i m after, s.sys.thread.history = before ++ .enqueued i (.data m) :: after →
    .enqueued i (.data m) ∉ before ∧
      ((∀ j m', .enqueued j (.data m') ∈ before → s.sent[m']? = s.sent[m]? → m' < m) ∨
        ∃ j, .enqueued j (.data m) ∈ before ∧ .handedBack j (.data m) ∈ before)

theorem msg?_eq_some {f : NetFrame Nat} {m : Nat} (h : f.msg? = some m) : f = .data m := by
  cases f with
  | data m' => exact congrArg _ (Option.some.inj h)
  | _ => cases h

theorem mem_toLog_enqueued {history : List (HistoryEntry Nat)} {i m : Nat} :
    .enqueued i m ∈ history.filterMap toLog ↔ .enqueued i (.data m) ∈ history := by
  rw [List.mem_filterMap]
  constructor
  · rintro ⟨e, he, hm⟩
    cases e with
    | enqueued j f =>
      obtain ⟨m', hm', heq⟩ := Option.map_eq_some_iff.mp hm
      obtain ⟨rfl, rfl⟩ := DeliveryEntry.enqueued.inj heq
      exact msg?_eq_some hm' ▸ he
    | handedBack j f =>
      obtain ⟨m', -, heq⟩ := Option.map_eq_some_iff.mp hm
      cases heq
  · exact fun he => ⟨_, he, rfl⟩

theorem mem_toLog_handedBack {history : List (HistoryEntry Nat)} {i m : Nat} :
    .handedBack i m ∈ history.filterMap toLog ↔ .handedBack i (.data m) ∈ history := by
  rw [List.mem_filterMap]
  constructor
  · rintro ⟨e, he, hm⟩
    cases e with
    | handedBack j f =>
      obtain ⟨m', hm', heq⟩ := Option.map_eq_some_iff.mp hm
      obtain ⟨rfl, rfl⟩ := DeliveryEntry.handedBack.inj heq
      exact msg?_eq_some hm' ▸ he
    | enqueued j f =>
      obtain ⟨m', -, heq⟩ := Option.map_eq_some_iff.mp hm
      cases heq
  · exact fun he => ⟨_, he, rfl⟩

/-- In every run whose steps are in turn, messages are queued in order. -/
theorem queuedInOrder_of_inTurn {n : Nat} {addr : SocketAddr} {soft hard : Nat}
    (h : Reach step InTurn (new n addr soft hard) s) : s.QueuedInOrder := by
  have ht : s.Tracked := Reach.invariant Tracked (tracked_new n addr soft hard) (fun h ht hs => h.step ht hs) h
  intro before i m after heq
  have hlog : s.log = before.filterMap toLog ++ .enqueued i m :: after.filterMap toLog := by
    unfold log
    rw [heq, List.filterMap_append]
    rfl
  obtain ⟨honce, horder⟩ := ht.inv.inOrder _ i m _ hlog
  refine ⟨fun hin => honce (mem_toLog_enqueued.mpr hin), horder.imp (fun ho j m' hj hs => ?_) ?_⟩
  · exact ho j m' (mem_toLog_enqueued.mpr hj) hs
  · rintro ⟨j, h1, h2⟩
    exact ⟨j, mem_toLog_enqueued.mp h1, mem_toLog_handedBack.mp h2⟩

instance (s : Dispatching) (a : SocketAddr) : Decidable (s.DrainsInTurn a) := inferInstanceAs (Decidable (_ ∨ _))

instance (s : Dispatching) (act : System.Action Nat) : Decidable (s.InTurn act) := by
  unfold InTurn
  split
  · infer_instance
  · infer_instance
  · split <;> infer_instance
  · split <;> infer_instance
  · infer_instance

/-- A system that has just been started, for examples. -/
def booted : Dispatching := ⟨System.booted, []⟩

/-- The peer connects to the system; for examples. -/
def reconnecting : List (System.Action Nat) :=
  [.network (.accept (Dispatcher.localhost 1002) { taken := fun _ => 1 }), .network (.beginRead 1),
    .network (.read (.start (Dispatcher.localhost 80) ⟨9⟩) { taken := fun _ => 1 })]

/-- A message is handed back when the connection is lost, and another one is refused; they are sent again on the
next connection. -/
theorem queuedInOrder_of_inTurn_lost :
    let run := System.connecting ++ [.route (Dispatcher.localhost 80) (.lazy 0), .deliver {}, .network (.beginRead 0),
      .network (.resetRead {}), .route (Dispatcher.localhost 80) (.lazy 1), .deliver {}, .receive, .receive, .receive] ++
      reconnecting ++ [.receive, .deliver {}, .deliver {}, .deliver {}]
    ∃ h : (runActions step booted run).isSome, (Option.get _ h).QueuedInOrder ∧
      (Option.get _ h).sys.thread.history = [.enqueued 0 (.data 0), .handedBack 0 (.data 0), .enqueued 1 (.data 0),
        .enqueued 1 (.data 1)] :=
  ⟨by decide, queuedInOrder_of_inTurn (Reach.of_run _ (by decide) (by decide)), by decide⟩

/-- The peer connects again before the dispatcher knows that the connection was lost. The first message was refused
by then, and the second one is queued at once. -/
theorem not_queuedInOrder_reconnected :
    ∃ s, Reach step (fun _ _ => True) booted s ∧
      s.sys.thread.history = [.enqueued 1 (.data 1), .enqueued 1 (.data 0)] ∧ ¬ s.QueuedInOrder := by
  have hrun : Reach step (fun _ _ => True) booted _ := Reach.of_run
    (System.connecting ++ [.network (.beginRead 0), .network (.resetRead {}), .route (Dispatcher.localhost 80) (.lazy 0),
      .deliver {}, .route (Dispatcher.localhost 80) (.lazy 1)] ++ reconnecting ++
      [.deliver {}, .receive, .receive, .receive, .deliver {}, .deliver {}]) (by decide) (runMeets_true _ _)
  refine ⟨_, hrun, by decide, fun h => ?_⟩
  obtain ⟨-, horder⟩ := h [.enqueued 1 (.data 1)] 1 0 [] (by decide)
  rcases horder with horder | ⟨j, -, hback⟩
  · have hlt : 1 < 0 := horder 1 1 (List.mem_singleton_self _) (by decide)
    cases hlt
  · cases List.mem_singleton.mp hback

end Dispatching

end Kompact
