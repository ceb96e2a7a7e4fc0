import Kompact.Framework.Transition
import Kompact.Network.Events
import Kompact.Network.QueueManager

/-!
# The network dispatcher

The part of the dispatcher that keeps track of connections: its view of each
connection (`connections`), the queues of messages that wait for one, and the
addresses it tries to connect to again (`retryMap`). The bridge to the network
thread is running, so that every event sent to it is taken; those that the
thread has not received yet are in `toThread`.

`RetryInv` is the relation between the three. All steps keep it (`RetryInv.step`)
except two: data that is handed back for an address that is connected, and a
`ConnectionDropped` for one that waits for a connection (`Orderly`).
-/

namespace Kompact

structure Dispatcher (α : Type) where
  maxConnectionRetryAttempts : Nat
  connections : AssocMap SocketAddr ConnectionState
  queueManager : QueueManager α
  retryMap : AssocMap SocketAddr Nat
  toThread : List (DispatchEvent α)
  /-- What was triggered on the status port. -/
  statusPort : List NetworkStatus

namespace Dispatcher

variable {α : Type}

def new (maxConnectionRetryAttempts : Nat) : Dispatcher α :=
  ⟨maxConnectionRetryAttempts, ∅, .new, ∅, [], []⟩

def send (d : Dispatcher α) (ev : DispatchEvent α) : Dispatcher α := { d with toThread := d.toThread ++ [ev] }

def trigger (d : Dispatcher α) (status : NetworkStatus) : Dispatcher α :=
  { d with statusPort := d.statusPort ++ [status] }

def setConnection (d : Dispatcher α) (addr : SocketAddr) (state : ConnectionState) : Dispatcher α :=
  { d with connections := d.connections.insert addr state }

/-- Send all that is queued for the address. -/
def drainTo (d : Dispatcher α) (addr : SocketAddr) : Dispatcher α :=
  let (data, queueManager) := d.queueManager.drain addr
  { d with queueManager, toThread := d.toThread ++ data.map (.sendTcp addr) }

def enqueue (d : Dispatcher α) (addr : SocketAddr) (data : α) : Dispatcher α :=
  { d with queueManager := d.queueManager.enqueueData data addr }

/-! ## Messages -/

def routeRemoteTcp (d : Dispatcher α) (addr : SocketAddr) (data : α) : Dispatcher α :=
  match d.connections.lookupD addr .new with
  | .new =>
    let d := { d.enqueue addr data with retryMap := d.retryMap.insert addr 0 }
    (d.send (.connect addr)).setConnection addr .initializing
  | .connected _ =>
    if d.queueManager.hasData addr then (d.enqueue addr data).drainTo addr else d.send (.sendTcp addr data)
  | .initializing => d.enqueue addr data
  | .closed _ =>
    let d := { d.enqueue addr data with retryMap := d.retryMap.orInsert addr 0 }
    (d.send (.connect addr)).setConnection addr .initializing
  | .lost _ => d.enqueue addr data
  | .blocked => d

/-! ## Retries -/

/-- Try to connect again, or give up on the address. -/
def retry (d : Dispatcher α) (addr : SocketAddr) (attempt : Nat) : Dispatcher α :=
  if attempt < d.maxConnectionRetryAttempts then
    { d with retryMap := d.retryMap.insert addr (attempt + 1) }.send (.connect addr)
  else
    { d with
      queueManager := d.queueManager.dropQueue addr
      connections := d.connections.erase addr }.trigger (.connectionDropped addr)

/-- `schedule_retries`; `order` are the addresses of the retry map in the
order in which the loop visits them. -/
def scheduleRetries (d : Dispatcher α) (order : List SocketAddr) : Dispatcher α :=
  order.foldl (fun d' addr => d'.retry addr (d.retryMap.lookupD addr 0)) { d with retryMap := ∅ }

/-! ## Events of the network thread -/

def connectionEstablished (d : Dispatcher α) (addr : SocketAddr) (id : SessionId) : Dispatcher α :=
  let d := { d.trigger (.connectionEstablished addr id) with retryMap := d.retryMap.erase addr }
  (if d.queueManager.hasData addr then d.drainTo addr else d).setConnection addr (.connected id)

def connectionClosed (d : Dispatcher α) (addr : SocketAddr) (id : SessionId) : Dispatcher α :=
  let d := ((d.trigger (.connectionClosed addr id)).send (.closedAck addr)).setConnection addr (.closed id)
  if d.queueManager.hasData addr then { d with retryMap := d.retryMap.insert addr 0 } else d

/-- `connection_lost` where there is no bridge to acknowledge it to. -/
def loseConnection (d : Dispatcher α) (addr : SocketAddr) (id : SessionId) : Dispatcher α :=
  ({ d with retryMap := d.retryMap.orInsert addr 0 }.trigger (.connectionLost addr id)).setConnection addr (.lost id)

def connectionLost (d : Dispatcher α) (addr : SocketAddr) (id : SessionId) : Dispatcher α :=
  (d.loseConnection addr id).send (.closedAck addr)

/-- Put an entry that was taken out of `connections` back, as lost if it was connected. -/
def restore (d : Dispatcher α) (addr : SocketAddr) : ConnectionState → Dispatcher α
  | .connected id => d.loseConnection addr id
  | state => d.setConnection addr state

/-- `handle_network_failure`: a new bridge is started, and what was sent to the old one is lost. -/
def handleNetworkFailure (d : Dispatcher α) : Dispatcher α :=
  let d := d.trigger .criticalNetworkFailure
  let d := d.connections.entries.foldl (fun d' e => d'.restore e.1 e.2) { d with connections := ∅ }
  { d with toThread := [] }

def onStatus (d : Dispatcher α) : NetworkStatus → Dispatcher α
  | .connectionEstablished addr id => d.connectionEstablished addr id
  | .connectionLost addr id => d.connectionLost addr id
  | .connectionClosed addr id => d.connectionClosed addr id
  | .connectionDropped addr =>
    { d with retryMap := d.retryMap.erase addr }.trigger (.connectionDropped addr)
  | .blockedSystem addr => (d.setConnection addr .blocked).trigger (.blockedSystem addr)
  | .allowedSystem addr =>
    { d with connections := d.connections.erase addr }.trigger (.allowedSystem addr)
  | .criticalNetworkFailure => d.handleNetworkFailure
  | status => d.trigger status

def onEvent (d : Dispatcher α) : NetworkDispatcherEvent α → Dispatcher α
  | .network status => d.onStatus status
  | .rejectedData addr data =>
    { d with
      queueManager := d.queueManager.enqueuePriorityData data addr
      retryMap := d.retryMap.orInsert addr 0 }

/-! ## Requests -/

def closeChannel (d : Dispatcher α) (addr : SocketAddr) : Dispatcher α :=
  match d.connections.lookup addr with
  | some (.connected _) => (d.drainTo addr).send (.close addr)
  | _ => d

def handleRequest (d : Dispatcher α) : NetworkStatusRequest → Dispatcher α
  | .disconnectSystem addr => d.closeChannel addr
  | .connectSystem addr => d.send (.connect addr)
  | .blockSystem addr => d.send (.blockSocket addr)
  | .blockIp ip => d.send (.blockIpAddr ip)
  | .blockIpNet net => d.send (.blockIpNet net)
  | .allowSystem addr => d.send (.allowSocket addr)
  | .allowIp ip => d.send (.allowIpAddr ip)
  | .allowIpNet net => d.send (.allowIpNet net)

/-! ## Steps -/

inductive Action (α : Type) where
  | route (addr : SocketAddr) (data : α)
  | tick (order : List SocketAddr)
  | event (ev : NetworkDispatcherEvent α)
  | request (req : NetworkStatusRequest)
  deriving DecidableEq, Repr

/-- One step of the dispatcher. A tick visits every address of the retry map. -/
def step (d : Dispatcher α) : Action α → Option (Dispatcher α)
  | .route addr data => some (d.routeRemoteTcp addr data)
  | .tick order => if order.Perm d.retryMap.keys then some (d.scheduleRetries order) else none
  | .event ev => some (d.onEvent ev)
  | .request req => some (d.handleRequest req)

/-! ## The three parts, address by address -/

/-- The address is connected, in the view of the dispatcher. -/
def Connected (d : Dispatcher α) (addr : SocketAddr) : Prop :=
  (d.connections.lookup addr).any ConnectionState.isConnected = true

/-- A connection to the address is expected. -/
def Waiting (d : Dispatcher α) (addr : SocketAddr) : Prop :=
  (d.connections.lookup addr).any ConnectionState.isWaiting = true

instance (d : Dispatcher α) (addr : SocketAddr) : Decidable (d.Connected addr) := inferInstanceAs (Decidable (_ = _))

instance (d : Dispatcher α) (addr : SocketAddr) : Decidable (d.Waiting addr) := inferInstanceAs (Decidable (_ = _))

/-- The relation between the view of a connection, whether it is tried again,
and what is queued for it. -/
structure Sound (conn : Option ConnectionState) (retrying : Prop) (queued : List α) : Prop where
  connected : conn.any ConnectionState.isConnected = true → ¬ retrying ∧ queued = []
  waiting : conn.any ConnectionState.isWaiting = true → retrying
  queued : queued ≠ [] → conn.any ConnectionState.isConnected = true ∨ retrying

def RetryInv (d : Dispatcher α) (a : SocketAddr) : Prop :=
  Sound (d.connections.lookup a) (a ∈ d.retryMap) (d.queueManager.data a)

/-- No data comes back for an address that is connected, and none is dropped
that waits for a connection or has data queued. -/
def Orderly (d : Dispatcher α) : Action α → Prop
  | .event (.rejectedData addr _) => ¬ d.Connected addr
  | .event (.network (.connectionDropped addr)) => ¬ d.Waiting addr ∧ d.queueManager.hasData addr = false
  | _ => True

instance (d : Dispatcher α) (a : Action α) : Decidable (d.Orderly a) := by
  unfold Orderly
  split <;> infer_instance

variable {d : Dispatcher α} {a addr : SocketAddr} {data : α} {id : SessionId}

theorem RetryInv.congr {d' : Dispatcher α} (h : d.RetryInv a) (hc : d'.connections.lookup a = d.connections.lookup a)
    (hr : a ∈ d'.retryMap ↔ a ∈ d.retryMap) (hq : d'.queueManager.data a = d.queueManager.data a) :
    d'.RetryInv a := by
  unfold RetryInv
  rw [hc, hq, propext hr]
  exact h

theorem lookup_insert_ne (m : AssocMap SocketAddr ConnectionState) {state : ConnectionState} (h : a ≠ addr) :
    (m.insert addr state).lookup a = m.lookup a := by
  rw [AssocMap.lookup_insert, if_neg h]

theorem lookup_insert_self (m : AssocMap SocketAddr ConnectionState) {state : ConnectionState} :
    (m.insert addr state).lookup addr = some state := by
  rw [AssocMap.lookup_insert, if_pos rfl]

theorem lookup_setConnection {state : ConnectionState} :
    (d.setConnection addr state).connections.lookup a = if a = addr then some state else d.connections.lookup a :=
  AssocMap.lookup_insert _ _ _ _

theorem data_enqueue : (d.enqueue addr data).queueManager.data a =
    if a = addr then d.queueManager.data a ++ [data] else d.queueManager.data a :=
  QueueManager.data_enqueueData

theorem data_drainTo : (d.drainTo addr).queueManager.data a = if a = addr then [] else d.queueManager.data a :=
  (QueueManager.drain_spec d.queueManager addr).2 a

/-- The address is not connected and will be tried again. -/
theorem sound_of_retrying {conn : Option ConnectionState} {retrying : Prop} {queued : List α} (hr : retrying)
    (hc : ¬ conn.any ConnectionState.isConnected = true) : Sound conn retrying queued :=
  ⟨fun h => absurd h hc, fun _ => hr, fun _ => .inr hr⟩

/-- There is no connection and nothing is queued. -/
theorem sound_of_absent {conn : Option ConnectionState} {retrying : Prop} {queued : List α} (hc : conn = none)
    (hq : queued = []) : Sound conn retrying queued := by
  subst hc
  exact ⟨(fun h => by cases h), (fun h => by cases h), fun h => absurd hq h⟩

theorem RetryInv.enqueue (h : d.RetryInv a) (hc : ¬ d.Connected addr) (hr : addr ∈ d.retryMap) :
    (d.enqueue addr data).RetryInv a := by
  by_cases hne : a = addr
  · subst hne
    exact sound_of_retrying hr hc
  · exact h.congr rfl Iff.rfl (by rw [data_enqueue, if_neg hne])

theorem RetryInv.routeRemoteTcp (h : ∀ a, d.RetryInv a) (a : SocketAddr) :
    (d.routeRemoteTcp addr data).RetryInv a := by
  have hlook : ∀ st, d.connections.lookupD addr .new = st → st ≠ .new → d.connections.lookup addr = some st := by
    intro st hst hne
    unfold AssocMap.lookupD at hst
    rcases hl : d.connections.lookup addr with _ | st'
    · rw [hl] at hst; exact absurd hst.symm hne
    · rw [hl] at hst; exact congrArg some hst
  have hconnect : ∀ (r : AssocMap SocketAddr Nat), (∀ a, a ∈ r ↔ a = addr ∨ a ∈ d.retryMap) →
      (({ d.enqueue addr data with retryMap := r }.send (.connect addr)).setConnection addr .initializing).RetryInv a := by
    intro r hr
    by_cases hne : a = addr
    · subst hne
      refine sound_of_retrying ((hr a).mpr (.inl rfl)) ?_
      show ¬ ((d.connections.insert a .initializing).lookup a).any _ = true
      rw [lookup_insert_self]
      decide
    · refine (h a).congr (lookup_insert_ne _ hne) ?_ (by exact data_enqueue.trans (if_neg hne))
      exact (hr a).trans ⟨fun h => h.resolve_left hne, .inr⟩
  unfold Dispatcher.routeRemoteTcp
  split
  · exact hconnect _ (fun a => AList.mem_insert _)
  · rename_i id hst
    have hc : d.Connected addr := by
      unfold Connected
      rw [hlook _ hst (by simp)]
      rfl
    split
    · rename_i hd
      exact absurd ((h addr).connected hc).2 (QueueManager.hasData_iff.mp hd)
    · exact h a
  · rename_i hst
    have hl := hlook _ hst (by simp)
    exact (h a).enqueue (by unfold Connected; rw [hl]; decide) ((h addr).waiting (by rw [hl]; rfl))
  · exact hconnect _ (fun a => AssocMap.mem_orInsert _ _ _ _)
  · rename_i id hst
    have hl := hlook _ hst (by simp)
    exact (h a).enqueue (by unfold Connected; rw [hl]; exact Bool.false_ne_true) ((h addr).waiting (by rw [hl]; rfl))
  · exact h a

/-! ## Retries -/

theorem retry_ne (h : a ≠ addr) (n : Nat) :
    (d.retry addr n).connections.lookup a = d.connections.lookup a ∧
      (a ∈ (d.retry addr n).retryMap ↔ a ∈ d.retryMap) ∧
      (d.retry addr n).queueManager.data a = d.queueManager.data a := by
  unfold retry
  split
  · exact ⟨rfl, (AList.mem_insert _).trans ⟨fun h' => h'.resolve_left h, .inr⟩, rfl⟩
  · refine ⟨?_, Iff.rfl, ?_⟩
    · exact (AssocMap.lookup_erase _ _ _).trans (if_neg h)
    · exact QueueManager.data_dropQueue.trans (if_neg h)

/-- The loop leaves the addresses alone that it does not visit. -/
theorem foldl_retry_not_mem (attempt : SocketAddr → Nat) {order : List SocketAddr} (h : a ∉ order) (d : Dispatcher α) :
    (order.foldl (fun d' addr => d'.retry addr (attempt addr)) d).connections.lookup a = d.connections.lookup a ∧
      (a ∈ (order.foldl (fun d' addr => d'.retry addr (attempt addr)) d).retryMap ↔ a ∈ d.retryMap) ∧
      (order.foldl (fun d' addr => d'.retry addr (attempt addr)) d).queueManager.data a = d.queueManager.data a := by
  induction order generalizing d with
  | nil => exact ⟨rfl, Iff.rfl, rfl⟩
  | cons b rest ih =>
    obtain ⟨hne, hrest⟩ := not_or.mp (List.mem_cons.not.mp h)
    obtain ⟨h1, h2, h3⟩ := ih hrest (d.retry b (attempt b))
    obtain ⟨g1, g2, g3⟩ := retry_ne (d := d) hne (attempt b)
    exact ⟨h1.trans g1, h2.trans g2, h3.trans g3⟩

/-- An address that is visited is tried again, or given up with its queue. -/
theorem foldl_retry_mem (attempt : SocketAddr → Nat) {order : List SocketAddr} (hn : order.Nodup) (h : a ∈ order)
    (d : Dispatcher α) :
    let d' := order.foldl (fun d' addr => d'.retry addr (attempt addr)) d
    (a ∈ d'.retryMap ∧ d'.connections.lookup a = d.connections.lookup a ∧
        d'.queueManager.data a = d.queueManager.data a) ∨
      (d'.connections.lookup a = none ∧ d'.queueManager.data a = []) := by
  induction order generalizing d with
  | nil => cases h
  | cons b rest ih =>
    obtain ⟨hb, hrest⟩ := List.nodup_cons.mp hn
    by_cases hab : a = b
    · subst hab
      -- the rest of the loop does not visit it again
      obtain ⟨h1, h2, h3⟩ := foldl_retry_not_mem attempt hb (d.retry a (attempt a))
      by_cases hlt : attempt a < d.maxConnectionRetryAttempts
      · refine .inl ⟨h2.mpr ?_, h1.trans ?_, h3.trans ?_⟩ <;> unfold retry <;> rw [if_pos hlt]
        · exact (AList.mem_insert _).mpr (.inl rfl)
        · rfl
        · rfl
      · refine .inr ⟨h1.trans ?_, h3.trans ?_⟩ <;> unfold retry <;> rw [if_neg hlt]
        · exact AList.lookup_erase _ _
        · exact QueueManager.data_dropQueue.trans (if_pos rfl)
    · have hmem : a ∈ rest := (List.mem_cons.mp h).resolve_left hab
      obtain ⟨g1, -, g3⟩ := retry_ne (d := d) hab (attempt b)
      rcases ih hrest hmem (d.retry b (attempt b)) with ⟨h1, h2, h3⟩ | h'
      · exact .inl ⟨h1, h2.trans g1, h3.trans g3⟩
      · exact .inr h'

theorem RetryInv.scheduleRetries {order : List SocketAddr} (ho : order.Perm d.retryMap.keys) (h : d.RetryInv a) :
    (d.scheduleRetries order).RetryInv a := by
  by_cases ha : a ∈ d.retryMap
  · have hn : order.Nodup := ho.nodup_iff.mpr d.retryMap.keys_nodup
    have hmem : a ∈ order := ho.mem_iff.mpr ha
    rcases foldl_retry_mem (fun addr => d.retryMap.lookupD addr 0) hn hmem { d with retryMap := ∅ } with
      ⟨h1, h2, h3⟩ | ⟨h2, h3⟩
    · refine sound_of_retrying h1 (fun hc => ?_)
      exact (h.connected (h2 ▸ hc)).1 ha
    · exact sound_of_absent h2 h3
  · have hmem : a ∉ order := fun hm => ha (ho.mem_iff.mp hm)
    obtain ⟨h1, h2, h3⟩ := foldl_retry_not_mem (fun addr => d.retryMap.lookupD addr 0) hmem { d with retryMap := ∅ }
    exact h.congr h1 (h2.trans ⟨fun h' => absurd h' (AList.notMem_empty a), fun h' => absurd h' ha⟩) h3

/-- A tick leaves the connections alone that are live. -/
theorem RetryInv.live {order : List SocketAddr} (ho : order.Perm d.retryMap.keys) (h : d.RetryInv a)
    (hc : d.Connected a) :
    (d.scheduleRetries order).connections.lookup a = d.connections.lookup a ∧
      (d.scheduleRetries order).queueManager.data a = d.queueManager.data a := by
  have hmem : a ∉ order := fun hm => (h.connected hc).1 (ho.mem_iff.mp hm)
  obtain ⟨h1, -, h3⟩ := foldl_retry_not_mem (fun addr => d.retryMap.lookupD addr 0) hmem { d with retryMap := ∅ }
  exact ⟨h1, h3⟩

/-! ## Events and requests -/

theorem RetryInv.drainTo (h : d.RetryInv a) : (d.drainTo addr).RetryInv a := by
  by_cases hne : a = addr
  · subst hne
    have hq : (d.drainTo a).queueManager.data a = [] := data_drainTo.trans (if_pos rfl)
    exact ⟨fun hc => ⟨(h.connected hc).1, hq⟩, h.waiting, fun h' => absurd hq h'⟩
  · exact h.congr rfl Iff.rfl (data_drainTo.trans (if_neg hne))

theorem RetryInv.connectionEstablished (h : d.RetryInv a) : (d.connectionEstablished addr id).RetryInv a := by
  unfold Dispatcher.connectionEstablished
  simp only
  by_cases hne : a = addr
  · subst hne
    have hmem : a ∉ d.retryMap.erase a := fun hm => (AList.mem_erase.mp hm).1 rfl
    have hconn : ∀ d' : Dispatcher α, a ∉ d'.retryMap → d'.queueManager.data a = [] →
        (d'.setConnection a (.connected id)).RetryInv a := fun d' hr hq =>
      ⟨fun _ => ⟨hr, hq⟩, (fun hw => by rw [lookup_setConnection, if_pos rfl] at hw; cases hw), fun hq' => absurd hq hq'⟩
    split
    · exact hconn _ hmem (data_drainTo.trans (if_pos rfl))
    · rename_i hd
      refine hconn _ hmem ?_
      by_contra hq
      exact hd (QueueManager.hasData_iff.mpr hq)
  · have hother : ∀ d' : Dispatcher α, d'.RetryInv a → (d'.setConnection addr (.connected id)).RetryInv a :=
      fun d' h' => h'.congr (lookup_insert_ne _ hne) Iff.rfl rfl
    have herase : a ∈ d.retryMap.erase addr ↔ a ∈ d.retryMap :=
      AList.mem_erase.trans ⟨And.right, fun hm => ⟨hne, hm⟩⟩
    split
    · refine hother _ (RetryInv.drainTo ?_)
      exact h.congr rfl herase rfl
    · exact hother _ (h.congr rfl herase rfl)

theorem RetryInv.connectionClosed (h : d.RetryInv a) : (d.connectionClosed addr id).RetryInv a := by
  unfold Dispatcher.connectionClosed
  simp only
  by_cases hne : a = addr
  · subst hne
    have hc : ¬ ((d.connections.insert a (.closed id)).lookup a).any ConnectionState.isConnected = true := by
      rw [lookup_insert_self]; exact Bool.false_ne_true
    split
    · exact sound_of_retrying ((AList.mem_insert _).mpr (.inl rfl)) hc
    · rename_i hd
      refine ⟨fun h' => absurd h' hc, fun hw => ?_, fun hq => absurd (QueueManager.hasData_iff.mpr hq) hd⟩
      exact absurd (show ((d.connections.insert a (.closed id)).lookup a).any ConnectionState.isWaiting = true from hw)
        (by rw [lookup_insert_self]; exact Bool.false_ne_true)
  · have hclosed : d.connections.lookup a = (d.connections.insert addr (.closed id)).lookup a :=
      (lookup_insert_ne _ hne).symm
    split
    · exact h.congr hclosed.symm ((AList.mem_insert _).trans ⟨fun h' => h'.resolve_left hne, .inr⟩) rfl
    · exact h.congr hclosed.symm Iff.rfl rfl

theorem RetryInv.loseConnection (h : d.RetryInv a) : (d.loseConnection addr id).RetryInv a := by
  by_cases hne : a = addr
  · subst hne
    refine sound_of_retrying ((AssocMap.mem_orInsert _ _ _ _).mpr (.inl rfl)) ?_
    show ¬ ((d.connections.insert a (.lost id)).lookup a).any ConnectionState.isConnected = true
    rw [lookup_insert_self]
    exact Bool.false_ne_true
  · exact h.congr (lookup_insert_ne _ hne)
      ((AssocMap.mem_orInsert _ _ _ _).trans ⟨fun h' => h'.resolve_left hne, .inr⟩) rfl

/-- The network failed: what was connected is lost and tried again. -/
theorem RetryInv.foldl_restore (es : List (Sigma fun _ : SocketAddr => ConnectionState)) (hn : es.NodupKeys)
    (d : Dispatcher α) (h : d.RetryInv a)
    (hes : ∀ st, es.dlookup a = some st → st.isConnected = false →
      Sound (some st) (a ∈ d.retryMap) (d.queueManager.data a)) :
    (es.foldl (fun d' e => d'.restore e.1 e.2) d).RetryInv a := by
  induction es generalizing d with
  | nil => exact h
  | cons e rest ih =>
    obtain ⟨b, st⟩ := e
    obtain ⟨hb, hrest⟩ := List.nodupKeys_cons.mp hn
    rw [List.foldl_cons]
    by_cases hab : a = b
    · subst hab
      have hnone : rest.dlookup a = none := List.dlookup_eq_none.mpr hb
      refine ih hrest _ ?_ (fun st' hst' => by rw [hnone] at hst'; cases hst')
      by_cases hst : st.isConnected = true
      · cases st <;> first | exact h.loseConnection | cases hst
      · have hset : d.restore a st = d.setConnection a st := by
          cases st <;> first | rfl | exact absurd rfl hst
        rw [hset]
        unfold RetryInv
        rw [lookup_setConnection, if_pos rfl]
        exact hes st (List.dlookup_cons_eq ..) (by simpa using hst)
    · have hother : (d.restore b st).RetryInv a ∧ (a ∈ (d.restore b st).retryMap ↔ a ∈ d.retryMap) ∧
          (d.restore b st).queueManager = d.queueManager := by
        cases st with
        | connected id =>
          exact ⟨h.loseConnection, (AssocMap.mem_orInsert _ _ _ _).trans ⟨fun h' => h'.resolve_left hab, .inr⟩, rfl⟩
        | _ => exact ⟨h.congr (lookup_insert_ne _ hab) Iff.rfl rfl, Iff.rfl, rfl⟩
      obtain ⟨h1, h2, h3⟩ := hother
      refine ih hrest _ h1 (fun st' hst' hc => ?_)
      rw [propext h2, h3]
      exact hes st' ((List.dlookup_cons_ne _ _ hab).trans hst') hc

theorem RetryInv.handleNetworkFailure (h : d.RetryInv a) : d.handleNetworkFailure.RetryInv a := by
  have hfold : (d.connections.entries.foldl (fun (d' : Dispatcher α) e => d'.restore e.1 e.2)
      { d.trigger .criticalNetworkFailure with connections := ∅ }).RetryInv a := by
    refine RetryInv.foldl_restore _ d.connections.nodupKeys _ ?_ (fun st hst hc => ?_)
    · refine ⟨(fun hc => by cases hc), (fun hw => by cases hw), fun hq => ?_⟩
      rcases h.queued hq with hc | hr
      · exact absurd (h.connected hc).2 hq
      · exact .inr hr
    · have hl : d.connections.lookup a = some st := hst
      rw [← hl]
      exact h
  exact hfold.congr rfl Iff.rfl rfl

/-- The entry is blocked or removed. -/
theorem RetryInv.replace {d' : Dispatcher α} (h : d.RetryInv a) (hr : d'.retryMap = d.retryMap)
    (hq : d'.queueManager = d.queueManager)
    (hc : d'.connections.lookup a = d.connections.lookup a ∨ d'.connections.lookup a = some .blocked ∨
      d'.connections.lookup a = none) : d'.RetryInv a := by
  unfold RetryInv
  rw [hr, hq]
  have hqueued : d.queueManager.data a ≠ [] → a ∈ d.retryMap := fun hd =>
    (h.queued hd).resolve_left (fun hc' => hd (h.connected hc').2)
  rcases hc with hc | hc | hc
  · rw [hc]; exact h
  · rw [hc]; exact ⟨(fun h' => by cases h'), (fun h' => by cases h'), fun hd => .inr (hqueued hd)⟩
  · rw [hc]; exact ⟨(fun h' => by cases h'), (fun h' => by cases h'), fun hd => .inr (hqueued hd)⟩

theorem RetryInv.onStatus {status : NetworkStatus} (h : d.RetryInv a)
    (ho : d.Orderly (.event (.network status))) : (d.onStatus status).RetryInv a := by
  cases status with
  | connectionEstablished addr id => exact h.connectionEstablished
  | connectionLost addr id =>
    have hlost : (d.loseConnection addr id).RetryInv a := h.loseConnection
    exact hlost.congr rfl Iff.rfl rfl
  | connectionClosed addr id => exact h.connectionClosed
  | connectionDropped addr =>
    by_cases hne : a = addr
    · subst hne
      have hq : d.queueManager.data a = [] := by
        by_contra hq
        have := QueueManager.hasData_iff.mpr hq
        rw [ho.2] at this
        cases this
      refine ⟨fun hc => ⟨fun hm => (AList.mem_erase.mp hm).1 rfl, hq⟩, fun hw => absurd hw ho.1, fun hq' => absurd hq hq'⟩
    · exact h.congr rfl (AList.mem_erase.trans ⟨And.right, fun hm => ⟨hne, hm⟩⟩) rfl
  | blockedSystem addr =>
    refine h.replace rfl rfl ?_
    by_cases hne : a = addr
    · exact .inr (.inl (lookup_setConnection.trans (if_pos hne)))
    · exact .inl (lookup_setConnection.trans (if_neg hne))
  | allowedSystem addr =>
    refine h.replace rfl rfl ?_
    by_cases hne : a = addr
    · exact .inr (.inr ((AssocMap.lookup_erase _ _ _).trans (if_pos hne)))
    · exact .inl ((AssocMap.lookup_erase _ _ _).trans (if_neg hne))
  | criticalNetworkFailure => exact h.handleNetworkFailure
  | _ => exact h.congr rfl Iff.rfl rfl

theorem RetryInv.rejectedData (h : d.RetryInv a) (hc : ¬ d.Connected addr) :
    (d.onEvent (.rejectedData addr data)).RetryInv a := by
  by_cases hne : a = addr
  · subst hne
    exact sound_of_retrying ((AssocMap.mem_orInsert _ _ _ _).mpr (.inl rfl)) hc
  · refine h.congr rfl ((AssocMap.mem_orInsert _ _ _ _).trans ⟨fun h' => h'.resolve_left hne, .inr⟩) ?_
    exact QueueManager.data_enqueuePriorityData.trans (if_neg hne)

theorem RetryInv.handleRequest {req : NetworkStatusRequest} (h : d.RetryInv a) : (d.handleRequest req).RetryInv a := by
  cases req with
  | disconnectSystem addr =>
    unfold Dispatcher.handleRequest Dispatcher.closeChannel
    simp only
    split
    · have hdrained : (d.drainTo addr).RetryInv a := h.drainTo
      exact hdrained.congr rfl Iff.rfl rfl
    · exact h
  | _ => exact h.congr rfl Iff.rfl rfl

theorem RetryInv.step {d' : Dispatcher α} {act : Action α} (h : ∀ a, d.RetryInv a) (ho : d.Orderly act)
    (hs : d.step act = some d') (a : SocketAddr) : d'.RetryInv a := by
  cases act with
  | route addr data => obtain rfl := Option.some.inj hs; exact RetryInv.routeRemoteTcp h a
  | tick order =>
    simp only [Dispatcher.step] at hs
    split at hs
    · obtain rfl := Option.some.inj hs; exact (h a).scheduleRetries ‹_›
    · cases hs
  | event ev =>
    obtain rfl := Option.some.inj hs
    cases ev with
    | network status => exact (h a).onStatus ho
    | rejectedData addr data => exact (h a).rejectedData ho
  | request req => obtain rfl := Option.some.inj hs; exact (h a).handleRequest

/-! ## No retry of a live connection, and nothing queued for nobody -/

/-- A connection that is live is not in the retry map, so that a tick leaves
it alone; and what is queued has a connection or a pending attempt at one. -/
structure Retries (d : Dispatcher α) : Prop where
  live : ∀ addr, d.Connected addr → addr ∉ d.retryMap
  tick : ∀ addr order, d.Connected addr → order.Perm d.retryMap.keys →
    (d.scheduleRetries order).connections.lookup addr = d.connections.lookup addr ∧
      (d.scheduleRetries order).queueManager.data addr = d.queueManager.data addr
  queued : ∀ addr, d.queueManager.hasData addr = true → d.Connected addr ∨ addr ∈ d.retryMap

/-- In every run of orderly steps the retry map, the connections and the queues agree. -/
theorem retries_of_orderly {n : Nat} (h : Reach step Orderly (new n) d) : d.Retries := by
  have hinv : ∀ a, d.RetryInv a := by
    refine Reach.invariant (fun d => ∀ a, d.RetryInv a) (fun a => ?_) (fun h ho hs => RetryInv.step h ho hs) h
    exact sound_of_absent rfl rfl
  refine ⟨fun addr hc => ((hinv addr).connected hc).1, fun addr order hc ho => (hinv addr).live ho hc, fun addr hd => ?_⟩
  exact (hinv addr).queued (QueueManager.hasData_iff.mp hd)

/-- An address for examples, with the given port. -/
def localhost (port : Nat) : SocketAddr := .v4 0x7F000001#32 (BitVec.ofNat 16 port)

/-- A message is queued, sent when the connection is there, and handed back when it is lost. -/
theorem retries_of_orderly_lost :
    let run : List (Action Nat) := [.route (localhost 80) 1, .tick [localhost 80],
      .event (.network (.connectionEstablished (localhost 80) ⟨7⟩)), .route (localhost 80) 2,
      .event (.network (.connectionLost (localhost 80) ⟨7⟩)), .event (.rejectedData (localhost 80) 2)]
    ∃ h : (runActions step (new 10) run).isSome, (Option.get _ h).Retries :=
  ⟨by decide, retries_of_orderly (Reach.of_run _ (by decide) (by decide))⟩

/-- Data handed back while the address is connected makes a tick give up on it
after some attempts; and where a connection is dropped before it was
established, its messages stay behind. -/
theorem not_retries_rejected_and_dropped :
    (∃ d : Dispatcher Nat, Reach step (fun _ _ => True) (new 0) d ∧ d.Connected (localhost 80) ∧
      localhost 80 ∈ d.retryMap ∧ (d.scheduleRetries [localhost 80]).connections.lookup (localhost 80) = none) ∧
    ∃ d : Dispatcher Nat, Reach step (fun _ _ => True) (new 10) d ∧ d.queueManager.hasData (localhost 80) = true ∧
      ¬ d.Connected (localhost 80) ∧ localhost 80 ∉ d.retryMap := by
  refine ⟨⟨_, Reach.of_run [.event (.network (.connectionEstablished (localhost 80) ⟨7⟩)),
    .event (.rejectedData (localhost 80) 1)] (by decide) (runMeets_true _ _), by decide, by decide, by decide⟩, ?_⟩
  exact ⟨_, Reach.of_run [.route (localhost 80) 1, .event (.network (.connectionDropped (localhost 80)))]
    (by decide) (runMeets_true _ _), by decide, by decide, by decide⟩

end Dispatcher

end Kompact
