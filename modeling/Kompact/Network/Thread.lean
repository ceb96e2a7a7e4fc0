import Kompact.Framework.AssocMap
import Kompact.Network.Channel

/-!
# The network thread

The TCP part of the network thread: the channels, by token; the address under
which a channel is registered (`addressMap`); and the channels that are polled,
the one used last first (`tokenMap`). A channel that is lost or closed is not
polled any more but stays registered until the dispatcher acknowledges it.

One action is the handling of one event. Reading a channel is a loop over the
frames that have arrived, and the channel is borrowed until the loop ends
(`reading`); no other event is handled meanwhile. What the environment decides
is given with the action (`Env`). `step` is undefined where the code panics,
most of all where a channel is borrowed twice. The thread is neither stopped
nor killed.

What every part of an event keeps, the event keeps (`KeptByParts`).
-/

namespace Kompact

/-! ## The block list -/

structure BlockList where
  ipSet : IpAddr → Bool
  blockedSocketAddr : List SocketAddr
  allowedSocketAddr : List SocketAddr

namespace BlockList

def new : BlockList := ⟨fun _ => false, [], []⟩

def blockIpNet (b : BlockList) (net : IpNet) : BlockList :=
  { b with ipSet := fun ip => net.contains ip || b.ipSet ip }

def allowIpNet (b : BlockList) (net : IpNet) : BlockList :=
  { b with ipSet := fun ip => !net.contains ip && b.ipSet ip }

/-- Whether the rules have been modified, and the new ones. -/
def blockIpAddr (b : BlockList) (ipAddr : IpAddr) : Bool × BlockList :=
  if b.ipSet ipAddr then (false, b) else (true, { b with ipSet := fun ip => ip = ipAddr || b.ipSet ip })

def allowIpAddr (b : BlockList) (ipAddr : IpAddr) : Bool × BlockList :=
  if b.ipSet ipAddr then (true, { b with ipSet := fun ip => ip ≠ ipAddr && b.ipSet ip }) else (false, b)

def blockSocketAddr (b : BlockList) (addr : SocketAddr) : Bool × BlockList :=
  if addr ∈ b.allowedSocketAddr then
    (true, { b with allowedSocketAddr := b.allowedSocketAddr.filter (· ≠ addr) })
  else if addr ∈ b.blockedSocketAddr then (false, b)
  else (true, { b with blockedSocketAddr := addr :: b.blockedSocketAddr })

def allowSocketAddr (b : BlockList) (addr : SocketAddr) : Bool × BlockList :=
  if addr ∈ b.blockedSocketAddr then
    (true, { b with blockedSocketAddr := b.blockedSocketAddr.filter (· ≠ addr) })
  else if addr ∈ b.allowedSocketAddr then (false, b)
  else (true, { b with allowedSocketAddr := addr :: b.allowedSocketAddr })

/-- The IP address is blocked, and no socket address with it is allowed. -/
def ipAddrIsBlocked (b : BlockList) (ipAddr : IpAddr) : Bool :=
  b.ipSet ipAddr && !b.allowedSocketAddr.any (fun addr => addr.ip = ipAddr)

def socketAddrIsBlocked (b : BlockList) (addr : SocketAddr) : Bool :=
  if addr ∈ b.allowedSocketAddr then false
  else if addr ∈ b.blockedSocketAddr then true
  else b.ipSet addr.ip

end BlockList

/-! ## The state of the thread -/

/-- What the environment decides while an event is handled. -/
structure Env where
  /-- There is a buffer, and connecting and serialising succeed. -/
  ok : Bool := true
  /-- An error is pending on the socket whose state is read. -/
  error : Bool := false
  /-- The event may be tried again. -/
  retriesLeft : Bool := true
  /-- The next unique session id. -/
  id : SessionId := ⟨0⟩
  /-- How many frames the stream of a channel takes. -/
  taken : Nat → Nat := fun _ => 0
  /-- The order in which the addresses of the channels are visited. -/
  order : List SocketAddr := []

/-- A frame is queued on a channel by `send_tcp_message`, or handed back by
`reject_outbound_for_channel`. -/
inductive HistoryEntry (α : Type) where
  | enqueued (token : Nat) (frame : NetFrame α)
  | handedBack (token : Nat) (frame : NetFrame α)
  deriving DecidableEq, Repr

structure NetworkThread (α : Type) where
  addr : SocketAddr
  softConnectionLimit : Nat
  hardConnectionLimit : Nat
  /-- The token of the next channel. -/
  token : Nat
  channel : Nat → TcpChannel α
  addressMap : AssocMap SocketAddr Nat
  tokenMap : List Nat
  blockList : BlockList
  reading : Option Nat
  /-- Events that the dispatcher has not received yet. -/
  toDispatcher : List (NetworkDispatcherEvent (DispatchData α))
  /-- What has happened on the channels, for statements about runs. -/
  history : List (HistoryEntry α)

namespace NetworkThread

variable {α : Type}

def new (addr : SocketAddr) (softConnectionLimit hardConnectionLimit : Nat) : NetworkThread α where
  addr
  softConnectionLimit
  hardConnectionLimit
  token := 0
  channel _ := .new addr addr .initialising
  addressMap := ∅
  tokenMap := []
  blockList := .new
  reading := none
  toDispatcher := []
  history := []

def setChannel (t : NetworkThread α) (i : Nat) (c : TcpChannel α) : NetworkThread α :=
  { t with channel := Function.update t.channel i c }

def notifyNetworkStatus (t : NetworkThread α) (status : NetworkStatus) : NetworkThread α :=
  { t with toDispatcher := t.toDispatcher ++ [.network status] }

def rejectDispatchData (t : NetworkThread α) (addr : SocketAddr) (data : DispatchData α) : NetworkThread α :=
  { t with toDispatcher := t.toDispatcher ++ [.rejectedData addr data] }

/-- `update_lru`, and what `get_channel_by_token` does besides. -/
def updateLru (t : NetworkThread α) (i : Nat) : NetworkThread α :=
  if i ∈ t.tokenMap then { t with tokenMap := i :: t.tokenMap.filter (· ≠ i) } else t

def reregisterChannelAddress (t : NetworkThread α) (old new : SocketAddr) : NetworkThread α :=
  match t.addressMap.lookup old with
  | some i => { t with addressMap := (t.addressMap.erase old).insert new i }
  | none => t

def deregisterChannel (t : NetworkThread α) (i : Nat) : NetworkThread α :=
  { t with tokenMap := t.tokenMap.filter (· ≠ i) }

/-- Whatever is registered under the address of the channel is removed. -/
def dropChannel (t : NetworkThread α) (i : Nat) : NetworkThread α :=
  { t.deregisterChannel i with addressMap := t.addressMap.erase (t.channel i).address }.setChannel i
    (t.channel i).shutdown

/-- All that is queued on the channel is handed back, in this order. -/
def rejectOutboundForChannel (t : NetworkThread α) (i : Nat) : NetworkThread α :=
  let c := t.channel i
  { t.setChannel i { c with outboundQueue := [] } with
    toDispatcher := t.toDispatcher ++ c.outboundQueue.map (fun f => .rejectedData c.address (.serialised f))
    history := t.history ++ c.outboundQueue.map (.handedBack i) }

/-- The channel stays registered. -/
def lostConnection (t : NetworkThread α) (i : Nat) (env : Env) : NetworkThread α :=
  let t := match (t.channel i).sessionId with
    | some id => t.notifyNetworkStatus (.connectionLost (t.channel i).address id)
    | none => t
  let t := t.rejectOutboundForChannel i
  (t.deregisterChannel i).setChannel i ((t.channel i).sendBye (env.taken i)).shutdown

/-! ## Opening and closing -/

def storeStream (t : NetworkThread α) (addr : SocketAddr) (state : ChannelState) (env : Env) : NetworkThread α :=
  { t.setChannel t.token ((TcpChannel.new t.addr addr state).initialise t.addr (env.taken t.token)) with
    addressMap := t.addressMap.insert addr t.token
    tokenMap := t.token :: t.tokenMap
    token := t.token + 1 }

def hardLimitReached (t : NetworkThread α) : Bool := t.hardConnectionLimit ≤ t.tokenMap.length

/-- The second half of `request_stream`: no channel is registered for the address. -/
def openStream (t : NetworkThread α) (addr : SocketAddr) (env : Env) : NetworkThread α :=
  if t.hardLimitReached then t.notifyNetworkStatus .hardConnectionLimitReached
  else if env.ok then t.storeStream addr (.requested addr env.id) env
  else t

def requestStream (t : NetworkThread α) (addr : SocketAddr) (env : Env) : NetworkThread α :=
  match t.addressMap.lookup addr with
  | some i =>
    match (t.channel i).state with
    | .connected _ _ => t
    | .closed _ _ => t
    | _ => (t.dropChannel i).openStream addr env
  | none => t.openStream addr env

/-- One stream is accepted, or refused. -/
def receiveStream (t : NetworkThread α) (addr : SocketAddr) (env : Env) : NetworkThread α :=
  if t.blockList.ipAddrIsBlocked addr.ip then t
  else if t.hardLimitReached then t.notifyNetworkStatus .hardConnectionLimitReached
  else if env.ok then t.storeStream addr .initialising env
  else t

def closeConnection (t : NetworkThread α) (addr : SocketAddr) (env : Env) : NetworkThread α :=
  match t.addressMap.lookup addr with
  | some i =>
    if (t.channel i).connected then
      (t.setChannel i ((t.channel i).initiateGracefulShutdown (env.taken i))).updateLru i
    else t.dropChannel i
  | none => t

def handleClosedAck (t : NetworkThread α) (addr : SocketAddr) : NetworkThread α :=
  match t.addressMap.lookup addr with
  | some i => if (t.channel i).connected then t else t.dropChannel i
  | none => t

/-- A channel that is borrowed counts as active. -/
def active (t : NetworkThread α) (busy i : Nat) : Bool := i = busy || (t.channel i).connected

/-- The channel `busy` is borrowed: looking at it or closing it panics. -/
def checkSoftConnectionLimit (t : NetworkThread α) (busy : Nat) (env : Env) : Option (NetworkThread α) :=
  if t.softConnectionLimit < t.tokenMap.length ∧ t.softConnectionLimit < (t.tokenMap.filter (t.active busy)).length then
    match t.tokenMap.reverse.find? (t.active busy) with
    | some i =>
      if i = busy ∨ t.addressMap.lookup (t.channel i).address = some busy then none
      else some ((t.notifyNetworkStatus .softConnectionLimitExceeded).closeConnection (t.channel i).address env)
    | none => some t
  else some t

/-! ## Frames -/

def handleHello (t : NetworkThread α) (i : Nat) (addr : SocketAddr) (env : Env) : NetworkThread α :=
  if t.blockList.socketAddrIsBlocked addr then t.dropChannel i
  else
    let t := t.reregisterChannelAddress (t.channel i).address addr
    t.setChannel i ((t.channel i).handleHello addr (env.taken i))

/-- The second half of `handle_start`: the channel is the one to keep. -/
def startChannel (t : NetworkThread α) (i : Nat) (addr : SocketAddr) (id : SessionId) (env : Env) :
    Option (NetworkThread α) := do
  let t := t.reregisterChannelAddress (t.channel i).address addr
  let t := t.setChannel i ((t.channel i).handleStart addr id (env.taken i))
  -- `retry_event` borrows the channel again when it gives up
  guard env.retriesLeft
  let t ← t.checkSoftConnectionLimit i env
  return t.notifyNetworkStatus (.connectionEstablished addr id)

/-- Where another channel is registered for the address, one of the two is kept. -/
def handleStart (t : NetworkThread α) (i : Nat) (addr : SocketAddr) (id : SessionId) (env : Env) :
    Option (NetworkThread α) :=
  if t.blockList.socketAddrIsBlocked addr then some (t.dropChannel i)
  else match t.addressMap.lookup addr with
    | none => t.startChannel i addr id env
    | some other =>
      if other = i then none
      else
        let t := t.setChannel other ((t.channel other).readState env.error)
        match (t.channel other).state with
        | .connected _ _ =>
          if (t.channel other).messages = 0 then some (t.dropChannel i)
          else (t.lostConnection other env).startChannel i addr id env
        | .requested _ otherId =>
          if otherId.asU128 > id.asU128 then some (t.dropChannel i)
          else (t.dropChannel other).startChannel i addr id env
        | .initialised _ otherId =>
          if otherId.asU128 > id.asU128 then some (t.dropChannel i)
          else (t.dropChannel other).startChannel i addr id env
        | _ => (t.dropChannel other).startChannel i addr id env

def handleAck (t : NetworkThread α) (i : Nat) (env : Env) : Option (NetworkThread α) := do
  let t := t.setChannel i (t.channel i).handleAck
  let t ← t.checkSoftConnectionLimit i env
  let id ← (t.channel i).sessionId
  return t.notifyNetworkStatus (.connectionEstablished (t.channel i).address id)

/-- A data frame is delivered with the session of the channel, which must have one. -/
def handleData (t : NetworkThread α) (i : Nat) : Option (NetworkThread α) := do
  let _ ← (t.channel i).sessionId
  return t.setChannel i (t.channel i).countMessage

def handleBye (t : NetworkThread α) (i : Nat) (env : Env) : NetworkThread α :=
  let t := t.setChannel i ((t.channel i).handleBye (env.taken i))
  match (t.channel i).state with
  | .closed addr id =>
    ((t.deregisterChannel i).notifyNetworkStatus (.connectionClosed addr id)).rejectOutboundForChannel i
  | .closeReceived _ _ => t
  | _ => t.dropChannel i

/-- The loop of `read_tcp` ends. -/
def endRead (t : NetworkThread α) : NetworkThread α := { t with reading := none }

/-- One round of the loop of `read_tcp`; it ends with a `Start` or a `Bye`. -/
def handleFrame (t : NetworkThread α) (i : Nat) (frame : NetFrame α) (env : Env) : Option (NetworkThread α) :=
  match frame with
  | .data _ => t.handleData i
  | .start addr id => (t.handleStart i addr id env).map endRead
  | .hello addr => some (t.handleHello i addr env)
  | .ack => t.handleAck i env
  | .bye => some (t.handleBye i env).endRead

/-! ## Writing -/

/-- The result of draining the queue of a channel. -/
inductive DrainResult where
  | ok
  | brokenPipe
  | error
  deriving DecidableEq, Repr

def writeTcp (t : NetworkThread α) (i : Nat) (res : DrainResult) (env : Env) : NetworkThread α :=
  let t := (t.updateLru i).setChannel i ((t.channel i).tryDrain (env.taken i))
  match res with
  | .brokenPipe => t.lostConnection i env
  | .ok =>
    match (t.channel i).state with
    | .closeReceived addr id =>
      let t := (t.setChannel i { t.channel i with state := .closed addr id }).deregisterChannel i
      (t.notifyNetworkStatus (.connectionClosed (t.channel i).address id)).rejectOutboundForChannel i
    | _ => t
  | .error => t

/-! ## Events of the dispatcher -/

/-- Serialising can fail for lack of buffers. -/
def serialiseDispatchData (data : DispatchData α) (ok : Bool) : Option (NetFrame α) :=
  match data with
  | .serialised frame => some frame
  | .lazy _ => if ok then some data.intoSerialised else none

def sendTcpMessage (t : NetworkThread α) (addr : SocketAddr) (data : DispatchData α) (env : Env) : NetworkThread α :=
  match t.addressMap.lookup addr with
  | some i =>
    let t := t.updateLru i
    if (t.channel i).connected then
      match serialiseDispatchData data env.ok with
      | some frame =>
        { t.setChannel i ((t.channel i).enqueueSerialised frame) with history := t.history ++ [.enqueued i frame] }
      | none => t
    else t.rejectDispatchData addr data
  | none => t.rejectDispatchData addr data

/-- Drop the channel that is registered for a blocked address. -/
def dropBlocked (t : NetworkThread α) (addr : SocketAddr) : NetworkThread α :=
  match t.addressMap.lookup addr with
  | some i =>
    (if (t.channel i).connected then t.notifyNetworkStatus (.connectionDropped addr) else t).dropChannel i
  | none => t

/-- Drop the channels of the addresses that have come to be blocked. -/
def dropAllBlocked (t : NetworkThread α) (hit : IpAddr → Bool) (order : List SocketAddr) : NetworkThread α :=
  (order.filter fun addr => hit addr.ip && t.blockList.socketAddrIsBlocked addr).foldl dropBlocked t

def blockIpAddr (t : NetworkThread α) (ip : IpAddr) (order : List SocketAddr) : NetworkThread α :=
  let (modified, blockList) := t.blockList.blockIpAddr ip
  let t := if modified then { t with blockList }.dropAllBlocked (fun ip' => ip' = ip) order else t
  t.notifyNetworkStatus (.blockedIp ip)

def blockIpNet (t : NetworkThread α) (net : IpNet) (order : List SocketAddr) : NetworkThread α :=
  ({ t with blockList := t.blockList.blockIpNet net }.dropAllBlocked net.contains order).notifyNetworkStatus
    (.blockedIpNet net)

def blockSocketAddr (t : NetworkThread α) (addr : SocketAddr) : NetworkThread α :=
  let (modified, blockList) := t.blockList.blockSocketAddr addr
  let t := { t with blockList }
  let t := match modified, t.addressMap.lookup addr with
    | true, some i => t.dropChannel i
    | _, _ => t
  t.notifyNetworkStatus (.blockedSystem addr)

def allowSocketAddr (t : NetworkThread α) (addr : SocketAddr) : NetworkThread α :=
  let (modified, blockList) := t.blockList.allowSocketAddr addr
  let t := { t with blockList }
  if modified then t.notifyNetworkStatus (.allowedSystem addr) else t

def allowIpAddr (t : NetworkThread α) (ip : IpAddr) : NetworkThread α :=
  { t with blockList := (t.blockList.allowIpAddr ip).2 }.notifyNetworkStatus (.allowedIp ip)

def allowIpNet (t : NetworkThread α) (net : IpNet) : NetworkThread α :=
  { t with blockList := t.blockList.allowIpNet net }.notifyNetworkStatus (.allowedIpNet net)

def handleDispatchEvent (t : NetworkThread α) (env : Env) : DispatchEvent (DispatchData α) → NetworkThread α
  | .sendTcp addr data => t.sendTcpMessage addr data env
  | .connect addr => if t.blockList.socketAddrIsBlocked addr then t else t.requestStream addr env
  | .closedAck addr => t.handleClosedAck addr
  | .close addr => t.closeConnection addr env
  | .blockSocket addr => t.blockSocketAddr addr
  | .blockIpAddr ip => t.blockIpAddr ip env.order
  | .blockIpNet net => t.blockIpNet net env.order
  | .allowSocket addr => t.allowSocketAddr addr
  | .allowIpAddr ip => t.allowIpAddr ip
  | .allowIpNet net => t.allowIpNet net

/-- The event makes the thread visit all addresses. -/
def visitsAll : DispatchEvent (DispatchData α) → Bool
  | .blockIpAddr _ => true
  | .blockIpNet _ => true
  | _ => false

/-- The next event of the dispatcher is handled. -/
def receiveDispatch (t : NetworkThread α) (ev : DispatchEvent (DispatchData α)) (env : Env) :
    Option (NetworkThread α) :=
  if t.reading = none ∧ (visitsAll ev = true → env.order.Perm t.addressMap.keys) then
    some (t.handleDispatchEvent env ev)
  else none

/-! ## Events of the network -/

inductive Action (α : Type) where
  | accept (addr : SocketAddr) (env : Env)
  | write (i : Nat) (res : DrainResult) (env : Env)
  | beginRead (i : Nat)
  | read (frame : NetFrame α) (env : Env)
  /-- Nothing is left to read, or there is an error that is only logged. -/
  | endRead
  /-- The connection was reset by the peer. -/
  | resetRead (env : Env)
  /-- There is no buffer to read into. -/
  | noBuffers (env : Env)

/-- An event of the network is handled. Only channels in the token map are polled. -/
def step (t : NetworkThread α) : Action α → Option (NetworkThread α)
  | .accept addr env => if t.reading = none then some (t.receiveStream addr env) else none
  | .write i res env => if t.reading = none ∧ i ∈ t.tokenMap then some (t.writeTcp i res env) else none
  | .beginRead i =>
    if t.reading = none ∧ i ∈ t.tokenMap then some { t.updateLru i with reading := some i } else none
  | .read frame env => t.reading.bind fun i => t.handleFrame i frame env
  | .endRead => t.reading.map fun _ => t.endRead
  | .resetRead env => t.reading.map fun i => (t.lostConnection i env).endRead
  | .noBuffers env => t.reading.map fun i =>
    if env.retriesLeft ∨ i ∉ t.tokenMap then t.endRead else ((t.updateLru i).lostConnection i env).endRead

/-! ## Small steps -/

variable {t t' : NetworkThread α} {a b : SocketAddr} {i j : Nat} {c : TcpChannel α} {env : Env}

theorem step_accept (hs : t.step (.accept a env) = some t') : t.reading = none ∧ t' = t.receiveStream a env := by
  obtain ⟨hr, hs⟩ := Option.ite_none_right_eq_some.mp hs
  exact ⟨hr, (Option.some.inj hs).symm⟩

theorem step_write {res : DrainResult} (hs : t.step (.write i res env) = some t') :
    t.reading = none ∧ i ∈ t.tokenMap ∧ t' = t.writeTcp i res env := by
  obtain ⟨hr, hs⟩ := Option.ite_none_right_eq_some.mp hs
  exact ⟨hr.1, hr.2, (Option.some.inj hs).symm⟩

theorem step_beginRead (hs : t.step (.beginRead i) = some t') :
    t.reading = none ∧ i ∈ t.tokenMap ∧ t' = { t.updateLru i with reading := some i } := by
  obtain ⟨hr, hs⟩ := Option.ite_none_right_eq_some.mp hs
  exact ⟨hr.1, hr.2, (Option.some.inj hs).symm⟩

theorem receiveDispatch_some {ev : DispatchEvent (DispatchData α)} (hs : t.receiveDispatch ev env = some t') :
    t.reading = none ∧ (visitsAll ev = true → env.order.Perm t.addressMap.keys) ∧ t' = t.handleDispatchEvent env ev := by
  obtain ⟨hr, hs⟩ := Option.ite_none_right_eq_some.mp hs
  exact ⟨hr.1, hr.2, (Option.some.inj hs).symm⟩

/-- Nothing happens, or the oldest active channel is closed by its address; neither it nor the channel registered
there is the borrowed one. -/
theorem checkSoft_cases {busy : Nat} (h : t.checkSoftConnectionLimit busy env = some t') :
    t' = t ∨ ∃ i, t.tokenMap.reverse.find? (t.active busy) = some i ∧ i ≠ busy ∧
      t.addressMap.lookup (t.channel i).address ≠ some busy ∧
      t' = (t.notifyNetworkStatus .softConnectionLimitExceeded).closeConnection (t.channel i).address env := by
  unfold checkSoftConnectionLimit at h
  split at h
  · split at h
    · rename_i i hi
      obtain ⟨hne, h⟩ := Option.ite_none_left_eq_some.mp h
      obtain ⟨hib, hl⟩ := not_or.mp hne
      exact .inr ⟨i, hi, hib, hl, (Option.some.inj h).symm⟩
    · exact .inl (Option.some.inj h).symm
  · exact .inl (Option.some.inj h).symm

theorem channel_setChannel : (t.setChannel i c).channel j = if j = i then c else t.channel j :=
  Function.update_apply _ _ _ _

theorem setChannel_self : t.setChannel i (t.channel i) = t := by
  unfold setChannel
  rw [Function.update_eq_self]

theorem mem_updateLru : j ∈ (t.updateLru i).tokenMap ↔ j ∈ t.tokenMap := by
  unfold updateLru
  split
  · rename_i hi
    show j ∈ i :: t.tokenMap.filter (· ≠ i) ↔ _
    rw [List.mem_cons, List.mem_filter]
    constructor
    · rintro (rfl | hj)
      · exact hi
      · exact hj.1
    · intro hj
      by_cases hji : j = i
      · exact .inl hji
      · exact .inr ⟨hj, decide_eq_true hji⟩
  · rfl

@[simp] theorem channel_updateLru : (t.updateLru i).channel = t.channel := by
  unfold updateLru
  split
  · rfl
  · rfl

@[simp] theorem addressMap_updateLru : (t.updateLru i).addressMap = t.addressMap := by
  unfold updateLru
  split
  · rfl
  · rfl

@[simp] theorem token_updateLru : (t.updateLru i).token = t.token := by
  unfold updateLru
  split
  · rfl
  · rfl

@[simp] theorem toDispatcher_updateLru : (t.updateLru i).toDispatcher = t.toDispatcher := by
  unfold updateLru
  split
  · rfl
  · rfl

theorem channel_reregister (old new : SocketAddr) : (t.reregisterChannelAddress old new).channel = t.channel := by
  unfold reregisterChannelAddress
  split
  · rfl
  · rfl

theorem lookup_storeStream {st : ChannelState} : (t.storeStream b st env).addressMap.lookup a =
    if a = b then some t.token else t.addressMap.lookup a := AssocMap.lookup_insert _ _ _ _

theorem channel_storeStream {st : ChannelState} (hi : i ≠ t.token) :
    (t.storeStream a st env).channel i = t.channel i := channel_setChannel.trans (if_neg hi)

/-! ## What every part of an event keeps -/

/-- A relation between two states of the thread, the one before and the one
after, that holds of the parts of which opening, closing, dropping and blocking
are made. -/
structure KeptByParts (R : NetworkThread α → NetworkThread α → Prop) : Prop where
  refl : ∀ t, R t t
  trans : ∀ {t t' t''}, R t t' → R t' t'' → R t t''
  notify : ∀ t status, (∀ addr id, status ≠ .connectionClosed addr id) → R t (t.notifyNetworkStatus status)
  setBlockList : ∀ t blockList, R t { t with blockList }
  dropChannel : ∀ t i, R t (t.dropChannel i)
  close : ∀ t i n, R t ((t.setChannel i ((t.channel i).initiateGracefulShutdown n)).updateLru i)

namespace KeptByParts

variable {R : NetworkThread α → NetworkThread α → Prop}

theorem closeConnection (h : KeptByParts R) : R t (t.closeConnection a env) := by
  unfold NetworkThread.closeConnection
  split
  · split
    · exact h.close t _ _
    · exact h.dropChannel t _
  · exact h.refl t

theorem handleClosedAck (h : KeptByParts R) : R t (t.handleClosedAck a) := by
  unfold NetworkThread.handleClosedAck
  split
  · split
    · exact h.refl t
    · exact h.dropChannel t _
  · exact h.refl t

theorem checkSoft (h : KeptByParts R) {busy : Nat} (hs : t.checkSoftConnectionLimit busy env = some t') : R t t' := by
  rcases checkSoft_cases hs with rfl | ⟨j, -, -, -, rfl⟩
  · exact h.refl _
  · exact h.trans (h.notify t _ (fun _ _ he => by cases he)) h.closeConnection

theorem dropBlocked (h : KeptByParts R) : R t (t.dropBlocked a) := by
  unfold NetworkThread.dropBlocked
  split
  · split
    · exact h.trans (h.notify t _ (fun _ _ he => by cases he)) (h.dropChannel _ _)
    · exact h.dropChannel t _
  · exact h.refl t

theorem dropAll (h : KeptByParts R) (addrs : List SocketAddr) (t : NetworkThread α) :
    R t (addrs.foldl NetworkThread.dropBlocked t) := by
  induction addrs generalizing t with
  | nil => exact h.refl t
  | cons a rest ih => exact h.trans h.dropBlocked (ih _)

theorem openStream (h : KeptByParts R) (hstore : ∀ t, R t (t.storeStream a (.requested a env.id) env)) :
    R t (t.openStream a env) := by
  unfold NetworkThread.openStream
  split
  · exact h.notify t _ (fun _ _ he => by cases he)
  · split
    · exact hstore t
    · exact h.refl t

theorem requestStream (h : KeptByParts R) (hstore : ∀ t, R t (t.storeStream a (.requested a env.id) env)) :
    R t (t.requestStream a env) := by
  unfold NetworkThread.requestStream
  split
  · split
    · exact h.refl t
    · exact h.refl t
    · exact h.trans (h.dropChannel t _) (h.openStream hstore)
  · exact h.openStream hstore

theorem receiveStream (h : KeptByParts R) (hstore : R t (t.storeStream a .initialising env)) :
    R t (t.receiveStream a env) := by
  unfold NetworkThread.receiveStream
  split
  · exact h.refl t
  · split
    · exact h.notify t _ (fun _ _ he => by cases he)
    · split
      · exact hstore
      · exact h.refl t

/-- The events of the dispatcher, apart from messages to send and connections to open. -/
theorem handleDispatchEvent (h : KeptByParts R) {ev : DispatchEvent (DispatchData α)}
    (hsend : ∀ addr data, ev = .sendTcp addr data → R t (t.sendTcpMessage addr data env))
    (hconnect : ∀ addr, ev = .connect addr → R t (t.requestStream addr env)) : R t (t.handleDispatchEvent env ev) := by
  cases ev with
  | sendTcp addr data => exact hsend addr data rfl
  | connect addr =>
    unfold NetworkThread.handleDispatchEvent
    simp only
    split
    · exact h.refl t
    · exact hconnect addr rfl
  | closedAck addr => exact h.handleClosedAck
  | close addr => exact h.closeConnection
  | blockSocket addr =>
    unfold NetworkThread.handleDispatchEvent NetworkThread.blockSocketAddr
    simp only
    refine h.trans ?_ (h.notify _ _ (fun _ _ he => by cases he))
    split
    · exact h.trans (h.setBlockList t _) (h.dropChannel _ _)
    · exact h.setBlockList t _
  | blockIpAddr ip =>
    unfold NetworkThread.handleDispatchEvent NetworkThread.blockIpAddr
    simp only
    refine h.trans ?_ (h.notify _ _ (fun _ _ he => by cases he))
    split
    · exact h.trans (h.setBlockList t _) (h.dropAll _ _)
    · exact h.refl t
  | blockIpNet net =>
    refine h.trans ?_ (h.notify _ _ (fun _ _ he => by cases he))
    exact h.trans (h.setBlockList t _) (h.dropAll _ _)
  | allowSocket addr =>
    unfold NetworkThread.handleDispatchEvent NetworkThread.allowSocketAddr
    simp only
    split
    · exact h.trans (h.setBlockList t _) (h.notify _ _ (fun _ _ he => by cases he))
    · exact h.setBlockList t _
  | allowIpAddr ip => exact h.trans (h.setBlockList t _) (h.notify _ _ (fun _ _ he => by cases he))
  | allowIpNet net => exact h.trans (h.setBlockList t _) (h.notify _ _ (fun _ _ he => by cases he))

end KeptByParts

/-! ## The channel being read

Only the end of the loop changes which one it is.
-/

@[simp] theorem reading_setChannel : (t.setChannel i c).reading = t.reading := rfl

@[simp] theorem reading_notifyNetworkStatus {status : NetworkStatus} :
    (t.notifyNetworkStatus status).reading = t.reading := rfl

@[simp] theorem reading_rejectDispatchData {data : DispatchData α} :
    (t.rejectDispatchData a data).reading = t.reading := rfl

@[simp] theorem reading_updateLru : (t.updateLru i).reading = t.reading := by
  unfold updateLru
  split
  · rfl
  · rfl

@[simp] theorem reading_reregister : (t.reregisterChannelAddress a b).reading = t.reading := by
  unfold reregisterChannelAddress
  split
  · rfl
  · rfl

@[simp] theorem reading_deregisterChannel : (t.deregisterChannel i).reading = t.reading := rfl

@[simp] theorem reading_dropChannel : (t.dropChannel i).reading = t.reading := rfl

@[simp] theorem reading_rejectOutbound : (t.rejectOutboundForChannel i).reading = t.reading := rfl

@[simp] theorem reading_storeStream {st : ChannelState} : (t.storeStream a st env).reading = t.reading := rfl

@[simp] theorem reading_lostConnection : (t.lostConnection i env).reading = t.reading := by
  unfold lostConnection
  split
  · rfl
  · rfl

theorem reading_parts : KeptByParts (fun t t' : NetworkThread α => t'.reading = t.reading) where
  refl _ := rfl
  trans h h' := h'.trans h
  notify _ _ _ := rfl
  setBlockList _ _ := rfl
  dropChannel _ _ := rfl
  close _ _ _ := reading_updateLru

@[simp] theorem reading_requestStream : (t.requestStream a env).reading = t.reading :=
  reading_parts.requestStream (fun _ => rfl)

@[simp] theorem reading_receiveStream : (t.receiveStream a env).reading = t.reading := reading_parts.receiveStream rfl

@[simp] theorem reading_handleHello : (t.handleHello i a env).reading = t.reading := by
  unfold handleHello
  split
  · rfl
  · simp

theorem reading_handleAck {t' : NetworkThread α} (h : t.handleAck i env = some t') : t'.reading = t.reading := by
  simp only [handleAck] at h
  obtain ⟨t₁, h₁, h⟩ := Option.bind_eq_some_iff.mp h
  obtain ⟨id, -, h⟩ := Option.bind_eq_some_iff.mp h
  obtain rfl := Option.some.inj h
  have hr : t₁.reading = (t.setChannel i (t.channel i).handleAck).reading := reading_parts.checkSoft h₁
  exact hr

theorem reading_handleData {t' : NetworkThread α} (h : t.handleData i = some t') : t'.reading = t.reading := by
  simp only [handleData] at h
  obtain ⟨id, -, h⟩ := Option.bind_eq_some_iff.mp h
  obtain rfl := Option.some.inj h
  rfl

@[simp] theorem reading_writeTcp {res : DrainResult} : (t.writeTcp i res env).reading = t.reading := by
  unfold writeTcp
  cases res with
  | ok =>
    simp only
    split
    · simp
    · simp
  | brokenPipe => simp
  | error => simp

@[simp] theorem reading_sendTcpMessage {data : DispatchData α} :
    (t.sendTcpMessage a data env).reading = t.reading := by
  unfold sendTcpMessage
  split
  · simp only
    split
    · split
      · simp
      · simp
    · simp
  · rfl

@[simp] theorem reading_handleDispatchEvent {ev : DispatchEvent (DispatchData α)} :
    (t.handleDispatchEvent env ev).reading = t.reading :=
  reading_parts.handleDispatchEvent (fun _ _ _ => reading_sendTcpMessage) (fun _ _ => reading_requestStream)

end NetworkThread

end Kompact
