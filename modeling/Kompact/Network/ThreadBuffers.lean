import Kompact.Buffers.BufferPool
import Kompact.Network.ChannelMaps

/-!
# The buffers of the network thread

Every channel reads into a chunk of the pool of its thread, and so does the UDP
socket. `BufferedThread` is the thread with its chunks. It does what the thread
does (`thread_step`), and besides takes chunks from the pool, swaps them while
it reads, and gives the chunk of a channel back when it drops the channel, which
is left with a chunk of length zero.

No chunk is lost and no other one gets into the pool (`conserved_of_keeps`) as
long as no channel is dropped or read on after it was dropped, and no channel
takes the registration of one that still has its chunk (`Keeps`).
-/

namespace Kompact

/-- The channel is connected, or has been; it is not dropped by a `Bye`. -/
def ChannelState.isEstablished : ChannelState → Bool
  | connected _ _ => true
  | closeRequested _ _ => true
  | closeReceived _ _ => true
  | closed _ _ => true
  | _ => false

/-- `BufferChunk::new(0)`; it is not one of the allocator's. -/
def BufferChunk.dummy : BufferChunk := ⟨0, 0, 1, false⟩

structure BufferedThread (α : Type) where
  thread : NetworkThread α
  bufferPool : BufferPool
  /-- The chunk in the input buffer of each channel. -/
  input : Nat → BufferChunk
  /-- The chunk in the input buffer of the UDP state. -/
  udp : BufferChunk

namespace BufferedThread

variable {α : Type}

/-- The pool must have a chunk for the UDP socket. -/
def new (addr : SocketAddr) (softConnectionLimit hardConnectionLimit : Nat) (cfg : PoolConfig) :
    Panics (BufferedThread α) := do
  let pool ← BufferPool.withConfig cfg
  match pool.getBuffer with
  | (some udp, bufferPool) =>
    return { thread := .new addr softConnectionLimit hardConnectionLimit, bufferPool, input := fun _ => .dummy, udp }
  | (none, _) => throw "Could not get buffer for setting up UDP"

/-- The thread does something that has nothing to do with its buffers. -/
def on (b : BufferedThread α) (f : NetworkThread α → NetworkThread α) : BufferedThread α :=
  { b with thread := f b.thread }

def getBuffer (b : BufferedThread α) : Option BufferChunk × BufferedThread α :=
  match b.bufferPool.getBuffer with
  | (buffer, bufferPool) => (buffer, { b with bufferPool })

def returnBuffer (b : BufferedThread α) (buffer : BufferChunk) : BufferedThread α :=
  { b with bufferPool := b.bufferPool.returnBuffer buffer }

/-- `swap_buffer` of the channel: the chunk it has had is locked. -/
def swapBuffer (b : BufferedThread α) (i : Nat) (buffer : BufferChunk) : BufferChunk × BufferedThread α :=
  ((b.input i).lock, { b with input := Function.update b.input i buffer })

def dropChannel (b : BufferedThread α) (i : Nat) : BufferedThread α :=
  let (buffer, b) := (b.on (·.dropChannel i)).swapBuffer i .dummy
  b.returnBuffer buffer

/-! ## Opening and closing -/

def storeStream (b : BufferedThread α) (addr : SocketAddr) (state : ChannelState) (buffer : BufferChunk) (env : Env) :
    BufferedThread α :=
  { b with
    thread := b.thread.storeStream addr state env
    input := Function.update b.input b.thread.token buffer }

/-- The buffer goes back where there is no connection. -/
def openStream (b : BufferedThread α) (addr : SocketAddr) (env : Env) : BufferedThread α :=
  if b.thread.hardLimitReached then b.on (·.notifyNetworkStatus .hardConnectionLimitReached)
  else match b.getBuffer with
    | (some buffer, b) =>
      if env.ok then b.storeStream addr (.requested addr env.id) buffer env else b.returnBuffer buffer
    | (none, b) => b

def requestStream (b : BufferedThread α) (addr : SocketAddr) (env : Env) : BufferedThread α :=
  match b.thread.addressMap.lookup addr with
  | some i =>
    match (b.thread.channel i).state with
    | .connected _ _ => b
    | .closed _ _ => b
    | _ => (b.dropChannel i).openStream addr env
  | none => b.openStream addr env

def receiveStream (b : BufferedThread α) (addr : SocketAddr) (env : Env) : BufferedThread α :=
  if b.thread.blockList.ipAddrIsBlocked addr.ip then b
  else if b.thread.hardLimitReached then b.on (·.notifyNetworkStatus .hardConnectionLimitReached)
  else match b.getBuffer with
    | (some buffer, b) => b.storeStream addr .initialising buffer env
    | (none, b) => b

def closeConnection (b : BufferedThread α) (addr : SocketAddr) (env : Env) : BufferedThread α :=
  match b.thread.addressMap.lookup addr with
  | some i =>
    if (b.thread.channel i).connected then b.on (·.closeConnection addr env) else b.dropChannel i
  | none => b

def handleClosedAck (b : BufferedThread α) (addr : SocketAddr) : BufferedThread α :=
  match b.thread.addressMap.lookup addr with
  | some i => if (b.thread.channel i).connected then b else b.dropChannel i
  | none => b

def checkSoftConnectionLimit (b : BufferedThread α) (busy : Nat) (env : Env) : Option (BufferedThread α) :=
  let t := b.thread
  if t.softConnectionLimit < t.tokenMap.length ∧ t.softConnectionLimit < (t.tokenMap.filter (t.active busy)).length then
    match t.tokenMap.reverse.find? (t.active busy) with
    | some i =>
      if i = busy ∨ t.addressMap.lookup (t.channel i).address = some busy then none
      else some ((b.on (·.notifyNetworkStatus .softConnectionLimitExceeded)).closeConnection (t.channel i).address env)
    | none => some b
  else some b

/-! ## Frames -/

def handleHello (b : BufferedThread α) (i : Nat) (addr : SocketAddr) (env : Env) : BufferedThread α :=
  if b.thread.blockList.socketAddrIsBlocked addr then b.dropChannel i else b.on (·.handleHello i addr env)

def startChannel (b : BufferedThread α) (i : Nat) (addr : SocketAddr) (id : SessionId) (env : Env) :
    Option (BufferedThread α) := do
  let b := b.on fun t =>
    let t := t.reregisterChannelAddress (t.channel i).address addr
    t.setChannel i ((t.channel i).handleStart addr id (env.taken i))
  guard env.retriesLeft
  let b ← b.checkSoftConnectionLimit i env
  return b.on (·.notifyNetworkStatus (.connectionEstablished addr id))

/-- The other channel, if it is lost, keeps its buffer. -/
def handleStart (b : BufferedThread α) (i : Nat) (addr : SocketAddr) (id : SessionId) (env : Env) :
    Option (BufferedThread α) :=
  if b.thread.blockList.socketAddrIsBlocked addr then some (b.dropChannel i)
  else match b.thread.addressMap.lookup addr with
    | none => b.startChannel i addr id env
    | some other =>
      if other = i then none
      else
        let b := b.on fun t => t.setChannel other ((t.channel other).readState env.error)
        match (b.thread.channel other).state with
        | .connected _ _ =>
          if (b.thread.channel other).messages = 0 then some (b.dropChannel i)
          else (b.on (·.lostConnection other env)).startChannel i addr id env
        | .requested _ otherId =>
          if otherId.asU128 > id.asU128 then some (b.dropChannel i)
          else (b.dropChannel other).startChannel i addr id env
        | .initialised _ otherId =>
          if otherId.asU128 > id.asU128 then some (b.dropChannel i)
          else (b.dropChannel other).startChannel i addr id env
        | _ => (b.dropChannel other).startChannel i addr id env

def handleAck (b : BufferedThread α) (i : Nat) (env : Env) : Option (BufferedThread α) := do
  let b := b.on fun t => t.setChannel i (t.channel i).handleAck
  let b ← b.checkSoftConnectionLimit i env
  let id ← (b.thread.channel i).sessionId
  return b.on (·.notifyNetworkStatus (.connectionEstablished (b.thread.channel i).address id))

def handleBye (b : BufferedThread α) (i : Nat) (env : Env) : BufferedThread α :=
  let b := b.on fun t => t.setChannel i ((t.channel i).handleBye (env.taken i))
  match (b.thread.channel i).state with
  | .closed addr id => b.on fun t =>
    ((t.deregisterChannel i).notifyNetworkStatus (.connectionClosed addr id)).rejectOutboundForChannel i
  | .closeReceived _ _ => b
  | _ => b.dropChannel i

def handleFrame (b : BufferedThread α) (i : Nat) (frame : NetFrame α) (env : Env) : Option (BufferedThread α) :=
  match frame with
  | .data _ => (b.thread.handleData i).map fun thread => { b with thread }
  | .start addr id => (b.handleStart i addr id env).map (·.on .endRead)
  | .hello addr => some (b.handleHello i addr env)
  | .ack => b.handleAck i env
  | .bye => some ((b.handleBye i env).on .endRead)

/-! ## Events of the dispatcher -/

def dropBlocked (b : BufferedThread α) (addr : SocketAddr) : BufferedThread α :=
  match b.thread.addressMap.lookup addr with
  | some i =>
    (b.on fun t => if (t.channel i).connected then t.notifyNetworkStatus (.connectionDropped addr) else t).dropChannel i
  | none => b

def dropAllBlocked (b : BufferedThread α) (hit : IpAddr → Bool) (order : List SocketAddr) : BufferedThread α :=
  (order.filter fun addr => hit addr.ip && b.thread.blockList.socketAddrIsBlocked addr).foldl dropBlocked b

def blockIpAddr (b : BufferedThread α) (ip : IpAddr) (order : List SocketAddr) : BufferedThread α :=
  let (modified, blockList) := b.thread.blockList.blockIpAddr ip
  let b := if modified then (b.on ({ · with blockList })).dropAllBlocked (fun ip' => ip' = ip) order else b
  b.on (·.notifyNetworkStatus (.blockedIp ip))

def blockIpNet (b : BufferedThread α) (net : IpNet) (order : List SocketAddr) : BufferedThread α :=
  let blockList := b.thread.blockList.blockIpNet net
  ((b.on ({ · with blockList })).dropAllBlocked net.contains order).on (·.notifyNetworkStatus (.blockedIpNet net))

def blockSocketAddr (b : BufferedThread α) (addr : SocketAddr) : BufferedThread α :=
  let (modified, blockList) := b.thread.blockList.blockSocketAddr addr
  let b := b.on ({ · with blockList })
  let b := match modified, b.thread.addressMap.lookup addr with
    | true, some i => b.dropChannel i
    | _, _ => b
  b.on (·.notifyNetworkStatus (.blockedSystem addr))

def handleDispatchEvent (b : BufferedThread α) (env : Env) : DispatchEvent (DispatchData α) → BufferedThread α
  | .connect addr => if b.thread.blockList.socketAddrIsBlocked addr then b else b.requestStream addr env
  | .closedAck addr => b.handleClosedAck addr
  | .close addr => b.closeConnection addr env
  | .blockSocket addr => b.blockSocketAddr addr
  | .blockIpAddr ip => b.blockIpAddr ip env.order
  | .blockIpNet net => b.blockIpNet net env.order
  | ev => b.on (·.handleDispatchEvent env ev)

def receiveDispatch (b : BufferedThread α) (ev : DispatchEvent (DispatchData α)) (env : Env) :
    Option (BufferedThread α) :=
  if b.thread.reading = none ∧ (NetworkThread.visitsAll ev = true → env.order.Perm b.thread.addressMap.keys) then
    some (b.handleDispatchEvent env ev)
  else none

/-! ## Reading -/

/-- In `read_frame`: the chunk of the channel has no more room. -/
def swapInput (b : BufferedThread α) (i : Nat) : Option (BufferedThread α) :=
  match b.getBuffer with
  | (some buffer, b) =>
    let (buffer, b) := b.swapBuffer i buffer
    some (b.returnBuffer buffer)
  | (none, _) => none

/-- `swap_buffer` of the UDP state. -/
def swapUdp (b : BufferedThread α) : BufferedThread α :=
  match b.getBuffer with
  | (some buffer, b) => { b with udp := buffer }.returnBuffer b.udp.lock
  | (none, b) => b

/-- Change the chunks, wherever they are. -/
def mapChunks (f : BufferChunk → BufferChunk) (b : BufferedThread α) : BufferedThread α :=
  { b with
    bufferPool := { b.bufferPool with pool := b.bufferPool.pool.map f }
    input := f ∘ b.input
    udp := f b.udp }

/-- An event of the network is handled. Accepting and reading need buffers. -/
def handleEvent (b : BufferedThread α) : NetworkThread.Action α → Option (BufferedThread α)
  | .accept addr env => if b.thread.reading = none then some (b.receiveStream addr env) else none
  | .read frame env => b.thread.reading.bind fun i => b.handleFrame i frame env
  | act => (b.thread.step act).map fun thread => { b with thread }

/-- What the thread does, and how the locks on its chunks come and go. -/
inductive Action (α : Type) where
  | dispatch (ev : DispatchEvent (DispatchData α)) (env : Env)
  | network (act : NetworkThread.Action α)
  /-- The chunk that is read into is used up. -/
  | swap
  | swapUdp
  | cloneLock (c : ChunkId)
  | dropLock (c : ChunkId)

def step (b : BufferedThread α) : Action α → Option (BufferedThread α)
  | .dispatch ev env => b.receiveDispatch ev env
  | .network act => b.handleEvent act
  | .swap => b.thread.reading.bind fun i => b.swapInput i
  | .swapUdp => if b.thread.reading = none then some b.swapUdp else none
  | .cloneLock c => some (b.mapChunks (.cloneLock c))
  | .dropLock c => some (b.mapChunks (.dropLock c))

/-! ## What the thread itself does -/

variable {b b' : BufferedThread α} {a addr : SocketAddr} {i j : Nat} {env : Env}

/-- Whether there is a connection and a buffer for it. -/
def withBuffer (b : BufferedThread α) (env : Env) : Env :=
  { env with ok := env.ok && b.bufferPool.getBuffer.1.isSome }

theorem thread_on {f : NetworkThread α → NetworkThread α} : (b.on f).thread = f b.thread := rfl

theorem thread_dropChannel : (b.dropChannel i).thread = b.thread.dropChannel i := rfl

theorem thread_openStream : (b.openStream addr env).thread = b.thread.openStream addr (b.withBuffer env) := by
  unfold openStream NetworkThread.openStream withBuffer getBuffer
  split
  · rfl
  · rcases b.bufferPool.getBuffer with ⟨_ | buffer, pool⟩
    · simp
    · simp only [Option.isSome_some, Bool.and_true]
      split
      · rfl
      · rfl

theorem thread_requestStream : ∃ ok, (b.requestStream addr env).thread = b.thread.requestStream addr { env with ok } := by
  unfold requestStream NetworkThread.requestStream
  rcases b.thread.addressMap.lookup addr with _ | i
  · exact ⟨_, thread_openStream⟩
  · simp only
    cases (b.thread.channel i).state with
    | connected addr id => exact ⟨env.ok, rfl⟩
    | closed addr id => exact ⟨env.ok, rfl⟩
    | _ => exact ⟨_, thread_openStream⟩

theorem thread_receiveStream : (b.receiveStream addr env).thread =
    b.thread.receiveStream addr (b.withBuffer { env with ok := true }) := by
  unfold receiveStream NetworkThread.receiveStream withBuffer getBuffer
  split
  · rfl
  · split
    · rfl
    · rcases b.bufferPool.getBuffer with ⟨_ | buffer, pool⟩
      · simp
      · simp only [Option.isSome_some, Bool.and_true, if_true]
        rfl

theorem thread_closeConnection : (b.closeConnection addr env).thread = b.thread.closeConnection addr env := by
  unfold closeConnection
  split
  · rename_i i hl
    split
    · rfl
    · rename_i hc
      unfold NetworkThread.closeConnection
      rw [hl]
      exact (if_neg hc).symm
  · rename_i hl
    unfold NetworkThread.closeConnection
    rw [hl]

theorem thread_handleClosedAck : (b.handleClosedAck addr).thread = b.thread.handleClosedAck addr := by
  unfold handleClosedAck NetworkThread.handleClosedAck
  rcases b.thread.addressMap.lookup addr with _ | i
  · rfl
  · exact apply_ite thread _ _ _

theorem thread_checkSoft {busy : Nat} (hs : b.checkSoftConnectionLimit busy env = some b') :
    b.thread.checkSoftConnectionLimit busy env = some b'.thread := by
  unfold checkSoftConnectionLimit at hs
  unfold NetworkThread.checkSoftConnectionLimit
  simp only at hs
  split at hs
  · rename_i hl
    rw [if_pos hl]
    obtain hf | ⟨i, hf⟩ := Option.eq_none_or_eq_some (b.thread.tokenMap.reverse.find? (b.thread.active busy))
    · rw [hf] at hs ⊢
      obtain rfl := Option.some.inj hs
      rfl
    · rw [hf] at hs ⊢
      obtain ⟨hne, hs⟩ := Option.ite_none_left_eq_some.mp hs
      obtain rfl := Option.some.inj hs
      simp only [if_neg hne, thread_closeConnection]
      rfl
  · rename_i hl
    obtain rfl := Option.some.inj hs
    rw [if_neg hl]

theorem thread_handleHello : (b.handleHello i addr env).thread = b.thread.handleHello i addr env := by
  unfold handleHello
  split
  · rename_i hb
    unfold NetworkThread.handleHello
    rw [if_pos hb]
    rfl
  · rfl

/-- The channel is registered under the address it is started with. -/
theorem startChannel_cases {id : SessionId} (hs : b.startChannel i addr id env = some b') :
    env.retriesLeft = true ∧ ∃ b₁,
      (b.on fun t => t.renameChannel i addr ((t.channel i).handleStart addr id (env.taken i))).checkSoftConnectionLimit i env
        = some b₁ ∧ b' = b₁.on (·.notifyNetworkStatus (.connectionEstablished addr id)) := by
  obtain ⟨_, hr, hs⟩ := Option.bind_eq_some_iff.mp hs
  obtain ⟨b₁, h₁, hs⟩ := Option.bind_eq_some_iff.mp hs
  refine ⟨?_, b₁, ?_, (Option.some.inj hs).symm⟩
  · cases hb : env.retriesLeft with
    | true => rfl
    | false => rw [hb] at hr; cases hr
  · simp only [NetworkThread.channel_reregister] at h₁
    exact h₁

theorem thread_startChannel {id : SessionId} (hs : b.startChannel i addr id env = some b') :
    b.thread.startChannel i addr id env = some b'.thread := by
  obtain ⟨hr, b₁, h₁, rfl⟩ := startChannel_cases hs
  simp only [NetworkThread.startChannel, hr, NetworkThread.channel_reregister]
  exact Option.bind_eq_some_iff.mpr ⟨(), rfl, Option.bind_eq_some_iff.mpr ⟨b₁.thread, thread_checkSoft h₁, rfl⟩⟩

/-- What a `Start` does to the channels and their buffers. -/
theorem handleStart_cases {id : SessionId} (hs : b.handleStart i addr id env = some b') :
    (b.thread.blockList.socketAddrIsBlocked addr = true ∧ b' = b.dropChannel i) ∨
      b.thread.blockList.socketAddrIsBlocked addr = false ∧
        (b.thread.addressMap.lookup addr = none ∧ b.startChannel i addr id env = some b' ∨
          ∃ other b₁, b.thread.addressMap.lookup addr = some other ∧ other ≠ i ∧
            b₁ = b.on (fun t => t.setChannel other ((t.channel other).readState env.error)) ∧
            (b.thread.yields addr id env.error = true ∧ b' = b₁.dropChannel i ∨
              b.thread.yields addr id env.error = false ∧
                ((b₁.thread.channel other).connected = true ∧
                    (b₁.on (·.lostConnection other env)).startChannel i addr id env = some b' ∨
                  (b₁.thread.channel other).connected = false ∧
                    (b₁.dropChannel other).startChannel i addr id env = some b'))) := by
  unfold handleStart at hs
  split at hs
  · exact .inl ⟨‹_›, (Option.some.inj hs).symm⟩
  rename_i hb
  refine .inr ⟨eq_false_of_ne_true hb, ?_⟩
  split at hs
  · exact .inl ⟨‹_›, hs⟩
  rename_i other hl
  split at hs
  · cases hs
  rename_i hne
  refine .inr ⟨other, _, hl, hne, rfl, ?_⟩
  have hc : ((b.on fun t => t.setChannel other ((t.channel other).readState env.error)).thread.channel other) =
      (b.thread.channel other).readState env.error := NetworkThread.channel_setChannel.trans (if_pos rfl)
  have hmsg : ((b.thread.channel other).readState env.error).messages = (b.thread.channel other).messages := by
    unfold TcpChannel.readState
    split
    · rfl
    · rfl
  simp only [hc, hmsg] at hs ⊢
  unfold NetworkThread.yields TcpChannel.connected
  rw [hl, Option.any_some]
  cases hst : ((b.thread.channel other).readState env.error).state with
  | connected addr' id' =>
    simp only [hst] at hs ⊢
    split at hs
    · exact .inl ⟨decide_eq_true ‹_›, (Option.some.inj hs).symm⟩
    · exact .inr ⟨decide_eq_false ‹_›, .inl ⟨rfl, hs⟩⟩
  | requested addr' id' =>
    simp only [hst] at hs ⊢
    split at hs
    · exact .inl ⟨decide_eq_true ‹_›, (Option.some.inj hs).symm⟩
    · exact .inr ⟨decide_eq_false ‹_›, .inr ⟨rfl, hs⟩⟩
  | initialised addr' id' =>
    simp only [hst] at hs ⊢
    split at hs
    · exact .inl ⟨decide_eq_true ‹_›, (Option.some.inj hs).symm⟩
    · exact .inr ⟨decide_eq_false ‹_›, .inr ⟨rfl, hs⟩⟩
  | _ =>
    simp only [hst] at hs ⊢
    exact .inr ⟨trivial, .inr ⟨rfl, hs⟩⟩

theorem thread_handleStart {id : SessionId} (hs : b.handleStart i addr id env = some b') :
    b.thread.handleStart i addr id env = some b'.thread := by
  rw [NetworkThread.handleStart_eq]
  rcases handleStart_cases hs with ⟨hb, rfl⟩ | ⟨hb, ⟨hl, hs⟩ | ⟨other, b₁, hl, hne, rfl, hs⟩⟩
  · rw [if_pos hb]
    rfl
  · rw [hb, if_neg Bool.false_ne_true, hl]
    exact thread_startChannel hs
  · rw [hb, if_neg Bool.false_ne_true, hl]
    simp only [if_neg hne]
    change _ ∧ _ = dropChannel _ _ ∨ _ ∧ (((b.thread.setChannel other _).channel other).connected = true ∧ _ ∨
      ((b.thread.setChannel other _).channel other).connected = false ∧ _) at hs
    rcases hs with ⟨hy, rfl⟩ | ⟨hy, ⟨hc, hs⟩ | ⟨hc, hs⟩⟩
    · rw [if_pos hy]
      rfl
    · replace hs := thread_startChannel hs
      rw [hy, if_neg Bool.false_ne_true, if_pos hc]
      simp only [thread_on] at hs
      exact hs
    · replace hs := thread_startChannel hs
      rw [hy, hc, if_neg Bool.false_ne_true, if_neg Bool.false_ne_true]
      simp only [thread_dropChannel, thread_on] at hs
      exact hs

theorem thread_handleAck (hs : b.handleAck i env = some b') : b.thread.handleAck i env = some b'.thread := by
  obtain ⟨b₁, h₁, hs⟩ := Option.bind_eq_some_iff.mp hs
  obtain ⟨id, hid, hs⟩ := Option.bind_eq_some_iff.mp hs
  obtain rfl := Option.some.inj hs
  exact Option.bind_eq_some_iff.mpr ⟨b₁.thread, thread_checkSoft h₁, Option.bind_eq_some_iff.mpr ⟨id, hid, rfl⟩⟩

theorem thread_handleBye : (b.handleBye i env).thread = b.thread.handleBye i env := by
  unfold handleBye NetworkThread.handleBye
  simp only
  show thread (match ((b.thread.setChannel i _).channel i).state with
    | .closed _ _ => _ | .closeReceived _ _ => _ | _ => _) = _
  cases ((b.thread.setChannel i ((b.thread.channel i).handleBye (env.taken i))).channel i).state with
  | _ => rfl

theorem thread_handleFrame {frame : NetFrame α} (hs : b.handleFrame i frame env = some b') :
    b.thread.handleFrame i frame env = some b'.thread := by
  cases frame with
  | data msg =>
    obtain ⟨t, ht, rfl⟩ := Option.map_eq_some_iff.mp hs
    exact ht
  | hello addr =>
    obtain rfl := Option.some.inj hs
    exact congrArg some thread_handleHello.symm
  | start addr id =>
    obtain ⟨b₁, h₁, rfl⟩ := Option.map_eq_some_iff.mp hs
    exact Option.map_eq_some_iff.mpr ⟨b₁.thread, thread_handleStart h₁, rfl⟩
  | ack => exact thread_handleAck hs
  | bye =>
    obtain rfl := Option.some.inj hs
    exact congrArg (fun t => some (NetworkThread.endRead t)) thread_handleBye.symm

theorem thread_dropBlocked : (b.dropBlocked addr).thread = b.thread.dropBlocked addr := by
  unfold dropBlocked NetworkThread.dropBlocked
  rcases b.thread.addressMap.lookup addr with _ | i
  · rfl
  · rfl

theorem thread_dropAll (addrs : List SocketAddr) (b : BufferedThread α) :
    (addrs.foldl dropBlocked b).thread = addrs.foldl NetworkThread.dropBlocked b.thread := by
  induction addrs generalizing b with
  | nil => rfl
  | cons a rest ih =>
    rw [List.foldl_cons, List.foldl_cons, ih, thread_dropBlocked]

theorem thread_blockIpAddr {ip : IpAddr} {order : List SocketAddr} :
    (b.blockIpAddr ip order).thread = b.thread.blockIpAddr ip order := by
  unfold blockIpAddr NetworkThread.blockIpAddr
  simp only
  split
  · exact congrArg (NetworkThread.notifyNetworkStatus · _) (thread_dropAll _ _)
  · rfl

theorem thread_blockIpNet {net : IpNet} {order : List SocketAddr} :
    (b.blockIpNet net order).thread = b.thread.blockIpNet net order :=
  congrArg (NetworkThread.notifyNetworkStatus · _) (thread_dropAll _ _)

theorem thread_blockSocketAddr : (b.blockSocketAddr addr).thread = b.thread.blockSocketAddr addr := by
  unfold blockSocketAddr NetworkThread.blockSocketAddr
  rcases b.thread.blockList.blockSocketAddr addr with ⟨_ | _, blockList⟩
  · rfl
  · show NetworkThread.notifyNetworkStatus (thread (match true, b.thread.addressMap.lookup addr with
      | true, some i => _ | _, _ => _)) _ = _
    simp only
    rcases b.thread.addressMap.lookup addr with _ | i
    · rfl
    · rfl

/-- The events of the dispatcher are handled as the thread handles them; whether there is a buffer is up to the pool. -/
theorem thread_handleDispatchEvent {ev : DispatchEvent (DispatchData α)} :
    ∃ ok, (b.handleDispatchEvent env ev).thread = b.thread.handleDispatchEvent { env with ok } ev := by
  cases ev with
  | connect addr =>
    obtain ⟨ok, h⟩ : ∃ ok, (b.requestStream addr env).thread = b.thread.requestStream addr { env with ok } :=
      thread_requestStream
    refine ⟨ok, ?_⟩
    unfold handleDispatchEvent NetworkThread.handleDispatchEvent
    simp only
    split
    · rfl
    · exact h
  | closedAck addr => exact ⟨env.ok, thread_handleClosedAck⟩
  | close addr => exact ⟨env.ok, thread_closeConnection⟩
  | blockSocket addr => exact ⟨env.ok, thread_blockSocketAddr⟩
  | blockIpAddr ip => exact ⟨env.ok, thread_blockIpAddr⟩
  | blockIpNet net => exact ⟨env.ok, thread_blockIpNet⟩
  | _ => exact ⟨env.ok, rfl⟩

theorem thread_swapInput (hs : b.swapInput i = some b') : b'.thread = b.thread := by
  unfold swapInput at hs
  split at hs
  · rename_i buffer b₁ hg
    obtain rfl := Option.some.inj hs
    exact congrArg (fun g => thread (Prod.snd g)) hg.symm
  · cases hs

theorem thread_swapUdp : b.swapUdp.thread = b.thread := by
  unfold swapUdp
  split
  · rename_i buffer b₁ hg
    exact congrArg (fun g => thread (Prod.snd g)) hg.symm
  · rename_i b₁ hg
    exact congrArg (fun g => thread (Prod.snd g)) hg.symm

/-- The same event, with or without a buffer. -/
def underPool (b : BufferedThread α) : NetworkThread.Action α → NetworkThread.Action α
  | .accept addr env => .accept addr (b.withBuffer { env with ok := true })
  | act => act

theorem thread_handleEvent {act : NetworkThread.Action α} (hs : b.handleEvent act = some b') :
    b.thread.step (b.underPool act) = some b'.thread := by
  cases act with
  | accept addr env =>
    obtain ⟨hr, hs⟩ := Option.ite_none_right_eq_some.mp hs
    obtain rfl := Option.some.inj hs
    simp only [underPool, NetworkThread.step, if_pos hr, thread_receiveStream]
  | read frame env =>
    obtain ⟨i, hi, hs⟩ := Option.bind_eq_some_iff.mp hs
    exact Option.bind_eq_some_iff.mpr ⟨i, hi, thread_handleFrame hs⟩
  | _ =>
    obtain ⟨t, ht, rfl⟩ := Option.map_eq_some_iff.mp hs
    exact ht

end BufferedThread

/-! ## Who has the chunks -/

namespace NetworkThread

variable {α : Type} {t t' : NetworkThread α} {a b : SocketAddr} {i j : Nat} {c : TcpChannel α} {env : Env}

/-- The channel is in one of the maps. -/
def Registered (t : NetworkThread α) (i : Nat) : Prop :=
  i ∈ t.tokenMap ∨ ∃ a ∈ t.addressMap.keys, t.addressMap.lookup a = some i

instance (t : NetworkThread α) : DecidablePred t.Registered :=
  fun i => inferInstanceAs (Decidable (i ∈ t.tokenMap ∨ ∃ a ∈ t.addressMap.keys, t.addressMap.lookup a = some i))

def registered (t : NetworkThread α) : List Nat := (List.range t.token).filter (t.Registered ·)

theorem nodup_registered : t.registered.Nodup := List.nodup_range.filter _

theorem Mapped.mem_registered (h : t.Mapped) : i ∈ t.registered ↔ ∃ a, t.addressMap.lookup a = some i := by
  unfold registered
  rw [List.mem_filter, List.mem_range, decide_eq_true_iff]
  constructor
  · rintro ⟨-, hi | ⟨a, -, ha⟩⟩
    · exact ⟨_, h.polled i hi⟩
    · exact ⟨a, ha⟩
  · rintro ⟨a, ha⟩
    exact ⟨h.fresh a i ha, .inr ⟨a, AssocMap.mem_keys_of_lookup ha, ha⟩⟩

/-- The same channels are registered. -/
theorem Mapped.perm_registered (h : t.Mapped) (h' : t'.Mapped)
    (hiff : ∀ j, (∃ a, t'.addressMap.lookup a = some j) ↔ ∃ a, t.addressMap.lookup a = some j) :
    t'.registered.Perm t.registered := by
  refine (List.perm_ext_iff_of_nodup nodup_registered nodup_registered).mpr (fun j => ?_)
  rw [h.mem_registered, h'.mem_registered]
  exact hiff j

/-- One more channel is registered. -/
theorem Mapped.perm_registered_cons (h : t.Mapped) (h' : t'.Mapped) (hi : ¬ ∃ a, t'.addressMap.lookup a = some i)
    (hiff : ∀ j, (∃ a, t.addressMap.lookup a = some j) ↔ j = i ∨ ∃ a, t'.addressMap.lookup a = some j) :
    t.registered.Perm (i :: t'.registered) := by
  have hnodup : (i :: t'.registered).Nodup := List.nodup_cons.mpr ⟨fun hm => hi (h'.mem_registered.mp hm), nodup_registered⟩
  refine (List.perm_ext_iff_of_nodup nodup_registered hnodup).mpr (fun j => ?_)
  rw [h.mem_registered, List.mem_cons, h'.mem_registered]
  exact hiff j

theorem Unmoved.registered (hu : Unmoved t t') (h : t.Mapped) : t'.registered.Perm t.registered :=
  h.perm_registered (hu.mapped h) (fun j => by rw [hu.addressMap])

theorem Mapped.registered_discard_perm (h : t.Mapped) (hi : t.addressMap.lookup (t.channel i).address = some i) :
    t.registered.Perm (i :: (t.discard i c).registered) := by
  have hown : ∀ j, t.addressMap.lookup (t.channel i).address = some j → j = i := h.lookup_own hi
  refine h.perm_registered_cons (h.discard hown) ?_ (fun j => ⟨?_, ?_⟩)
  · rintro ⟨a, ha⟩
    exact (h.registered_discard ha).2 rfl
  · rintro ⟨a, ha⟩
    by_cases hj : j = i
    · exact .inl hj
    · refine .inr ⟨a, ?_⟩
      rw [lookup_discard, if_neg]
      · exact ha
      · rintro rfl
        exact hj (hown j ha)
  · rintro (rfl | ⟨a, ha⟩)
    · exact ⟨_, hi⟩
    · exact ⟨a, (h.registered_discard ha).1⟩

theorem Mapped.registered_storeStream {st : ChannelState} (h : t.Mapped) (hb : t.addressMap.lookup b = none) :
    (t.storeStream b st env).registered.Perm (t.token :: t.registered) := by
  refine (h.storeStream (slot_of_none hb)).perm_registered_cons h ?_ (fun j => ⟨?_, ?_⟩)
  · rintro ⟨a, ha⟩
    exact Nat.lt_irrefl _ (h.fresh a _ ha)
  · rintro ⟨a, ha⟩
    rw [lookup_storeStream] at ha
    split at ha
    · exact .inl (Option.some.inj ha).symm
    · exact .inr ⟨a, ha⟩
  · rintro (rfl | ⟨a, ha⟩)
    · exact ⟨b, by rw [lookup_storeStream, if_pos rfl]⟩
    · refine ⟨a, ?_⟩
      rw [lookup_storeStream, if_neg]
      · exact ha
      · rintro rfl
        rw [hb] at ha
        cases ha

theorem Mapped.registered_renameChannel_perm (h : t.Mapped) (hi : i ∈ t.tokenMap)
    (hb : b = (t.channel i).address ∨ t.addressMap.lookup b = none) (hc : c.address = b) :
    (t.renameChannel i b c).registered.Perm t.registered := by
  have h' : (t.renameChannel i b c).Mapped := h.renameChannel hi (hb.imp_right slot_of_none) hc
  refine h.perm_registered h' (fun j => ⟨?_, ?_⟩)
  · rintro ⟨a, ha⟩
    rcases h.registered_renameChannel hi ha with ⟨-, rfl⟩ | ⟨-, ha⟩
    · exact ⟨_, h.polled j hi⟩
    · exact ⟨a, ha⟩
  · rintro ⟨a, ha⟩
    by_cases hj : j = i
    · exact ⟨b, by rw [h.lookup_renameChannel hi, if_pos rfl, hj]⟩
    · have hne : a ≠ (t.channel i).address := by
        rintro rfl
        exact hj (h.lookup_unique hi j ha)
      refine ⟨a, ?_⟩
      rw [h.lookup_renameChannel hi, if_neg, if_neg hne]
      · exact ha
      · rintro rfl
        rcases hb with hb | hb
        · exact hne hb
        · rw [hb] at ha
          cases ha

/-- A channel that is not registered changes. -/
theorem Mapped.setChannel_unregistered (h : t.Mapped) (hn : t.addressMap.lookup (t.channel i).address = none) :
    (t.setChannel i c).Mapped ∧ (t.setChannel i c).registered.Perm t.registered := by
  have h' : (t.setChannel i c).Mapped := h.setUnregistered (h.unregistered hn)
  exact ⟨h', h.perm_registered h' (fun _ => Iff.rfl)⟩

end NetworkThread

namespace BufferedThread

variable {α : Type} {b b' : BufferedThread α} {a addr : SocketAddr} {i j size : Nat} {env : Env}
  {t : NetworkThread α} {c : BufferChunk}

/-- The chunks that are not in the pool: that of the UDP state, and those of the channels in one of the maps. -/
def taken (b : BufferedThread α) : List BufferChunk := b.udp :: b.thread.registered.map b.input

/-- The maps agree, and all chunks are in the pool or have an owner. -/
structure Sound (b : BufferedThread α) (size : Nat) : Prop where
  mapped : b.thread.Mapped
  balances : b.bufferPool.Balances size b.taken

/-- The same channels are registered. -/
theorem Sound.thread (h : b.Sound size) (hm : t.Mapped) (hp : t.registered.Perm b.thread.registered) :
    Sound { b with thread := t } size :=
  ⟨hm, h.balances.perm ((hp.symm.map b.input).cons b.udp |>.map _)⟩

theorem Sound.unmoved (h : b.Sound size) (hu : b.thread.Unmoved t) : Sound { b with thread := t } size :=
  h.thread (hu.mapped h.mapped) (hu.registered h.mapped)

/-- The chunk of a channel that is not registered is nobody's. -/
theorem map_update_input {l : List Nat} (hi : i ∉ l) : l.map (Function.update b.input i c) = l.map b.input := by
  refine List.map_congr_left (fun j hj => Function.update_of_ne ?_ _ _)
  rintro rfl
  exact hi hj

/-! ## Dropping, storing and swapping -/

theorem Sound.dropChannel (h : b.Sound size) (hi : b.thread.addressMap.lookup (b.thread.channel i).address = some i) :
    (b.dropChannel i).Sound size := by
  have hd : (b.thread.dropChannel i).Mapped := by
    rw [NetworkThread.dropChannel_eq]
    exact h.mapped.discard (h.mapped.lookup_own hi)
  have hp : b.thread.registered.Perm (i :: (b.thread.dropChannel i).registered) := h.mapped.registered_discard_perm hi
  have hni : i ∉ (b.thread.dropChannel i).registered :=
    (List.nodup_cons.mp (hp.nodup_iff.mp NetworkThread.nodup_registered)).1
  -- the chunk of the channel is the one that is returned
  have hout : b.bufferPool.Balances size
      (b.input i :: b.udp :: (b.thread.dropChannel i).registered.map (Function.update b.input i .dummy)) := by
    rw [map_update_input hni]
    exact h.balances.perm ((((hp.map b.input).cons b.udp).trans (.swap _ _ _)).map _)
  exact ⟨hd, hout.returnBuffer rfl⟩

/-- Whatever is registered for the address is dropped. -/
theorem Sound.dropRegistered (h : b.Sound size) (ha : b.thread.addressMap.lookup a = some i) :
    (b.dropChannel i).Sound size ∧ (b.dropChannel i).thread.addressMap.lookup a = none := by
  have hk := h.mapped.key a i ha
  refine ⟨h.dropChannel (by rw [hk]; exact ha), ?_⟩
  rw [thread_dropChannel, NetworkThread.dropChannel_eq, NetworkThread.lookup_discard, if_pos hk.symm]

theorem getBuffer_eq {pool : BufferPool} {buffer : Option BufferChunk} (hg : b.bufferPool.getBuffer = (buffer, pool)) :
    b.getBuffer = (buffer, { b with bufferPool := pool }) := by
  unfold getBuffer
  rw [hg]

theorem Sound.storeStream {st : ChannelState} {pool : BufferPool} (h : b.Sound size)
    (hg : b.bufferPool.getBuffer = (some c, pool)) (ha : b.thread.addressMap.lookup addr = none) :
    (storeStream { b with bufferPool := pool } addr st c env).Sound size := by
  have hp : (b.thread.storeStream addr st env).registered.Perm (b.thread.token :: b.thread.registered) :=
    h.mapped.registered_storeStream ha
  have hn : b.thread.token ∉ b.thread.registered := by
    intro hm
    obtain ⟨a, hl⟩ := h.mapped.mem_registered.mp hm
    exact Nat.lt_irrefl _ (h.mapped.fresh a _ hl)
  have hp' : ((b.thread.storeStream addr st env).registered.map (Function.update b.input b.thread.token c)).Perm
      (c :: b.thread.registered.map b.input) := by
    refine (hp.map _).trans (List.Perm.of_eq ?_)
    rw [List.map_cons, Function.update_self, map_update_input hn]
  exact ⟨h.mapped.storeStream (NetworkThread.slot_of_none ha),
    (h.balances.getBuffer hg).perm (((List.Perm.swap _ _ _).trans (hp'.symm.cons b.udp)).map _)⟩

/-- A pool that has nothing to hand out stays as it is. -/
theorem Sound.noBuffer {pool : BufferPool} (h : b.Sound size) (hg : b.bufferPool.getBuffer = (none, pool)) :
    Sound { b with bufferPool := pool } size := by
  have hr := b.bufferPool.reclaims
  rw [show b.bufferPool.tryReclaim = (none, pool) from hg] at hr
  cases hr with
  | exhausted _ _ => exact h

theorem Sound.swapInput (h : b.Sound size) (hi : i ∈ b.thread.registered) (hs : b.swapInput i = some b') :
    b'.Sound size := by
  unfold BufferedThread.swapInput at hs
  rcases hg : b.bufferPool.getBuffer with ⟨_ | c, pool⟩
  · rw [getBuffer_eq hg] at hs
    cases hs
  · rw [getBuffer_eq hg] at hs
    obtain rfl := Option.some.inj hs
    refine ⟨h.mapped, BufferPool.Balances.returnBuffer (b := b.input i) ?_ rfl⟩
    refine (h.balances.getBuffer hg).perm (List.Perm.map _ ?_)
    show (c :: b.udp :: b.thread.registered.map b.input).Perm
      (b.input i :: b.udp :: b.thread.registered.map (Function.update b.input i c))
    have hp := List.perm_cons_erase hi
    have hni : i ∉ b.thread.registered.erase i := NetworkThread.nodup_registered.not_mem_erase
    have hnew : (b.thread.registered.map (Function.update b.input i c)).Perm
        (c :: (b.thread.registered.erase i).map b.input) := by
      refine (hp.map _).trans (List.Perm.of_eq ?_)
      rw [List.map_cons, Function.update_self, map_update_input hni]
    refine (((hp.map b.input).cons b.udp).cons c).trans ?_
    refine ((List.Perm.swap _ _ _).trans ((List.Perm.swap _ _ _).cons _)).trans ?_
    exact (List.Perm.swap _ _ _).trans ((hnew.symm.cons _).cons _)

theorem Sound.swapUdp (h : b.Sound size) : b.swapUdp.Sound size := by
  unfold BufferedThread.swapUdp
  rcases hg : b.bufferPool.getBuffer with ⟨_ | c, pool⟩
  · rw [getBuffer_eq hg]
    exact h.noBuffer hg
  · rw [getBuffer_eq hg]
    refine ⟨h.mapped, BufferPool.Balances.returnBuffer (b := b.udp) ?_ rfl⟩
    exact (h.balances.getBuffer hg).perm ((List.Perm.swap _ _ _).map _)

theorem Sound.mapChunks {f : BufferChunk → BufferChunk} (h : b.Sound size) (hf : ∀ c, (f c).key = c.key) :
    (b.mapChunks f).Sound size := by
  refine ⟨h.mapped, ?_⟩
  have hb := h.balances.mapChunks hf
  rw [taken, List.map_cons, List.map_map] at hb
  exact hb

/-! ## Opening and closing -/

theorem Sound.openStream (h : b.Sound size) (ha : b.thread.addressMap.lookup addr = none) :
    (b.openStream addr env).Sound size := by
  unfold BufferedThread.openStream
  split
  · exact h.unmoved NetworkThread.unmoved_notify
  · rcases hg : b.bufferPool.getBuffer with ⟨_ | c, pool⟩
    · rw [getBuffer_eq hg]
      exact h.noBuffer hg
    · rw [getBuffer_eq hg]
      simp only
      split
      · exact h.storeStream hg ha
      · exact ⟨h.mapped, (h.balances.getBuffer hg).returnBuffer rfl⟩

theorem Sound.requestStream (h : b.Sound size) : (b.requestStream addr env).Sound size := by
  unfold BufferedThread.requestStream
  split
  · rename_i i hl
    split
    · exact h
    · exact h
    · obtain ⟨hd, hn⟩ := h.dropRegistered hl
      exact hd.openStream hn
  · exact h.openStream ‹_›

theorem Sound.receiveStream (h : b.Sound size)
    (ha : b.thread.accepts addr (b.withBuffer { env with ok := true }) = true → b.thread.addressMap.lookup addr = none) :
    (b.receiveStream addr env).Sound size := by
  unfold BufferedThread.receiveStream
  split
  · exact h
  rename_i hblk
  split
  · exact h.unmoved NetworkThread.unmoved_notify
  rename_i hlim
  rcases hg : b.bufferPool.getBuffer with ⟨_ | c, pool⟩
  · rw [getBuffer_eq hg]
    exact h.noBuffer hg
  · rw [getBuffer_eq hg]
    refine h.storeStream hg (ha ?_)
    unfold NetworkThread.accepts withBuffer
    simp [hblk, hlim, hg]

theorem Sound.closeConnection (h : b.Sound size) : (b.closeConnection addr env).Sound size := by
  unfold BufferedThread.closeConnection
  split
  · rename_i i hl
    split
    · rename_i hc
      have hu : b.thread.Unmoved (b.thread.closeConnection addr env) := by
        unfold NetworkThread.closeConnection
        rw [hl]
        simp only [hc, if_true]
        exact (NetworkThread.unmoved_setChannel (TcpChannel.unmoved_graceful _)).trans NetworkThread.unmoved_updateLru
      exact h.unmoved hu
    · exact (h.dropRegistered hl).1
  · exact h

theorem Sound.handleClosedAck (h : b.Sound size) : (b.handleClosedAck addr).Sound size := by
  unfold BufferedThread.handleClosedAck
  split
  · rename_i i hl
    split
    · exact h
    · exact (h.dropRegistered hl).1
  · exact h

theorem Sound.checkSoft {busy : Nat} (h : b.Sound size) (hs : b.checkSoftConnectionLimit busy env = some b') :
    b'.Sound size := by
  unfold checkSoftConnectionLimit at hs
  simp only at hs
  split at hs
  · split at hs
    · split at hs
      · cases hs
      · obtain rfl := Option.some.inj hs
        have hn : Sound (b.on (·.notifyNetworkStatus .softConnectionLimitExceeded)) size :=
          h.unmoved NetworkThread.unmoved_notify
        exact hn.closeConnection
    · obtain rfl := Option.some.inj hs
      exact h
  · obtain rfl := Option.some.inj hs
    exact h

/-! ## Frames -/

/-- A `Bye` closes the channel, now or later. -/
theorem handleBye_established {c : TcpChannel α} {n : Nat} (h : c.state.isEstablished = true) :
    ∃ addr id, (c.handleBye n).state = .closed addr id ∨ (c.handleBye n).state = .closeReceived addr id := by
  unfold TcpChannel.handleBye
  cases hst : c.state with
  | connected addr id =>
    refine ⟨addr, id, ?_⟩
    simp only
    split
    · exact .inl rfl
    · exact .inr rfl
  | closeRequested addr id => exact ⟨addr, id, .inl rfl⟩
  | closeReceived addr id => exact ⟨addr, id, .inr hst⟩
  | closed addr id => exact ⟨addr, id, .inl hst⟩
  | _ => rw [hst] at h; cases h

theorem Sound.startChannel {id : SessionId} (h : b.Sound size)
    (hi : i ∈ b.thread.tokenMap ∧ (b.thread.channel i).state = .initialising ∧ b.thread.addressMap.lookup addr = none ∨
      b.thread.addressMap.lookup (b.thread.channel i).address = none)
    (hs : b.startChannel i addr id env = some b') : b'.Sound size := by
  obtain ⟨-, b₁, h₁, rfl⟩ := startChannel_cases hs
  have hr : Sound (b.on fun t => t.renameChannel i addr ((t.channel i).handleStart addr id (env.taken i))) size := by
    rcases hi with ⟨hi, hst, ha⟩ | hn
    · have hc := (NetworkThread.handleStart_spec (b := addr) hst id (env.taken i)).1
      exact h.thread (h.mapped.renameChannel hi (.inr (NetworkThread.slot_of_none ha)) hc)
        (h.mapped.registered_renameChannel_perm hi (.inr ha) hc)
    · show Sound { b with thread := b.thread.renameChannel i addr _ } size
      rw [NetworkThread.renameChannel_unregistered hn]
      obtain ⟨hm, hp⟩ := h.mapped.setChannel_unregistered hn
        (c := (b.thread.channel i).handleStart addr id (env.taken i))
      exact h.thread hm hp
  exact (hr.checkSoft h₁).unmoved NetworkThread.unmoved_notify

/-- A frame that drops the channel comes to one that is still polled; one that
registers it for another address finds nothing registered there, or something
that is dropped. -/
def FrameKeeps (t : NetworkThread α) (i : Nat) (env : Env) : NetFrame α → Prop
  | .hello addr =>
    if t.blockList.socketAddrIsBlocked addr then i ∈ t.tokenMap
    else if i ∈ t.tokenMap then
      addr = (t.channel i).address ∨ (t.channel i).state.isRequested = true ∧ t.addressMap.lookup addr = none
    else (t.channel i).state.isRequested = true → t.addressMap.lookup addr = none
  | .start addr id =>
    if t.blockList.socketAddrIsBlocked addr || t.yields addr id env.error then i ∈ t.tokenMap
    else i ∈ t.tokenMap → (t.channel i).state = .initialising ∧
      ∀ other ∈ t.addressMap.lookup addr, ((t.channel other).readState env.error).connected = false
  | .bye => i ∈ t.tokenMap ∨ (t.channel i).state.isEstablished = true
  | .data _ => True
  | .ack => True

theorem FrameKeeps.frameSafe {frame : NetFrame α} (h : FrameKeeps t i env frame) : t.FrameSafe i env frame := by
  cases frame with
  | hello addr =>
    simp only [FrameKeeps] at h
    split at h
    · exact .inl ‹_›
    split at h
    · exact .inr (.inl ⟨‹_›, h.imp_right (And.imp_right NetworkThread.slot_of_none)⟩)
    · exact .inr (.inr ⟨‹_›, h⟩)
  | start addr id =>
    simp only [FrameKeeps] at h
    split at h
    · rename_i hb
      rcases (Bool.or_eq_true _ _).mp hb with hb | hb
      · exact .inl hb
      · exact .inr (.inl hb)
    · by_cases hi : i ∈ t.tokenMap
      · exact .inr (.inr (.inr (h hi).1))
      · exact .inr (.inr (.inl hi))
  | _ => trivial

theorem Sound.handleHello (h : b.Sound size) (hr : b.thread.Reader) (hi : i ∈ b.thread.reading)
    (ho : FrameKeeps b.thread i env (.hello addr)) : (b.handleHello i addr env).Sound size := by
  simp only [FrameKeeps] at ho
  unfold BufferedThread.handleHello
  split
  · rename_i hb
    rw [if_pos hb] at ho
    exact h.dropChannel (h.mapped.polled i ho)
  · rename_i hb
    rw [if_neg hb] at ho
    show Sound { b with thread := b.thread.handleHello i addr env } size
    rw [NetworkThread.handleHello_eq, if_neg hb]
    by_cases hm : i ∈ b.thread.tokenMap
    · rw [if_pos hm] at ho
      have hc : ((b.thread.channel i).handleHello addr (env.taken i)).address = addr := by
        rcases NetworkThread.handleHello_spec (c := b.thread.channel i) (b := addr) (env.taken i) with
          ⟨-, ha, -⟩ | ⟨hn, hc⟩
        · exact ha
        · rw [hc]
          rcases ho with ho | ⟨hq, -⟩
          · exact ho.symm
          · rw [hn] at hq
            cases hq
      have ha : addr = (b.thread.channel i).address ∨ b.thread.addressMap.lookup addr = none := ho.imp_right And.right
      exact h.thread (h.mapped.renameChannel hm (ha.imp_right NetworkThread.slot_of_none) hc)
        (h.mapped.registered_renameChannel_perm hm ha hc)
    · have hn : b.thread.addressMap.lookup (b.thread.channel i).address = none := (hr i hi).resolve_left hm
      rw [NetworkThread.renameChannel_unregistered hn]
      obtain ⟨hm', hp⟩ := h.mapped.setChannel_unregistered hn
        (c := (b.thread.channel i).handleHello addr (env.taken i))
      exact h.thread hm' hp

theorem Sound.handleStart {id : SessionId} (h : b.Sound size) (hr : b.thread.Reader) (hi : i ∈ b.thread.reading)
    (ho : FrameKeeps b.thread i env (.start addr id)) (hs : b.handleStart i addr id env = some b') : b'.Sound size := by
  simp only [FrameKeeps] at ho
  rcases handleStart_cases hs with ⟨hb, rfl⟩ | ⟨hb, hs⟩
  · rw [hb, Bool.true_or, if_pos rfl] at ho
    exact h.dropChannel (h.mapped.polled i ho)
  rw [hb, Bool.false_or] at ho
  rcases hs with ⟨hl, hs⟩ | ⟨other, b₁, hl, hne, hb₁, hs⟩
  · have hy : b.thread.yields addr id env.error = false := by
      unfold NetworkThread.yields
      rw [hl]
      rfl
    rw [hy, if_neg Bool.false_ne_true] at ho
    refine h.startChannel ?_ hs
    exact (hr i hi).imp_left (fun hm => ⟨hm, (ho hm).1, hl⟩)
  · have hu : b.thread.Unmoved b₁.thread := hb₁ ▸ NetworkThread.unmoved_setChannel (TcpChannel.unmoved_readState _)
    have h₁ : b₁.Sound size := hb₁ ▸ h.unmoved (NetworkThread.unmoved_setChannel (TcpChannel.unmoved_readState _))
    have hc : b₁.thread.channel i = b.thread.channel i := by
      rw [hb₁, thread_on, NetworkThread.channel_setChannel, if_neg (Ne.symm hne)]
    have hm₁ : b₁.thread.tokenMap = b.thread.tokenMap := by rw [hb₁]; rfl
    rcases hs with ⟨hy, rfl⟩ | ⟨hy, ⟨hconn, hs⟩ | ⟨-, hs⟩⟩
    · rw [hy, if_pos rfl] at ho
      exact h₁.dropChannel (h₁.mapped.polled i (hm₁ ▸ ho))
    · -- a channel that is still polled does not take the place of one that is lost
      rw [hy, if_neg Bool.false_ne_true] at ho
      have hm : i ∉ b.thread.tokenMap := by
        intro hm
        have hoc := (ho hm).2 other hl
        rw [hb₁, thread_on, NetworkThread.channel_setChannel, if_pos rfl, hoc] at hconn
        cases hconn
      have hlost : b₁.thread.Unmoved (b₁.thread.lostConnection other env) := NetworkThread.unmoved_lostConnection
      refine (h₁.unmoved hlost).startChannel (.inr ?_) hs
      show (NetworkThread.addressMap _).lookup _ = none
      rw [hlost.addressMap, (hlost.channel i).address, hc, hu.addressMap]
      exact (hr i hi).resolve_left hm
    · rw [hy, if_neg Bool.false_ne_true] at ho
      obtain ⟨h₂, hn₂⟩ := h₁.dropRegistered (hu.addressMap ▸ hl)
      have hc₂ : (b₁.dropChannel other).thread.channel i = b.thread.channel i := by
        rw [thread_dropChannel, NetworkThread.dropChannel_eq, NetworkThread.channel_discard, if_neg (Ne.symm hne), hc]
      refine h₂.startChannel ?_ hs
      rw [hc₂]
      refine (hr i hi).imp (fun hm => ⟨?_, (ho hm).1, hn₂⟩) (fun hn => ?_)
      · exact NetworkThread.mem_discard.mpr ⟨hm₁ ▸ hm, Ne.symm hne⟩
      · rw [thread_dropChannel, NetworkThread.dropChannel_eq, NetworkThread.lookup_discard, hu.addressMap, hn]
        exact ite_self _

theorem Sound.handleAck (h : b.Sound size) (hs : b.handleAck i env = some b') : b'.Sound size := by
  obtain ⟨b₁, h₁, hs⟩ := Option.bind_eq_some_iff.mp hs
  obtain ⟨id, -, hs⟩ := Option.bind_eq_some_iff.mp hs
  obtain rfl := Option.some.inj hs
  have ha : Sound (b.on fun t => t.setChannel i (t.channel i).handleAck) size :=
    h.unmoved (NetworkThread.unmoved_setChannel TcpChannel.unmoved_handleAck)
  exact (ha.checkSoft h₁).unmoved NetworkThread.unmoved_notify

theorem Sound.handleBye (h : b.Sound size) (ho : FrameKeeps b.thread i env .bye) : (b.handleBye i env).Sound size := by
  have hu : b.thread.Unmoved (b.thread.setChannel i ((b.thread.channel i).handleBye (env.taken i))) :=
    NetworkThread.unmoved_setChannel (TcpChannel.unmoved_handleBye _)
  have h₁ : Sound (b.on fun t => t.setChannel i ((t.channel i).handleBye (env.taken i))) size := h.unmoved hu
  have hc : (b.on fun t => t.setChannel i ((t.channel i).handleBye (env.taken i))).thread.channel i =
      (b.thread.channel i).handleBye (env.taken i) := NetworkThread.channel_setChannel.trans (if_pos rfl)
  unfold BufferedThread.handleBye
  simp only
  split
  · exact h₁.unmoved ((NetworkThread.unmoved_deregister.trans NetworkThread.unmoved_notify).trans
      NetworkThread.unmoved_rejectOutbound)
  · exact h₁
  · rename_i hn hn'
    rw [hc] at hn hn'
    have hm : i ∈ b.thread.tokenMap := by
      refine ho.resolve_right (fun he => ?_)
      obtain ⟨addr, id, hc | hc⟩ := handleBye_established he
      · exact hn addr id hc
      · exact hn' addr id hc
    exact h₁.dropChannel (h₁.mapped.polled i hm)

theorem Sound.handleFrame {frame : NetFrame α} (h : b.Sound size) (hr : b.thread.Reader) (hi : i ∈ b.thread.reading)
    (ho : FrameKeeps b.thread i env frame) (hs : b.handleFrame i frame env = some b') : b'.Sound size := by
  have hend : ∀ {b : BufferedThread α}, b.Sound size → (b.on .endRead).Sound size :=
    fun h => h.unmoved ⟨rfl, rfl, rfl, fun _ hm => hm, fun _ => .refl _⟩
  cases frame with
  | data msg =>
    obtain ⟨t, ht, rfl⟩ := Option.map_eq_some_iff.mp hs
    exact h.unmoved (NetworkThread.unmoved_handleData ht)
  | hello addr =>
    obtain rfl := Option.some.inj hs
    exact h.handleHello hr hi ho
  | start addr id =>
    obtain ⟨b₁, h₁, rfl⟩ := Option.map_eq_some_iff.mp hs
    exact hend (h.handleStart hr hi ho h₁)
  | ack => exact h.handleAck hs
  | bye =>
    obtain rfl := Option.some.inj hs
    exact hend (h.handleBye ho)

/-! ## Events of the dispatcher -/

theorem Sound.blockList {blockList : BlockList} (h : b.Sound size) : (b.on ({ · with blockList })).Sound size := by
  have hm : NetworkThread.Mapped { b.thread with blockList } := ⟨h.mapped.key, h.mapped.polled, h.mapped.fresh⟩
  exact h.thread hm (h.mapped.perm_registered hm (fun _ => Iff.rfl))

theorem Sound.dropBlocked (h : b.Sound size) : (b.dropBlocked addr).Sound size := by
  unfold BufferedThread.dropBlocked
  split
  · rename_i i hl
    have hn : Sound (b.on fun t =>
        if (t.channel i).connected then t.notifyNetworkStatus (.connectionDropped addr) else t) size := by
      refine h.unmoved ?_
      show NetworkThread.Unmoved _ (if _ then _ else _)
      split
      · exact NetworkThread.unmoved_notify
      · exact .refl _
    refine (hn.dropRegistered (a := addr) ?_).1
    show (NetworkThread.addressMap (if _ then _ else _)).lookup addr = some i
    split
    · exact hl
    · exact hl
  · exact h

theorem Sound.dropAll {addrs : List SocketAddr} (h : b.Sound size) : (addrs.foldl BufferedThread.dropBlocked b).Sound size := by
  induction addrs generalizing b with
  | nil => exact h
  | cons a rest ih => exact ih h.dropBlocked

theorem Sound.handleDispatchEvent {ev : DispatchEvent (DispatchData α)} (h : b.Sound size) :
    (b.handleDispatchEvent env ev).Sound size := by
  have hnotify : ∀ {b : BufferedThread α} {status : NetworkStatus}, b.Sound size →
      (b.on (·.notifyNetworkStatus status)).Sound size := fun h => h.unmoved NetworkThread.unmoved_notify
  cases ev with
  | sendTcp addr data => exact h.unmoved NetworkThread.unmoved_sendTcpMessage
  | connect addr =>
    unfold BufferedThread.handleDispatchEvent
    simp only
    split
    · exact h
    · exact h.requestStream
  | closedAck addr => exact h.handleClosedAck
  | close addr => exact h.closeConnection
  | blockSocket addr =>
    refine hnotify ?_
    split
    · exact ((h.blockList).dropRegistered ‹_›).1
    · exact h.blockList
  | blockIpAddr ip =>
    refine hnotify ?_
    split
    · exact h.blockList.dropAll
    · exact h
  | blockIpNet net => exact hnotify h.blockList.dropAll
  | allowSocket addr =>
    show Sound { b with thread := b.thread.allowSocketAddr addr } size
    unfold NetworkThread.allowSocketAddr
    simp only
    split
    · exact hnotify h.blockList
    · exact h.blockList
  | allowIpAddr ip => exact hnotify h.blockList
  | allowIpNet net => exact hnotify h.blockList

/-! ## Whole runs -/

/-- No channel is dropped or read on after it was dropped, and none takes the
registration of a channel that still has its chunk. -/
def Keeps (b : BufferedThread α) : Action α → Prop
  | .network (.accept addr env) =>
    b.thread.accepts addr (b.withBuffer { env with ok := true }) = true → b.thread.addressMap.lookup addr = none
  | .network (.read frame env) => ∀ i ∈ b.thread.reading, FrameKeeps b.thread i env frame
  | .swap => ∀ i ∈ b.thread.reading, i ∈ b.thread.tokenMap
  | _ => True

theorem Keeps.actionSafe {act : NetworkThread.Action α} (h : b.Keeps (.network act)) :
    b.thread.ActionSafe (b.underPool act) := by
  cases act with
  | accept addr env => exact fun ha => NetworkThread.slot_of_none (h ha)
  | read frame env => exact fun i hi => (h i hi).frameSafe
  | _ => trivial

/-- Events that neither accept nor read leave the registrations alone. -/
theorem unmoved_step {t' : NetworkThread α} {act : NetworkThread.Action α} (ha : ∀ addr env, act ≠ .accept addr env)
    (hr : ∀ frame env, act ≠ .read frame env) (hs : t.step act = some t') : t.Unmoved t' := by
  have hread : ∀ {t : NetworkThread α} {reading : Option Nat}, t.Unmoved { t with reading } :=
    ⟨rfl, rfl, rfl, fun _ hm => hm, fun _ => .refl _⟩
  cases act with
  | accept addr env => exact absurd rfl (ha addr env)
  | read frame env => exact absurd rfl (hr frame env)
  | write i res env =>
    obtain ⟨-, -, rfl⟩ := NetworkThread.step_write hs
    exact NetworkThread.unmoved_writeTcp
  | beginRead i =>
    obtain ⟨-, -, rfl⟩ := NetworkThread.step_beginRead hs
    exact NetworkThread.unmoved_updateLru.trans hread
  | endRead =>
    obtain ⟨i, -, rfl⟩ := Option.map_eq_some_iff.mp hs
    exact hread
  | resetRead env =>
    obtain ⟨i, -, rfl⟩ := Option.map_eq_some_iff.mp hs
    exact NetworkThread.unmoved_lostConnection.trans hread
  | noBuffers env =>
    obtain ⟨i, -, rfl⟩ := Option.map_eq_some_iff.mp hs
    split
    · exact hread
    · exact (NetworkThread.unmoved_updateLru.trans NetworkThread.unmoved_lostConnection).trans hread

theorem Sound.handleEvent {act : NetworkThread.Action α} (h : b.Sound size) (hr : b.thread.Reader)
    (ho : b.Keeps (.network act)) (hs : b.handleEvent act = some b') : b'.Sound size := by
  cases act with
  | accept addr env =>
    obtain ⟨-, hs⟩ := Option.ite_none_right_eq_some.mp hs
    obtain rfl := Option.some.inj hs
    exact h.receiveStream ho
  | read frame env =>
    obtain ⟨i, hi, hs⟩ := Option.bind_eq_some_iff.mp hs
    exact h.handleFrame hr hi (ho i hi) hs
  | _ =>
    obtain ⟨t, ht, rfl⟩ := Option.map_eq_some_iff.mp hs
    exact h.unmoved (unmoved_step (fun _ _ he => by cases he) (fun _ _ he => by cases he) ht)

/-- The invariant of the runs. -/
structure Guarded (b : BufferedThread α) (size : Nat) : Prop where
  reader : b.thread.Reader
  sound : b.Sound size

theorem Guarded.step {act : Action α} (h : b.Guarded size) (ho : b.Keeps act) (hs : b.step act = some b') :
    b'.Guarded size := by
  have hsame : b'.thread = b.thread → b'.Sound size → b'.Guarded size := by
    intro ht hb
    exact ⟨ht ▸ h.reader, hb⟩
  cases act with
  | dispatch ev env =>
    obtain ⟨hg, hs⟩ := Option.ite_none_right_eq_some.mp hs
    obtain rfl := Option.some.inj hs
    obtain ⟨ok, ht⟩ : ∃ ok, (b.handleDispatchEvent env ev).thread =
        b.thread.handleDispatchEvent { env with ok } ev := thread_handleDispatchEvent
    refine ⟨fun i hi => ?_, h.sound.handleDispatchEvent⟩
    rw [ht, NetworkThread.reading_handleDispatchEvent, hg.1] at hi
    cases hi
  | network act =>
    obtain ⟨-, hr⟩ := h.sound.mapped.step h.reader ho.actionSafe (thread_handleEvent hs)
    exact ⟨hr, h.sound.handleEvent h.reader ho hs⟩
  | swap =>
    obtain ⟨i, hi, hs⟩ := Option.bind_eq_some_iff.mp hs
    have hreg : i ∈ b.thread.registered := h.sound.mapped.mem_registered.mpr ⟨_, h.sound.mapped.polled i (ho i hi)⟩
    exact hsame (thread_swapInput hs) (h.sound.swapInput hreg hs)
  | swapUdp =>
    obtain ⟨-, hs⟩ := Option.ite_none_right_eq_some.mp hs
    obtain rfl := Option.some.inj hs
    exact hsame thread_swapUdp h.sound.swapUdp
  | cloneLock c =>
    obtain rfl := Option.some.inj hs
    exact hsame rfl (h.sound.mapChunks (BufferChunk.key_cloneLock c))
  | dropLock c =>
    obtain rfl := Option.some.inj hs
    exact hsame rfl (h.sound.mapChunks (BufferChunk.key_dropLock c))

theorem new_ok {cfg : PoolConfig} {soft hard : Nat} (h : new addr soft hard cfg = .ok b) :
    ∃ pool udp pool', BufferPool.withConfig cfg = .ok pool ∧ pool.getBuffer = (some udp, pool') ∧
      b = ⟨.new addr soft hard, pool', fun _ => .dummy, udp⟩ := by
  unfold new at h
  cases hp : BufferPool.withConfig cfg with
  | error e => rw [hp] at h; cases h
  | ok pool =>
    rw [hp] at h
    change (match pool.getBuffer with
      | (some udp, bufferPool) => _
      | (none, _) => _) = _ at h
    split at h
    · rename_i udp pool' hg
      exact ⟨pool, udp, pool', rfl, hg, (Except.ok.inj h).symm⟩
    · cases h

theorem guarded_new {cfg : PoolConfig} {soft hard : Nat} (h : new addr soft hard cfg = .ok b) :
    b.Guarded cfg.chunkSize := by
  obtain ⟨pool, udp, pool', hp, hg, rfl⟩ := new_ok h
  have ht : (NetworkThread.new addr soft hard : NetworkThread α).Mapped := NetworkThread.mapped_of_empty rfl rfl
  exact ⟨(fun i hi => by cases hi), ht, (BufferPool.balances_withConfig hp).getBuffer hg⟩

/-- Every chunk that was allocated is, once, in the pool, in the UDP state or in a channel in one of the maps; and
those in the pool can be received into. -/
structure Conserved (b : BufferedThread α) (cfg : PoolConfig) : Prop where
  owned : ((b.bufferPool.pool ++ b.taken).map (·.chunk)).Perm (List.range' 1 (b.bufferPool.nextChunk - 1))
  size : ∀ c ∈ b.bufferPool.pool, c.len = cfg.chunkSize
  usable : ∀ c, b.bufferPool.getBuffer.1 = some c → (DecodeBuffer.new c cfg.toBufferConfig).isWriteable = true

/-- In every run of such steps the chunks of the pool are conserved. -/
theorem conserved_of_keeps {cfg : PoolConfig} {soft hard : Nat} {b₀ : BufferedThread α}
    (h₀ : new addr soft hard cfg = .ok b₀) (h : Reach step Keeps b₀ b) : b.Conserved cfg := by
  have hg : b.Guarded cfg.chunkSize :=
    Reach.invariant (·.Guarded cfg.chunkSize) (guarded_new h₀) (fun h ho hs => h.step ho hs) h
  have hb := hg.sound.balances
  refine ⟨hb.chunks, fun c hc => hb.len (List.mem_append_left _ hc), fun c hc => ?_⟩
  obtain ⟨pool, -, -, hp, -, -⟩ := new_ok h₀
  have hsize : 128 ≤ cfg.chunkSize := (PoolConfig.of_validate (BufferPool.withConfig_ok hp).1).2
  have hlen := hb.len_getBuffer hc
  refine decide_eq_true ?_
  show 8 < c.len - 0
  omega

instance (t : NetworkThread α) (i : Nat) (env : Env) (frame : NetFrame α) : Decidable (FrameKeeps t i env frame) := by
  cases frame <;> unfold FrameKeeps <;> infer_instance

instance (b : BufferedThread α) : (act : Action α) → Decidable (b.Keeps act)
  | .network (.accept _ _) => inferInstanceAs (Decidable (_ → _))
  | .network (.read frame env) => inferInstanceAs (Decidable (∀ i ∈ b.thread.reading, FrameKeeps b.thread i env frame))
  | .swap => inferInstanceAs (Decidable (∀ i ∈ b.thread.reading, i ∈ b.thread.tokenMap))
  | .network (.write _ _ _) | .network (.beginRead _) | .network .endRead | .network (.resetRead _)
  | .network (.noBuffers _) | .dispatch _ _ | .swapUdp | .cloneLock _ | .dropLock _ => inferInstanceAs (Decidable True)

/-- One connection is requested and read from, another one accepted and dropped, and the first one closed. -/
theorem conserved_of_keeps_busy :
    ∃ b₀ b : BufferedThread Nat, new (Dispatcher.localhost 1) 100 100 ⟨⟨0⟩, 128, 2, 4⟩ = .ok b₀ ∧ Reach step Keeps b₀ b ∧
      b.thread.tokenMap = [] ∧ b.bufferPool.nextChunk = 5 ∧ b.Conserved ⟨⟨0⟩, 128, 2, 4⟩ := by
  have hrun : ∃ b₀ b : BufferedThread Nat, new (Dispatcher.localhost 1) 100 100 ⟨⟨0⟩, 128, 2, 4⟩ = .ok b₀ ∧
      Reach step Keeps b₀ b ∧ b.thread.tokenMap = [] ∧ b.bufferPool.nextChunk = 5 :=
    ⟨_, _, rfl, Reach.of_run [.dispatch (.connect (Dispatcher.localhost 80)) { id := ⟨7⟩ }, .network (.beginRead 0),
        .network (.read (.hello (Dispatcher.localhost 80)) {}), .network (.read .ack {}), .cloneLock 1, .swap,
        .network (.read (.data 5) {}), .network .endRead, .network (.accept (Dispatcher.localhost 9000) {}),
        .dispatch (.blockSocket (Dispatcher.localhost 81)) {}, .network (.beginRead 1),
        .network (.read (.start (Dispatcher.localhost 81) ⟨9⟩) {}), .swapUdp, .dropLock 1, .network (.beginRead 0),
        .network (.read .bye { taken := fun _ => 9 }), .dispatch (.closedAck (Dispatcher.localhost 80)) {}] (by decide) (by decide),
      by decide, by decide⟩
  obtain ⟨b₀, b, h₀, h, hm, hn⟩ := hrun
  exact ⟨b₀, b, h₀, h, hm, hn, conserved_of_keeps h₀ h⟩

/-- A peer introduces itself with an address that is blocked: the channel is
dropped, and the loop reads on. A chunk of length zero gets into the pool, and
one of the pool into a channel that is in neither map. -/
theorem not_conserved_blocked_hello :
    ∃ b₀ b : BufferedThread Nat, new (Dispatcher.localhost 1) 100 100 ⟨⟨0⟩, 128, 2, 4⟩ = .ok b₀ ∧
      Reach step (fun _ _ => True) b₀ b ∧ (∃ c ∈ b.bufferPool.pool, c.len = 0) ∧
      (b.input 0).chunk ∉ (b.bufferPool.pool ++ b.taken).map (·.chunk) ∧ ¬ b.Conserved ⟨⟨0⟩, 128, 2, 4⟩ := by
  have hrun : ∃ b₀ b : BufferedThread Nat, new (Dispatcher.localhost 1) 100 100 ⟨⟨0⟩, 128, 2, 4⟩ = .ok b₀ ∧
      Reach step (fun _ _ => True) b₀ b ∧ (∃ c ∈ b.bufferPool.pool, c.len = 0) ∧
      (b.input 0).chunk ∉ (b.bufferPool.pool ++ b.taken).map (·.chunk) :=
    ⟨_, _, rfl, Reach.of_run [.dispatch (.blockSocket (Dispatcher.localhost 81)) {},
        .dispatch (.connect (Dispatcher.localhost 80)) { id := ⟨7⟩ }, .network (.beginRead 0),
        .network (.read (.hello (Dispatcher.localhost 81)) {}), .swap, .network .endRead] (by decide) (runMeets_true _ _),
      by decide, by decide⟩
  obtain ⟨b₀, b, h₀, h, ⟨c, hc, hlen⟩, hn⟩ := hrun
  refine ⟨b₀, b, h₀, h, ⟨c, hc, hlen⟩, hn, fun hcons => ?_⟩
  have hsize := hcons.size c hc
  rw [hlen] at hsize
  cases hsize

end BufferedThread

end Kompact
