import Kompact.Component.Lifecycle
import Kompact.Framework.Transition
import Mathlib.Data.List.Basic

/-!
# Component execution

The execution of one component together with everything that gives it work.
Enqueuers add one to the work count, push their item and schedule the
component if so decided, each in a step of its own; there can be any number
of them. The scheduler hands the component to an executor, which tests the
state, takes the lock and runs `inner_execute`; what it returns is acted on
afterwards. Wakers may schedule the component at any time, so several
executors can be under way, but only one holds the lock.

`Pc` are the places where the executor with the lock can be; each of its
steps touches the shared state at most once. Handlers and blocking futures
return what they like, and may panic.

Two fields serve the proofs only. `leaked` is the number of items that were
dequeued and will never be subtracted from the work count, and `log` records
the handlers that ran and what the supervisor was told.
-/

namespace Kompact.Component

/-- The settings of the system and of the component that matter here. -/
structure Config where
  maxEvents : Nat
  maxMessages : Nat
  /-- System components have no supervisor. -/
  supervised : Bool
  deriving DecidableEq, Repr

/-- What a handler or a blocking future returns. -/
inductive HandlerResult where
  | ok
  | blockOn
  | shutdown
  | benign
  | recoverable
  | unrecoverable
  deriving DecidableEq, Repr

/-- The state to go to when a blocking future completes. -/
inductive StateTransition where
  | active
  | started
  | passive
  | destroyed
  deriving DecidableEq, Repr

inductive TimerKind where
  | oneShot
  | periodic
  deriving DecidableEq, Repr

/-- An item of one of the queues. -/
inductive Item where
  | control (ev : ControlEvent)
  | message (m : Nat)
  | timeout (id : Nat)
  | port (i : Nat) (e : Nat)
  deriving DecidableEq, Repr

/-- An enqueue in progress: the count was incremented and the item is still
to be pushed, or it was pushed and the decision is still to be acted on. -/
inductive Enqueuer where
  | pushing (item : Item) (d : SchedulingDecision)
  | pushed (d : SchedulingDecision)
  deriving DecidableEq, Repr

/-- The loop over the ports: the events it may handle, those it has handled,
whether it is in the first round, which starts at `skip`, the port it is at,
and whether there was work in this round. -/
structure PortLoop where
  rem : Nat
  count : Nat
  first : Bool
  index : Nat
  doneWork : Bool
  deriving DecidableEq, Repr

/-- Where the executor with the lock is; `n` is its variable `count`. -/
inductive Pc where
  | begin
  | pollStart (t : StateTransition)
  | loadDecision
  | control (n : Nat)
  | enter (ev : ControlEvent) (n : Nat)
  | inControl (ev : ControlEvent) (n : Nat)
  | activeCheck (n : Nat)
  | timers (n : Nat)
  | inTimer (n : Nat)
  | messages (n : Nat)
  | inMessage (n : Nat)
  | events (n : Nat)
  | ports (n : Nat) (l : PortLoop)
  | inPort (n : Nat) (l : PortLoop)
  | moreMessages (n : Nat)
  | inMoreMessage (n : Nat)
  | pollBlocking (t : StateTransition) (n : Nat)
  | subtract (n : Nat) (r : Option HandlerResult)
  | resolve (r : Option HandlerResult) (d : SchedulingDecision)
  | inShutdown (n : Nat)
  | finish (n : Nat)
  | returning (d : SchedulingDecision)
  deriving DecidableEq, Repr

inductive SupervisorMsg where
  | started
  | stopped
  | killed
  | faulty
  deriving DecidableEq, Repr

/-- What happened: a handler ran, the state was set to destroyed, or the
supervisor was told something. -/
inductive Obs where
  | onStart
  | onStop
  | onKill
  | timer (id : Nat)
  | message (m : Nat)
  | port (i : Nat)
  | setDestroyed
  | sent (msg : SupervisorMsg)
  deriving DecidableEq, Repr

inductive Crash where
  | overflow
  | underflow
  deriving DecidableEq, Repr

/-- A component and those who work on it. -/
structure State where
  word : Lifecycle
  ctrlQueue : List ControlEvent
  msgQueue : List Nat
  timerQueue : List Nat
  portQueues : List (List Nat)
  handles : List (Nat × TimerKind)
  skip : Nat
  blockingFuture : Option StateTransition
  /-- The process aborted. -/
  crashed : Option Crash
  enqueuers : List Enqueuer
  /-- How often the component is queued at the scheduler. -/
  queued : Nat
  /-- Executors that have not tested the state yet. -/
  starting : Nat
  /-- Executors that have, and wait for the lock. -/
  locking : Nat
  holder : Option Pc
  /-- Whether the current holder found the component blocking. -/
  startedBlocking : Bool
  poisoned : Bool
  /-- Executors that panicked and have not set the state yet, with what they dequeued. -/
  panicked : List Nat
  /-- Decisions that were returned and not acted on yet. -/
  decided : List SchedulingDecision
  leaked : Nat
  log : List Obs
  deriving DecidableEq, Repr

/-- A new component with the given number of ports. -/
def initial (nPorts : Nat) : State where
  word := .initialState
  ctrlQueue := []
  msgQueue := []
  timerQueue := []
  portQueues := List.replicate nPorts []
  handles := []
  skip := 0
  blockingFuture := none
  crashed := none
  enqueuers := []
  queued := 0
  starting := 0
  locking := 0
  holder := none
  startedBlocking := false
  poisoned := false
  panicked := []
  decided := []
  leaked := 0
  log := []

namespace State

/-! ## Small changes -/

def goto (s : State) (pc : Pc) : State := { s with holder := some pc }

def setFlag (s : State) (flag : Flag) : State := { s with word := s.word.setState flag }

def emit (s : State) (o : Obs) : State := { s with log := s.log ++ [o] }

/-- Tell the supervisor, if there is one. -/
def send (cfg : Config) (s : State) (msg : SupervisorMsg) : State :=
  { s with log := s.log ++ if cfg.supervised then [.sent msg] else [] }

/-- `lifecycle::set_destroyed`. -/
def markDestroyed (s : State) : State := (s.setFlag .destroyed).emit .setDestroyed

/-- `Component::set_passive`. -/
def setPassive (cfg : Config) (s : State) : State := (s.setFlag .passive).send cfg .stopped

/-- `Component::set_destroyed`. -/
def setDestroyed (cfg : Config) (s : State) : State := s.markDestroyed.send cfg .killed

/-- Return `NoWork` without subtracting the `n` items dequeued. -/
def drop (s : State) (n : Nat) : State := { s with leaked := s.leaked + n, holder := some (.returning .noWork) }

/-- Unwind: the lock is poisoned. -/
def panic (s : State) (n : Nat) : State :=
  { s with holder := none, poisoned := true, panicked := n :: s.panicked }

/-- The start of `shutdown_from_handler`: destroyed, and `on_kill` runs. -/
def beginShutdown (s : State) (n : Nat) : State := (s.markDestroyed.emit .onKill).goto (.inShutdown n)

/-- `handle_recoverable_error`. -/
def failRecoverable (cfg : Config) (s : State) (n : Nat) : State :=
  ((s.setFlag .faulty).send cfg .faulty).drop n

/-- `handle_unrecoverable_error`. -/
def failUnrecoverable (cfg : Config) (s : State) (n : Nat) : State := (s.setDestroyed cfg).drop n

/-- `set_blocking_with_state`, before the future is polled for the first time. -/
def block (s : State) (t : StateTransition) (n : Nat) : State := (s.setFlag .blocking).goto (.pollBlocking t n)

/-- The change of state when a blocking future completes. -/
def unblock (cfg : Config) (s : State) : StateTransition → State
  | .active => s.setFlag .active
  | .started => (s.setFlag .active).send cfg .started
  | .passive => s.setPassive cfg
  | .destroyed => s.setDestroyed cfg

/-! ## The executor with the lock -/

/-- What happens once the handler of a control event is done. -/
def settle (cfg : Config) (s : State) : ControlEvent → State
  | .start => s.send cfg .started
  | .stop => s.setPassive cfg
  | .kill => s.setDestroyed cfg
  | .poll _ => s

def transition : ControlEvent → StateTransition
  | .start => .started
  | .stop => .passive
  | .kill => .destroyed
  | .poll _ => .active

/-- `check_and_handle_blocking!`, going on at `next`. -/
def checkAndHandleBlocking (cfg : Config) (s : State) (n : Nat) (next : Pc) : HandlerResult → State
  | .ok => s.goto next
  | .benign => s.goto next
  | .blockOn => s.block .active n
  | .shutdown => s.beginShutdown n
  | .recoverable => s.failRecoverable cfg n
  | .unrecoverable => s.failUnrecoverable cfg n

/-- `try_action`, and what the loop over the timers does with it. A timeout
whose handle was removed ends the loop. -/
def tryAction (s : State) (n : Nat) : State :=
  match s.timerQueue with
  | [] => s.goto (.messages n)
  | id :: timerQueue =>
    let s := { s with timerQueue }
    match s.handles.lookup id with
    | some .oneShot =>
      ({ s with handles := s.handles.filter (·.1 ≠ id) }.emit (.timer id)).goto (.inTimer n)
    | some .periodic => (s.emit (.timer id)).goto (.inTimer n)
    | none => { s with leaked := s.leaked + 1 }.goto (.messages n)

/-- One step of the derived `execute`: the next port, or the end of a round. -/
def portStep (s : State) (n : Nat) (l : PortLoop) : State :=
  match s.portQueues[l.index]? with
  | some queue =>
    if l.first ∧ l.index < s.skip then s.goto (.ports n { l with index := l.index + 1 })
    else if l.rem ≤ l.count then { s with skip := l.index }.goto (.moreMessages (n + l.count))
    else
      match queue with
      | [] => s.goto (.ports n { l with index := l.index + 1 })
      | _ :: queue =>
        ({ s with portQueues := s.portQueues.set l.index queue }.emit (.port l.index)).goto (.inPort n l)
  | none =>
    if l.doneWork then s.goto (.ports n { l with first := false, index := 0, doneWork := false })
    else { s with skip := 0 }.goto (.moreMessages (n + l.count))

/-- Take a message and handle it at `pc`, or go on at `next`. -/
def popMessage (s : State) (pc next : Pc) : State :=
  match s.msgQueue with
  | [] => s.goto next
  | m :: msgQueue => ({ s with msgQueue }.emit (.message m)).goto pc

/-- `decrement_work`; the process aborts where the count is too small. -/
def decrement (s : State) (n : Nat) (next : SchedulingDecision → Pc) : State :=
  match s.word.decrementWork n with
  | some (d, word) => { s with word }.goto (next d)
  | none => { s with crashed := some .underflow }

/-- Change the state and call the handler of a control event. -/
def enterControl (s : State) (n : Nat) (ev : ControlEvent) : State :=
  (match ev with
    | .start => (s.setFlag .active).emit .onStart
    | .stop => (s.setFlag .passive).emit .onStop
    | .kill => s.markDestroyed.emit .onKill
    | .poll _ => s).goto (.inControl ev n)

/-- What a completed blocking future leads to, after the subtraction. -/
def resolve (cfg : Config) (s : State) (d : SchedulingDecision) : Option HandlerResult → State
  | none => s.goto (.returning .blocked)
  | some .ok => s.goto (.returning (SchedulingDecision.noWork.orUse d))
  | some .benign => s.goto (.returning (SchedulingDecision.noWork.orUse d))
  | some .blockOn => { s.setFlag .blocking with blockingFuture := some .active }.goto (.returning .blocked)
  | some .shutdown => s.beginShutdown 0
  | some .recoverable => s.failRecoverable cfg 0
  | some .unrecoverable => s.failUnrecoverable cfg 0

/-- A step of the executor with the lock that waits for nobody. -/
def execStep (cfg : Config) (s : State) : Pc → Option State
  | .begin =>
    match s.blockingFuture with
    | some t => some ({ s with blockingFuture := none, startedBlocking := true }.goto (.pollStart t))
    | none => some ({ s with startedBlocking := false }.goto (.control 0))
  | .loadDecision =>
    some (s.goto (.returning (SchedulingDecision.noWork.orUse s.word.intoSchedulingDecision)))
  | .control n =>
    match s.ctrlQueue with
    | [] => some (s.goto (.activeCheck n))
    | ev :: ctrlQueue => some ({ s with ctrlQueue }.goto (.enter ev n))
  | .enter ev n => some (s.enterControl n ev)
  | .activeCheck n => some (s.goto (if s.word.isActive then .timers n else .finish n))
  | .timers n => some (if n < cfg.maxEvents then s.tryAction n else s.goto (.messages n))
  | .messages n =>
    some (if n < cfg.maxMessages then s.popMessage (.inMessage n) (.events n) else s.goto (.events n))
  | .events n =>
    let rem := cfg.maxEvents - n
    some (s.goto (if 0 < rem then .ports n ⟨rem, 0, true, 0, true⟩ else .finish n))
  | .ports n l => some (s.portStep n l)
  | .moreMessages n =>
    some (if n < cfg.maxEvents then s.popMessage (.inMoreMessage n) (.finish n) else s.goto (.finish n))
  | .subtract n r => some (s.decrement n (.resolve r))
  | .resolve r d => some (s.resolve cfg d r)
  | .finish n => some (s.decrement n .returning)
  | .returning d => some { s with holder := none, decided := d :: s.decided }
  | _ => none

/-- A handler returns. -/
def handlerReturns (cfg : Config) (s : State) (r : HandlerResult) : Pc → Option State
  | .inControl ev n =>
    match r with
    | .ok => some ((s.settle cfg ev).goto (.control (n + 1)))
    | .benign => some ((s.settle cfg ev).goto (.control (n + 1)))
    | .blockOn => some (s.block (transition ev) (n + 1))
    | .shutdown =>
      some (if ev = .kill then (s.setDestroyed cfg).drop (n + 1) else s.beginShutdown (n + 1))
    | .recoverable => some (s.failRecoverable cfg (n + 1))
    | .unrecoverable => some (s.failUnrecoverable cfg (n + 1))
  | .inTimer n => some (s.checkAndHandleBlocking cfg (n + 1) (.timers (n + 1)) r)
  | .inMessage n => some (s.checkAndHandleBlocking cfg (n + 1) (.messages (n + 1)) r)
  | .inMoreMessage n => some (s.checkAndHandleBlocking cfg (n + 1) (.moreMessages (n + 1)) r)
  | .inPort n l =>
    let l' := { l with count := l.count + 1, doneWork := true, index := l.index + 1 }
    match r with
    | .ok => some (s.goto (.ports n l'))
    -- all others end the loop over the ports, also a benign error
    | r => some ({ s with skip := l.index }.checkAndHandleBlocking cfg (n + l'.count)
        (.moreMessages (n + l'.count)) r)
  | .inShutdown n =>
    match r with
    | .blockOn => some (s.panic n)
    | _ => some ((s.setDestroyed cfg).drop n)
  | _ => none

/-- A blocking future is polled; `none` is a pending one. A future that
completes with another one to block on is pending. -/
def polled (cfg : Config) (s : State) (r : Option HandlerResult) : Pc → Option State
  | .pollStart t =>
    match r with
    | none => some ({ s with blockingFuture := some t }.goto (.returning .blocked))
    | some .blockOn => some ({ s with blockingFuture := some t }.goto (.returning .blocked))
    | some .ok => some ((s.unblock cfg t).goto .loadDecision)
    | some .benign => some ((s.unblock cfg t).goto .loadDecision)
    | some .shutdown =>
      some (if t = .destroyed then (s.setDestroyed cfg).goto .loadDecision else s.beginShutdown 0)
    | some .recoverable => some (s.failRecoverable cfg 0)
    | some .unrecoverable => some (s.failUnrecoverable cfg 0)
  | .pollBlocking t n =>
    match r with
    | none => some ({ s with blockingFuture := some t }.goto (.subtract n none))
    | some .blockOn => some ({ s with blockingFuture := some t }.goto (.subtract n none))
    | some .ok => some ((s.unblock cfg t).goto (.subtract n (some .ok)))
    | some .benign => some ((s.unblock cfg t).goto (.subtract n (some .benign)))
    | some .shutdown =>
      some (if t = .destroyed then (s.setDestroyed cfg).goto (.subtract n (some .ok))
        else s.goto (.subtract n (some .shutdown)))
    | some r => some (s.goto (.subtract n (some r)))
  | _ => none

end State

/-- The items that were dequeued and are not subtracted yet. -/
def Pc.dequeued : Pc → Nat
  | begin => 0
  | pollStart _ => 0
  | loadDecision => 0
  | control n => n
  | enter _ n => n + 1
  | inControl _ n => n + 1
  | activeCheck n => n
  | timers n => n
  | inTimer n => n + 1
  | messages n => n
  | inMessage n => n + 1
  | events n => n
  | ports n l => n + l.count
  | inPort n l => n + l.count + 1
  | moreMessages n => n
  | inMoreMessage n => n + 1
  | pollBlocking _ n => n
  | subtract n _ => n
  | resolve _ _ => 0
  | inShutdown n => n
  | finish n => n
  | returning _ => 0

/-- Whether user code runs: a handler, or a blocking future. -/
def Pc.runsUserCode : Pc → Bool
  | pollStart _ => true
  | inControl _ _ => true
  | inTimer _ => true
  | inMessage _ => true
  | inPort _ _ => true
  | inMoreMessage _ => true
  | pollBlocking _ _ => true
  | inShutdown _ => true
  | _ => false

/-! ## Steps -/

inductive Action where
  /-- An enqueuer increments the count. -/
  | increment (item : Item)
  /-- The `k`-th enqueuer pushes its item. -/
  | push (k : Nat)
  /-- The `k`-th enqueuer acts on its decision. -/
  | finishEnqueue (k : Nat)
  /-- A waker schedules the component. -/
  | wake
  /-- The scheduler hands the component to an executor. -/
  | dispatch
  /-- An executor tests the state. -/
  | load
  | acquire
  | exec
  | returns (r : HandlerResult)
  | polled (r : Option HandlerResult)
  | panics
  /-- The `k`-th executor that panicked marks the component faulty. -/
  | faulted (k : Nat)
  /-- The `k`-th decision is acted on (`maybe_reschedule`). -/
  | act (k : Nat)
  /-- User code schedules a timer. -/
  | schedule (id : Nat) (kind : TimerKind)
  | cancel (id : Nat)
  deriving DecidableEq, Repr

namespace State

/-- Put an item on its queue. -/
def pushItem (s : State) : Item → State
  | .control ev => { s with ctrlQueue := s.ctrlQueue ++ [ev] }
  | .message m => { s with msgQueue := s.msgQueue ++ [m] }
  | .timeout id => { s with timerQueue := s.timerQueue ++ [id] }
  | .port i e => { s with portQueues := s.portQueues.modify i (· ++ [e]) }

/-- The item is for a queue the component has; its ports never change. -/
def Accepts (s : State) : Item → Prop
  | .port i _ => i < s.portQueues.length
  | _ => True

instance (s : State) (item : Item) : Decidable (s.Accepts item) := by
  cases item <;> unfold Accepts <;> infer_instance

/-- One step, where the action can be taken. Nothing happens in a process
that aborted. -/
def step (cfg : Config) (s : State) (a : Action) : Option State :=
  if s.crashed.isSome then none
  else match a with
  | .increment item =>
    if s.Accepts item then
      match s.word.incrementWork with
      | some (d, word) => some { s with word, enqueuers := .pushing item d :: s.enqueuers }
      | none => some { s with crashed := some .overflow }
    else none
  | .push k =>
    match s.enqueuers[k]? with
    | some (.pushing item d) =>
      if s.Accepts item then some ({ s with enqueuers := s.enqueuers.set k (.pushed d) }.pushItem item) else none
    | _ => none
  | .finishEnqueue k =>
    match s.enqueuers[k]? with
    | some (.pushed d) =>
      let queued := if d = .schedule then s.queued + 1 else s.queued
      some { s with enqueuers := s.enqueuers.eraseIdx k, queued }
    | _ => none
  | .wake => some { s with queued := s.queued + 1 }
  | .dispatch =>
    if 0 < s.queued then some { s with queued := s.queued - 1, starting := s.starting + 1 } else none
  | .load =>
    if 0 < s.starting then
      let s := { s with starting := s.starting - 1 }
      match s.word.flag with
      | .destroyed => some { s with decided := .noWork :: s.decided }
      | .faulty => some { s with decided := .noWork :: s.decided }
      | _ => some { s with locking := s.locking + 1 }
    else none
  | .acquire =>
    if 0 < s.locking ∧ s.holder = none then
      let s := { s with locking := s.locking - 1 }
      if s.poisoned then some { s with panicked := 0 :: s.panicked } else some (s.goto .begin)
    else none
  | .exec => s.holder.bind (s.execStep cfg)
  | .returns r => s.holder.bind (s.handlerReturns cfg r)
  | .polled r => s.holder.bind (State.polled cfg s r)
  | .panics =>
    match s.holder with
    | some pc => if pc.runsUserCode then some (s.panic pc.dequeued) else none
    | none => none
  | .faulted k =>
    match s.panicked[k]? with
    | some n =>
      let s := { s with panicked := s.panicked.eraseIdx k, leaked := s.leaked + n, decided := .noWork :: s.decided }
      some ((s.setFlag .faulty).send cfg .faulty)
    | none => none
  | .act k =>
    match s.decided[k]? with
    | some d =>
      let s := { s with decided := s.decided.eraseIdx k }
      match d with
      | .schedule => some { s with queued := s.queued + 1 }
      | .resume => some { s with starting := s.starting + 1 }
      | _ => some s
    | none => none
  | .schedule id kind =>
    match s.holder with
    | some pc => if pc.runsUserCode then some { s with handles := (id, kind) :: s.handles } else none
    | none => none
  | .cancel id =>
    match s.holder with
    | some pc =>
      if pc.runsUserCode then some { s with handles := s.handles.filter (·.1 ≠ id) } else none
    | none => none

/-- What a step does, action by action. -/
inductive Does (cfg : Config) (s : State) : Action → State → Prop
  | increment {item : Item} {d : SchedulingDecision} {word : Lifecycle} (ha : s.Accepts item)
      (hw : s.word.incrementWork = some (d, word)) :
      Does cfg s (.increment item) { s with word, enqueuers := .pushing item d :: s.enqueuers }
  | overflow {item : Item} : Does cfg s (.increment item) { s with crashed := some .overflow }
  | push {k : Nat} {item : Item} {d : SchedulingDecision} (hk : s.enqueuers[k]? = some (.pushing item d))
      (ha : s.Accepts item) :
      Does cfg s (.push k) ({ s with enqueuers := s.enqueuers.set k (.pushed d) }.pushItem item)
  | finishEnqueue {k : Nat} {d : SchedulingDecision} (hk : s.enqueuers[k]? = some (.pushed d)) :
      Does cfg s (.finishEnqueue k) { s with
        enqueuers := s.enqueuers.eraseIdx k
        queued := if d = .schedule then s.queued + 1 else s.queued }
  | wake : Does cfg s .wake { s with queued := s.queued + 1 }
  | dispatch (h : 0 < s.queued) :
      Does cfg s .dispatch { s with queued := s.queued - 1, starting := s.starting + 1 }
  | loadEnded (h : 0 < s.starting) (hf : s.word.flag = .destroyed ∨ s.word.flag = .faulty) :
      Does cfg s .load { s with starting := s.starting - 1, decided := .noWork :: s.decided }
  | load (h : 0 < s.starting) :
      Does cfg s .load { s with starting := s.starting - 1, locking := s.locking + 1 }
  | acquirePoisoned (h : 0 < s.locking) (hh : s.holder = none) (hp : s.poisoned = true) :
      Does cfg s .acquire { s with locking := s.locking - 1, panicked := 0 :: s.panicked }
  | acquire (h : 0 < s.locking) (hh : s.holder = none) (hp : s.poisoned = false) :
      Does cfg s .acquire { s with locking := s.locking - 1, holder := some .begin }
  | exec {pc : Pc} {s' : State} (hh : s.holder = some pc) (hs : s.execStep cfg pc = some s') :
      Does cfg s .exec s'
  | returns {pc : Pc} {r : HandlerResult} {s' : State} (hh : s.holder = some pc)
      (hs : s.handlerReturns cfg r pc = some s') : Does cfg s (.returns r) s'
  | polled {pc : Pc} {r : Option HandlerResult} {s' : State} (hh : s.holder = some pc)
      (hs : State.polled cfg s r pc = some s') : Does cfg s (.polled r) s'
  | panics {pc : Pc} (hh : s.holder = some pc) (hu : pc.runsUserCode = true) :
      Does cfg s .panics (s.panic pc.dequeued)
  | faulted {k n : Nat} (hk : s.panicked[k]? = some n) :
      Does cfg s (.faulted k) ((setFlag { s with
        panicked := s.panicked.eraseIdx k, leaked := s.leaked + n, decided := .noWork :: s.decided }
        .faulty).send cfg .faulty)
  | actSchedule {k : Nat} (hk : s.decided[k]? = some .schedule) :
      Does cfg s (.act k) { s with decided := s.decided.eraseIdx k, queued := s.queued + 1 }
  | actResume {k : Nat} (hk : s.decided[k]? = some .resume) :
      Does cfg s (.act k) { s with decided := s.decided.eraseIdx k, starting := s.starting + 1 }
  | actNothing {k : Nat} {d : SchedulingDecision} (hk : s.decided[k]? = some d) (hd : ¬ d.Runs) :
      Does cfg s (.act k) { s with decided := s.decided.eraseIdx k }
  | setHandles {a : Action} (handles : List (Nat × TimerKind)) : Does cfg s a { s with handles }

theorem does_of_step {cfg : Config} {s s' : State} {a : Action} (h : s.step cfg a = some s') :
    s.crashed = none ∧ Does cfg s a s' := by
  unfold step at h
  split at h
  · cases h
  rename_i hc
  refine ⟨by simpa using hc, ?_⟩
  clear hc
  cases a with
  | increment item =>
    simp only at h
    split at h
    swap
    · cases h
    split at h
    · obtain rfl := Option.some.inj h; exact .increment ‹_› ‹_›
    · obtain rfl := Option.some.inj h; exact .overflow
  | push k =>
    simp only at h
    split at h
    swap
    · cases h
    split at h
    · obtain rfl := Option.some.inj h; exact .push ‹_› ‹_›
    · cases h
  | finishEnqueue k =>
    simp only at h
    split at h
    · obtain rfl := Option.some.inj h; exact .finishEnqueue ‹_›
    · cases h
  | wake => obtain rfl := Option.some.inj h; exact .wake
  | dispatch =>
    simp only at h
    split at h
    · obtain rfl := Option.some.inj h; exact .dispatch ‹_›
    · cases h
  | load =>
    simp only at h
    split at h
    swap
    · cases h
    split at h
    · obtain rfl := Option.some.inj h; exact .loadEnded ‹_› (.inl ‹_›)
    · obtain rfl := Option.some.inj h; exact .loadEnded ‹_› (.inr ‹_›)
    · obtain rfl := Option.some.inj h; exact .load ‹_›
  | acquire =>
    simp only at h
    split at h
    swap
    · cases h
    rename_i hl
    split at h
    · obtain rfl := Option.some.inj h; exact .acquirePoisoned hl.1 hl.2 ‹_›
    · rename_i hp
      obtain rfl := Option.some.inj h; exact .acquire hl.1 hl.2 (by simpa using hp)
  | exec =>
    obtain ⟨pc, hh, hs⟩ := Option.bind_eq_some_iff.mp h
    exact .exec hh hs
  | returns r =>
    obtain ⟨pc, hh, hs⟩ := Option.bind_eq_some_iff.mp h
    exact .returns hh hs
  | polled r =>
    obtain ⟨pc, hh, hs⟩ := Option.bind_eq_some_iff.mp h
    exact .polled hh hs
  | panics =>
    simp only at h
    split at h
    swap
    · cases h
    split at h
    · obtain rfl := Option.some.inj h; exact .panics ‹_› ‹_›
    · cases h
  | faulted k =>
    simp only at h
    split at h
    · obtain rfl := Option.some.inj h; exact .faulted ‹_›
    · cases h
  | act k =>
    simp only at h
    split at h
    swap
    · cases h
    rename_i d hk
    cases d with
    | schedule => obtain rfl := Option.some.inj h; exact .actSchedule hk
    | resume => obtain rfl := Option.some.inj h; exact .actResume hk
    | alreadyScheduled => obtain rfl := Option.some.inj h; exact .actNothing hk (by decide)
    | noWork => obtain rfl := Option.some.inj h; exact .actNothing hk (by decide)
    | blocked => obtain rfl := Option.some.inj h; exact .actNothing hk (by decide)
  | schedule id kind =>
    simp only at h
    split at h
    swap
    · cases h
    split at h
    · obtain rfl := Option.some.inj h; exact .setHandles _
    · cases h
  | cancel id =>
    simp only at h
    split at h
    swap
    · cases h
    split at h
    · obtain rfl := Option.some.inj h; exact .setHandles _
    · cases h

end State

/-! ## The executor with the lock, step by step -/

/-- In the loops over the queues, or on the way to or from them: nothing is decided. -/
def Pc.inLoop : Pc → Bool
  | control _ => true
  | enter _ _ => true
  | activeCheck _ => true
  | timers _ => true
  | inTimer _ => true
  | messages _ => true
  | inMessage _ => true
  | events _ => true
  | ports _ _ => true
  | inPort _ _ => true
  | moreMessages _ => true
  | inMoreMessage _ => true
  | finish _ => true
  | _ => false

namespace State

/-- What a step of the loops takes from the queues, with the number of items. -/
inductive Takes (s : State) : Nat → State → Prop
  | nothing (skip : Nat) : Takes s 0 { s with skip }
  | control {ev : ControlEvent} {ctrlQueue : List ControlEvent} (hq : s.ctrlQueue = ev :: ctrlQueue) :
      Takes s 1 { s with ctrlQueue }
  | timer {id : Nat} {timerQueue : List Nat} (hq : s.timerQueue = id :: timerQueue)
      (handles : List (Nat × TimerKind)) : Takes s 1 (emit { s with timerQueue, handles } (.timer id))
  | message {m : Nat} {msgQueue : List Nat} (hq : s.msgQueue = m :: msgQueue) :
      Takes s 1 (emit { s with msgQueue } (.message m))
  | port {i e : Nat} {queue : List Nat} (hq : s.portQueues[i]? = some (e :: queue)) :
      Takes s 1 (emit { s with portQueues := s.portQueues.set i queue } (.port i))

/-- The states differ in the queues, the timers and the log only. -/
structure Keeps (s t : State) : Prop where
  word : t.word = s.word
  blockingFuture : t.blockingFuture = s.blockingFuture
  crashed : t.crashed = s.crashed
  enqueuers : t.enqueuers = s.enqueuers
  poisoned : t.poisoned = s.poisoned
  panicked : t.panicked = s.panicked
  decided : t.decided = s.decided
  leaked : t.leaked = s.leaked

theorem Takes.keeps {s t : State} {k : Nat} (h : s.Takes k t) : s.Keeps t := by
  cases h <;> exact ⟨rfl, rfl, rfl, rfl, rfl, rfl, rfl, rfl⟩

/-- What the executor with the lock does at each place. -/
inductive Executes (cfg : Config) (s : State) : Pc → State → Prop
  | poll {t : StateTransition} (hf : s.blockingFuture = some t) :
      Executes cfg s .begin (goto { s with blockingFuture := none, startedBlocking := true } (.pollStart t))
  | begin (hf : s.blockingFuture = none) :
      Executes cfg s .begin (goto { s with startedBlocking := false } (.control 0))
  | loadDecision : Executes cfg s .loadDecision
      (s.goto (.returning (SchedulingDecision.noWork.orUse s.word.intoSchedulingDecision)))
  | enter {ev : ControlEvent} {n : Nat} : Executes cfg s (.enter ev n) (s.enterControl n ev)
  | loop {pc pc' : Pc} {k : Nat} {t : State} (hpc : pc.inLoop = true) (hpc' : pc'.inLoop = true)
      (ht : s.Takes k t) (hk : pc'.dequeued = pc.dequeued + k) : Executes cfg s pc (t.goto pc')
  | timerGone {n id : Nat} {timerQueue : List Nat} (hn : n < cfg.maxEvents) (hq : s.timerQueue = id :: timerQueue)
      (hh : s.handles.lookup id = none) :
      Executes cfg s (.timers n) (goto { s with timerQueue, leaked := s.leaked + 1 } (.messages n))
  | subtract {n : Nat} {r : Option HandlerResult} :
      Executes cfg s (.subtract n r) (s.decrement n (.resolve r))
  | resolve {r : Option HandlerResult} {d : SchedulingDecision} : Executes cfg s (.resolve r d) (s.resolve cfg d r)
  | finish {n : Nat} : Executes cfg s (.finish n) (s.decrement n .returning)
  | returning {d : SchedulingDecision} :
      Executes cfg s (.returning d) { s with holder := none, decided := d :: s.decided }

section Loops

variable {cfg : Config} {s : State} {n : Nat}

/-- Going on without taking anything. -/
theorem Executes.next {pc pc' : Pc} (hpc : pc.inLoop = true) (hpc' : pc'.inLoop = true)
    (hk : pc'.dequeued = pc.dequeued) : Executes cfg s pc (s.goto pc') :=
  .loop hpc hpc' (.nothing s.skip) hk

theorem executes_tryAction (hn : n < cfg.maxEvents) : Executes cfg s (.timers n) (s.tryAction n) := by
  unfold tryAction
  split
  · exact .next rfl rfl rfl
  · rename_i id timerQueue hq
    simp only
    split
    · exact .loop rfl rfl (.timer hq _) rfl
    · exact .loop rfl rfl (.timer hq s.handles) rfl
    · rename_i hh
      exact .timerGone hn hq hh

theorem executes_popMessage {pc pc' next : Pc} (hpc : pc.inLoop = true) (hpc' : pc'.inLoop = true)
    (hnext : next.inLoop = true) (hk : pc'.dequeued = pc.dequeued + 1) (hk' : next.dequeued = pc.dequeued) :
    Executes cfg s pc (s.popMessage pc' next) := by
  unfold popMessage
  split
  · exact .next hpc hnext hk'
  · rename_i m msgQueue hq
    exact .loop hpc hpc' (.message hq) hk

theorem executes_portStep {l : PortLoop} : Executes cfg s (.ports n l) (s.portStep n l) := by
  unfold portStep
  split
  · rename_i queue hq
    split
    · exact .next rfl rfl rfl
    split
    · exact .loop rfl rfl (.nothing l.index) rfl
    split
    · exact .next rfl rfl rfl
    · exact .loop rfl rfl (.port hq) rfl
  · split
    · exact .next rfl rfl rfl
    · exact .loop rfl rfl (.nothing 0) rfl

end Loops

theorem executes_of_execStep {cfg : Config} {s s' : State} {pc : Pc} (h : s.execStep cfg pc = some s') :
    Executes cfg s pc s' := by
  cases pc with
  | begin =>
    simp only [execStep] at h
    split at h
    · obtain rfl := Option.some.inj h; exact .poll ‹_›
    · obtain rfl := Option.some.inj h; exact .begin ‹_›
  | control n =>
    simp only [execStep] at h
    split at h
    · obtain rfl := Option.some.inj h; exact .next rfl rfl rfl
    · obtain rfl := Option.some.inj h; exact .loop rfl rfl (.control ‹_›) rfl
  | activeCheck n =>
    obtain rfl := Option.some.inj h
    split
    · exact .next rfl rfl rfl
    · exact .next rfl rfl rfl
  | timers n =>
    obtain rfl := Option.some.inj h
    split
    · exact executes_tryAction ‹_›
    · exact .next rfl rfl rfl
  | messages n =>
    obtain rfl := Option.some.inj h
    split
    · exact executes_popMessage rfl rfl rfl rfl rfl
    · exact .next rfl rfl rfl
  | events n =>
    obtain rfl := Option.some.inj h
    split
    · exact .next rfl rfl rfl
    · exact .next rfl rfl rfl
  | ports n l => obtain rfl := Option.some.inj h; exact executes_portStep
  | moreMessages n =>
    obtain rfl := Option.some.inj h
    split
    · exact executes_popMessage rfl rfl rfl rfl rfl
    · exact .next rfl rfl rfl
  | loadDecision => obtain rfl := Option.some.inj h; exact .loadDecision
  | enter ev n => obtain rfl := Option.some.inj h; exact .enter
  | subtract n r => obtain rfl := Option.some.inj h; exact .subtract
  | resolve r d => obtain rfl := Option.some.inj h; exact .resolve
  | finish n => obtain rfl := Option.some.inj h; exact .finish
  | returning d => obtain rfl := Option.some.inj h; exact .returning
  | pollStart t => cases h
  | inControl ev n => cases h
  | inTimer n => cases h
  | inMessage n => cases h
  | inPort n l => cases h
  | inMoreMessage n => cases h
  | pollBlocking t n => cases h
  | inShutdown n => cases h

/-- Where a future is polled, where the execution goes on if it is pending, and where with a result. -/
inductive Polling (t : StateTransition) : Pc → Pc → (HandlerResult → Pc) → Prop
  | start : Polling t (.pollStart t) (.returning .blocked) fun _ => .loadDecision
  | blocking (n : Nat) : Polling t (.pollBlocking t n) (.subtract n none) fun r => .subtract n (some r)

/-- What a poll does. At the start of an execution the errors are handled at once, behind a handler
they are left to the end. -/
inductive Polls (cfg : Config) (s : State) : Pc → Option HandlerResult → State → Prop
  | pending {t : StateTransition} {pc back : Pc} {next : HandlerResult → Pc} {r : Option HandlerResult}
      (hp : Polling t pc back next) (hr : r = none ∨ r = some .blockOn) :
      Polls cfg s pc r (goto { s with blockingFuture := some t } back)
  | completed {t : StateTransition} {pc back : Pc} {next : HandlerResult → Pc} {r r' : HandlerResult}
      (hp : Polling t pc back next) (hr : r' = .ok ∨ r' = .benign) :
      Polls cfg s pc (some r) ((s.unblock cfg t).goto (next r'))
  | shutdown {t : StateTransition} (ht : t ≠ .destroyed) :
      Polls cfg s (.pollStart t) (some .shutdown) (s.beginShutdown 0)
  | recoverable {t : StateTransition} : Polls cfg s (.pollStart t) (some .recoverable) (s.failRecoverable cfg 0)
  | unrecoverable {t : StateTransition} :
      Polls cfg s (.pollStart t) (some .unrecoverable) (s.failUnrecoverable cfg 0)
  | failed {t : StateTransition} {n : Nat} {r : HandlerResult}
      (hr : (r = .shutdown ∧ t ≠ .destroyed) ∨ r = .recoverable ∨ r = .unrecoverable) :
      Polls cfg s (.pollBlocking t n) (some r) (s.goto (.subtract n (some r)))

theorem polls_of_polled {cfg : Config} {s s' : State} {pc : Pc} {r : Option HandlerResult}
    (h : State.polled cfg s r pc = some s') : Polls cfg s pc r s' := by
  cases pc with
  | pollStart t =>
    rcases r with _ | r
    · obtain rfl := Option.some.inj h; exact .pending .start (.inl rfl)
    cases r <;> obtain rfl := Option.some.inj h
    case ok => exact .completed .start (.inl rfl)
    case benign => exact .completed .start (.inr rfl)
    case blockOn => exact .pending .start (.inr rfl)
    case shutdown =>
      split
      · rename_i ht
        subst ht
        exact .completed .start (.inl rfl)
      · exact .shutdown ‹_›
    case recoverable => exact .recoverable
    case unrecoverable => exact .unrecoverable
  | pollBlocking t n =>
    rcases r with _ | r
    · obtain rfl := Option.some.inj h; exact .pending (.blocking n) (.inl rfl)
    cases r <;> obtain rfl := Option.some.inj h
    case ok => exact .completed (.blocking n) (.inl rfl)
    case benign => exact .completed (.blocking n) (.inr rfl)
    case blockOn => exact .pending (.blocking n) (.inr rfl)
    case shutdown =>
      split
      · rename_i ht
        subst ht
        exact .completed (.blocking n) (.inl rfl)
      · exact .failed (.inl ⟨rfl, ‹_›⟩)
    case recoverable => exact .failed (.inr (.inl rfl))
    case unrecoverable => exact .failed (.inr (.inr rfl))
  | _ => cases h

end State

end Kompact.Component
