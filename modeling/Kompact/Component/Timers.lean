import Kompact.Component.Destroyed
import Kompact.Framework.KeyedList

/-!
# Timers

The handles of the timers and the queue of timeouts of a component get out of
step: a timeout may be enqueued after its timer was cancelled, and its handle
is gone when it is taken. `Timed` is a component with the history of its
timers, which are scheduled and cancelled by its user code, or by a closure
that is run on its definition while nobody executes it. `Uuid::new_v4` gives
an id that was not used before (`Timed.Fresh`).

`timer_runs` says that in every run a one-shot action runs at most once, that
no action runs after it was cancelled, that the others stay installed, and
when the loop over the timers is complete: the live timeouts that were queued
when it started have all run when it ends below its quota, unless a timeout
without a handle was taken before one of them. `ExecuteAction::None` says both
that the queue is empty and that a timeout has no handle, and the loop ends at
the first one.
-/

namespace Kompact.Component

open State

/-- What the loop over the timers did: the timeouts that were queued when it
started, the handlers that ran in it, and the handles at its end. `prompt` says
that it did not end at a timeout without a handle in front of a live one that
was queued when it started. -/
structure LoopEnd where
  queued : List Nat
  handled : List Obs
  handles : List (Nat × TimerKind)
  prompt : Bool
  deriving DecidableEq, Repr

/-- The timeouts that were queued have run, in their order and before anything
else, up to those without a handle. -/
def LoopEnd.Ran (e : LoopEnd) : Prop :=
  ∃ ran more rest, e.queued = ran ++ rest ∧ e.handled = (ran ++ more).map .timer ∧
    ∀ id ∈ rest, e.handles.lookup id = none

/-- A component and the history of its timers. -/
structure Timed where
  state : State
  issued : List (Nat × TimerKind)
  /-- The cancelled timers, with the length of the log at that time. -/
  cancelled : List (Nat × Nat)
  /-- The timeouts that were queued when the last loop over the timers started. -/
  queued : List Nat
  /-- Those of them that were not taken. -/
  waiting : List Nat
  /-- The length of the log when that loop started. -/
  mark : Nat
  /-- The loops that ended below their quota. -/
  ends : List LoopEnd
  deriving DecidableEq, Repr

inductive TimedAction where
  | component (a : Action)
  /-- A closure on the definition schedules a timer. -/
  | schedule (id : Nat) (kind : TimerKind)
  | cancel (id : Nat)
  deriving DecidableEq, Repr

namespace Timed

def initial (nPorts : Nat) : Timed where
  state := Component.initial nPorts
  issued := []
  cancelled := []
  queued := []
  waiting := []
  mark := 0
  ends := []

/-- The next timeout has a handle, or there is no live one behind it that was
queued when the loop started. -/
def prompt (t : Timed) : Bool :=
  match t.state.timerQueue with
  | [] => true
  | id :: _ =>
    (t.state.handles.lookup id).isSome || t.waiting.tail.all fun id => (t.state.handles.lookup id).isNone

def loopEnd (t : Timed) (state : State) : LoopEnd where
  queued := t.queued
  handled := (state.log.drop t.mark).filter Obs.isHandler
  handles := state.handles
  prompt := t.prompt

/-- The history after a step to `state`. -/
def after (cfg : Config) (t : Timed) (a : Action) (state : State) : Timed :=
  match a, t.state.holder with
  | .exec, some (.activeCheck _) =>
    { t with state, queued := state.timerQueue, waiting := state.timerQueue, mark := state.log.length }
  | .exec, some (.timers n) =>
    if n < cfg.maxEvents then
      { t with
        state
        waiting := t.waiting.tail
        ends := if state.holder = some (.messages n) then t.loopEnd state :: t.ends else t.ends }
    else { t with state }
  | .schedule id kind, _ => { t with state, issued := (id, kind) :: t.issued }
  | .cancel id, _ => { t with state, cancelled := (id, t.state.log.length) :: t.cancelled }
  | _, _ => { t with state }

def step (cfg : Config) (t : Timed) : TimedAction → Option Timed
  | .component a => (t.state.step cfg a).map (t.after cfg a)
  | .schedule id kind =>
    if t.state.holder = none ∧ t.state.poisoned = false then
      some { t with
        state := { t.state with handles := (id, kind) :: t.state.handles }
        issued := (id, kind) :: t.issued }
    else none
  | .cancel id =>
    if t.state.holder = none ∧ t.state.poisoned = false then
      some { t with
        state := { t.state with handles := t.state.handles.filter (·.1 ≠ id) }
        cancelled := (id, t.state.log.length) :: t.cancelled }
    else none

/-- No timer has this id. -/
def New (t : Timed) (id : Nat) : Prop := id ∉ t.issued.map Prod.fst ∧ id ∉ t.cancelled.map Prod.fst

instance (t : Timed) (id : Nat) : Decidable (t.New id) := inferInstanceAs (Decidable (_ ∧ _))

/-- The ids of new timers are new. -/
def Fresh (t : Timed) : TimedAction → Prop
  | .component (.schedule id _) => t.New id
  | .schedule id _ => t.New id
  | _ => True

instance (t : Timed) (a : TimedAction) : Decidable (t.Fresh a) := by
  unfold Fresh
  split <;> infer_instance

/-- What every timer can rely on. -/
structure Respected (t : Timed) : Prop where
  once (id : Nat) : (id, .oneShot) ∈ t.issued → t.state.log.count (.timer id) ≤ 1
  cancelled (id k : Nat) : (id, k) ∈ t.cancelled → .timer id ∉ t.state.log.drop k
  installed (id : Nat) (kind : TimerKind) : (id, kind) ∈ t.issued → id ∉ t.cancelled.map Prod.fst →
    (kind = .periodic ∨ .timer id ∉ t.state.log) → t.state.handles.lookup id = some kind

end Timed

/-! ## Steps away from the timers -/

namespace State

/-- The executor is in the loop over the timers. -/
def inTimers (s : State) : Bool :=
  match s.holder with
  | some (.timers _) => true
  | some (.inTimer _) => true
  | _ => false

/-- The handles are as before and no timer ran. -/
structure Leaves (s t : State) : Prop where
  handles : t.handles = s.handles
  log : ∃ l, t.log = s.log ++ l ∧ ∀ id, .timer id ∉ l

variable {cfg : Config} {s t u : State} {n : Nat}

theorem leaves_same (hh : t.handles = s.handles) (hl : t.log = s.log) : Leaves s t :=
  ⟨hh, [], by simpa using hl, by simp⟩

theorem Leaves.same (h : Leaves s t) (hh : u.handles = t.handles) (hl : u.log = t.log) : Leaves s u :=
  ⟨hh.trans h.handles, hl ▸ h.log⟩

theorem Leaves.add (h : Leaves s t) {l : List Obs} (hh : u.handles = t.handles) (hu : u.log = t.log ++ l)
    (hl : ∀ id, .timer id ∉ l) : Leaves s u := by
  obtain ⟨l₁, ht, h₁⟩ := h.log
  refine ⟨hh.trans h.handles, l₁ ++ l, by rw [hu, ht, List.append_assoc], fun id hid => ?_⟩
  exact (List.mem_append.mp hid).elim (h₁ id) (hl id)

theorem Leaves.send (h : Leaves s t) (cfg : Config) (msg : SupervisorMsg) : Leaves s (t.send cfg msg) :=
  h.add rfl rfl fun id => by split <;> simp

theorem Leaves.emit (h : Leaves s t) {o : Obs} (ho : ∀ id, o ≠ .timer id) : Leaves s (t.emit o) :=
  h.add rfl rfl fun id hid => ho id (List.mem_singleton.mp hid).symm

theorem Leaves.markDestroyed (h : Leaves s t) : Leaves s t.markDestroyed :=
  (h.same (u := t.setFlag .destroyed) rfl rfl).emit nofun

theorem Leaves.setPassive (h : Leaves s t) : Leaves s (t.setPassive cfg) :=
  (h.same (u := t.setFlag .passive) rfl rfl).send cfg .stopped

theorem Leaves.setDestroyed (h : Leaves s t) (cfg : Config) : Leaves s (t.setDestroyed cfg) := h.markDestroyed.send cfg .killed

theorem Leaves.beginShutdown (h : Leaves s t) : Leaves s (t.beginShutdown n) :=
  (h.markDestroyed.emit (o := .onKill) nofun).same rfl rfl

theorem Leaves.failRecoverable (h : Leaves s t) : Leaves s (t.failRecoverable cfg n) :=
  ((h.same (u := t.setFlag .faulty) rfl rfl).send cfg .faulty).same rfl rfl

theorem Leaves.failUnrecoverable (h : Leaves s t) : Leaves s (t.failUnrecoverable cfg n) :=
  (h.setDestroyed cfg).same rfl rfl

theorem Leaves.unblock (h : Leaves s t) (tr : StateTransition) : Leaves s (t.unblock cfg tr) := by
  cases tr with
  | active => exact h.same rfl rfl
  | started => exact (h.same (u := t.setFlag .active) rfl rfl).send cfg .started
  | passive => exact h.setPassive
  | destroyed => exact h.setDestroyed cfg

theorem Leaves.settle (h : Leaves s t) (ev : ControlEvent) : Leaves s (t.settle cfg ev) := by
  cases ev with
  | start => exact h.send cfg .started
  | stop => exact h.setPassive
  | kill => exact h.setDestroyed cfg
  | poll _ => exact h

/-- The step is none of the loop over the timers. -/
structure Away (s t : State) : Prop where
  leaves : Leaves s t
  out : t.inTimers = false

/-- A place outside the loop over the timers. -/
theorem Leaves.goto (h : Leaves s t) (pc : Pc) (hpc : (t.goto pc).inTimers = false) : Away s (t.goto pc) :=
  ⟨h.same rfl rfl, hpc⟩

theorem Away.skip (skip : Nat) (h : Away { s with skip } t) : Away s t :=
  ⟨⟨h.leaves.handles, h.leaves.log⟩, h.out⟩

theorem away_checkAndHandleBlocking {next : Pc} (hnext : (s.goto next).inTimers = false) (r : HandlerResult) :
    Away s (s.checkAndHandleBlocking cfg n next r) := by
  have hs : Leaves s s := leaves_same rfl rfl
  cases r with
  | ok => exact hs.goto next hnext
  | benign => exact hs.goto next hnext
  | blockOn => exact ⟨hs.same rfl rfl, rfl⟩
  | shutdown => exact ⟨hs.beginShutdown, rfl⟩
  | recoverable => exact ⟨hs.failRecoverable, rfl⟩
  | unrecoverable => exact ⟨hs.failUnrecoverable, rfl⟩

theorem away_enterControl (ev : ControlEvent) : Away s (s.enterControl n ev) := by
  have hs : Leaves s s := leaves_same rfl rfl
  cases ev with
  | start => exact ((hs.same (u := s.setFlag .active) rfl rfl).emit (o := .onStart) nofun).goto _ rfl
  | stop => exact ((hs.same (u := s.setFlag .passive) rfl rfl).emit (o := .onStop) nofun).goto _ rfl
  | kill => exact (hs.markDestroyed.emit (o := .onKill) nofun).goto _ rfl
  | poll _ => exact hs.goto _ rfl

theorem away_popMessage {pc next : Pc} (hpc : (s.goto pc).inTimers = false) (hnext : (s.goto next).inTimers = false) :
    Away s (s.popMessage pc next) := by
  have hs : Leaves s s := leaves_same rfl rfl
  unfold popMessage
  split
  · exact hs.goto next hnext
  · rename_i m msgQueue _
    exact ((hs.same (u := { s with msgQueue }) rfl rfl).emit (o := .message m) nofun).goto pc hpc

theorem away_portStep {l : PortLoop} : Away s (s.portStep n l) := by
  have hs : Leaves s s := leaves_same rfl rfl
  unfold portStep
  split
  · split
    · exact hs.goto _ rfl
    split
    · exact ⟨hs.same rfl rfl, rfl⟩
    split
    · exact hs.goto _ rfl
    · rename_i queue _
      exact ((hs.same (u := { s with portQueues := s.portQueues.set l.index queue }) rfl rfl).emit
        (o := .port l.index) nofun).goto _ rfl
  · split
    · exact hs.goto _ rfl
    · exact ⟨hs.same rfl rfl, rfl⟩

theorem away_decrement (next : SchedulingDecision → Pc) (hs : s.inTimers = false)
    (hnext : ∀ d, (s.goto (next d)).inTimers = false) : Away s (s.decrement n next) := by
  unfold decrement
  split
  · exact ⟨leaves_same rfl rfl, hnext _⟩
  · exact ⟨leaves_same rfl rfl, hs⟩

theorem away_resolve (r : Option HandlerResult) (d : SchedulingDecision) : Away s (s.resolve cfg d r) := by
  have hs : Leaves s s := leaves_same rfl rfl
  cases r with
  | none => exact hs.goto _ rfl
  | some r =>
    cases r with
    | ok => exact hs.goto _ rfl
    | benign => exact hs.goto _ rfl
    | blockOn => exact ⟨hs.same rfl rfl, rfl⟩
    | shutdown => exact ⟨hs.beginShutdown, rfl⟩
    | recoverable => exact ⟨hs.failRecoverable, rfl⟩
    | unrecoverable => exact ⟨hs.failUnrecoverable, rfl⟩

theorem away_execStep {pc : Pc} (hh : s.holder = some pc) (hc : ∀ n, pc ≠ .activeCheck n) (ht : ∀ n, pc ≠ .timers n)
    (h : s.execStep cfg pc = some t) : Away s t := by
  have hs : Leaves s s := leaves_same rfl rfl
  cases pc with
  | activeCheck n => exact absurd rfl (hc n)
  | timers n => exact absurd rfl (ht n)
  | begin =>
    simp only [execStep] at h
    split at h <;> (obtain rfl := Option.some.inj h; exact ⟨hs.same rfl rfl, rfl⟩)
  | loadDecision => obtain rfl := Option.some.inj h; exact hs.goto _ rfl
  | control n =>
    simp only [execStep] at h
    split at h <;> (obtain rfl := Option.some.inj h; exact ⟨hs.same rfl rfl, rfl⟩)
  | enter ev n => obtain rfl := Option.some.inj h; exact away_enterControl ev
  | messages n =>
    obtain rfl := Option.some.inj h
    split
    · exact away_popMessage rfl rfl
    · exact hs.goto _ rfl
  | events n =>
    obtain rfl := Option.some.inj h
    split <;> exact hs.goto _ rfl
  | ports n l => obtain rfl := Option.some.inj h; exact away_portStep
  | moreMessages n =>
    obtain rfl := Option.some.inj h
    split
    · exact away_popMessage rfl rfl
    · exact hs.goto _ rfl
  | subtract n r =>
    obtain rfl := Option.some.inj h
    exact away_decrement _ (by simp [inTimers, hh]) fun _ => rfl
  | resolve r d => obtain rfl := Option.some.inj h; exact away_resolve r d
  | finish n =>
    obtain rfl := Option.some.inj h
    exact away_decrement _ (by simp [inTimers, hh]) fun _ => rfl
  | returning d => obtain rfl := Option.some.inj h; exact ⟨hs.same rfl rfl, rfl⟩
  | _ => cases h

/-- A handler that returns leads out of the loop over the timers, or back to its start. -/
theorem away_handlerReturns {pc : Pc} {r : HandlerResult} (h : s.handlerReturns cfg r pc = some t) :
    Away s t ∨ ∃ n, pc = .inTimer n ∧ t = s.goto (.timers (n + 1)) := by
  have hs : Leaves s s := leaves_same rfl rfl
  cases pc with
  | inControl ev n =>
    refine .inl ?_
    cases r with
    | ok => obtain rfl := Option.some.inj h; exact (hs.settle ev).goto _ rfl
    | benign => obtain rfl := Option.some.inj h; exact (hs.settle ev).goto _ rfl
    | blockOn => obtain rfl := Option.some.inj h; exact ⟨hs.same rfl rfl, rfl⟩
    | shutdown =>
      obtain rfl := Option.some.inj h
      split
      · exact ⟨(hs.setDestroyed cfg).same rfl rfl, rfl⟩
      · exact ⟨hs.beginShutdown, rfl⟩
    | recoverable => obtain rfl := Option.some.inj h; exact ⟨hs.failRecoverable, rfl⟩
    | unrecoverable => obtain rfl := Option.some.inj h; exact ⟨hs.failUnrecoverable, rfl⟩
  | inTimer n =>
    obtain rfl := Option.some.inj h
    cases r with
    | ok => exact .inr ⟨n, rfl, rfl⟩
    | benign => exact .inr ⟨n, rfl, rfl⟩
    | blockOn => exact .inl ⟨hs.same rfl rfl, rfl⟩
    | shutdown => exact .inl ⟨hs.beginShutdown, rfl⟩
    | recoverable => exact .inl ⟨hs.failRecoverable, rfl⟩
    | unrecoverable => exact .inl ⟨hs.failUnrecoverable, rfl⟩
  | inMessage n => obtain rfl := Option.some.inj h; exact .inl (away_checkAndHandleBlocking rfl r)
  | inMoreMessage n => obtain rfl := Option.some.inj h; exact .inl (away_checkAndHandleBlocking rfl r)
  | inPort n l =>
    refine .inl ?_
    cases r with
    | ok => obtain rfl := Option.some.inj h; exact hs.goto _ rfl
    | _ =>
      obtain rfl := Option.some.inj h
      exact Away.skip l.index (away_checkAndHandleBlocking rfl _)
  | inShutdown n =>
    refine .inl ?_
    cases r with
    | blockOn => obtain rfl := Option.some.inj h; exact ⟨hs.same rfl rfl, rfl⟩
    | _ => obtain rfl := Option.some.inj h; exact ⟨(hs.setDestroyed cfg).same rfl rfl, rfl⟩
  | _ => cases h

theorem away_polled {pc : Pc} {r : Option HandlerResult} (h : State.polled cfg s r pc = some t) : Away s t := by
  have hs : Leaves s s := leaves_same rfl rfl
  cases State.polls_of_polled h with
  | pending hp => cases hp <;> exact ⟨hs.same rfl rfl, rfl⟩
  | completed hp => cases hp <;> exact (hs.unblock _).goto _ rfl
  | shutdown => exact ⟨hs.beginShutdown, rfl⟩
  | recoverable => exact ⟨hs.failRecoverable, rfl⟩
  | unrecoverable => exact ⟨hs.failUnrecoverable, rfl⟩
  | failed => exact hs.goto _ rfl

/-- A step of somebody else: the loop over the timers goes on, with more
timeouts perhaps. -/
structure Aside (s t : State) : Prop where
  handles : t.handles = s.handles
  log : ∃ l, t.log = s.log ++ l ∧ ∀ o ∈ l, o.isHandler = false
  loop : t.inTimers = true → t.holder = s.holder ∧ s.timerQueue <+: t.timerQueue

theorem aside_same (hh : t.handles = s.handles) (hl : t.log = s.log) (ho : t.holder = s.holder)
    (hq : s.timerQueue <+: t.timerQueue) : Aside s t :=
  ⟨hh, ⟨[], by simpa using hl, by simp⟩, fun _ => ⟨ho, hq⟩⟩

theorem aside_pushItem (hh : t.handles = s.handles) (hl : t.log = s.log) (ho : t.holder = s.holder)
    (hq : t.timerQueue = s.timerQueue) (item : Item) : Aside s (t.pushItem item) := by
  cases item with
  | timeout id => exact aside_same hh hl ho (hq ▸ List.prefix_append _ _)
  | _ => exact aside_same hh hl ho (hq ▸ List.prefix_refl _)

theorem Aside.leaves (h : Aside s t) : Leaves s t := by
  obtain ⟨l, ht, hl⟩ := h.log
  exact ⟨h.handles, l, ht, fun id hid => nomatch hl _ hid⟩

/-- The actions of the executor with the lock and of its user code. -/
def ofHolder : Action → Bool
  | .exec => true
  | .returns _ => true
  | .polled _ => true
  | .schedule _ _ => true
  | .cancel _ => true
  | _ => false

theorem aside_step {a : Action} (ha : ofHolder a = false) (h : s.step cfg a = some t) : Aside s t := by
  have hsame {u : State} (hh : u.handles = s.handles) (hl : u.log = s.log) (ho : u.holder = s.holder)
      (hq : u.timerQueue = s.timerQueue) : Aside s u := aside_same hh hl ho (hq ▸ List.prefix_refl _)
  unfold State.step at h
  split at h
  · cases h
  cases a with
  | increment item =>
    simp only at h
    split at h
    · split at h <;> (obtain rfl := Option.some.inj h; exact hsame rfl rfl rfl rfl)
    · cases h
  | push k =>
    simp only at h
    split at h
    · rename_i item d _
      split at h
      · obtain rfl := Option.some.inj h
        exact aside_pushItem (s := s) (t := { s with enqueuers := s.enqueuers.set k (.pushed d) }) rfl rfl rfl rfl item
      · cases h
    · cases h
  | finishEnqueue k =>
    simp only at h
    split at h
    · obtain rfl := Option.some.inj h; exact hsame rfl rfl rfl rfl
    · cases h
  | wake => obtain rfl := Option.some.inj h; exact hsame rfl rfl rfl rfl
  | dispatch =>
    simp only at h
    split at h
    · obtain rfl := Option.some.inj h; exact hsame rfl rfl rfl rfl
    · cases h
  | load =>
    simp only at h
    split at h
    · split at h <;> (obtain rfl := Option.some.inj h; exact hsame rfl rfl rfl rfl)
    · cases h
  | acquire =>
    simp only at h
    split at h
    · split at h
      · obtain rfl := Option.some.inj h; exact hsame rfl rfl rfl rfl
      · obtain rfl := Option.some.inj h
        exact ⟨rfl, ⟨[], by simp [goto], by simp⟩, fun hk => by cases hk⟩
    · cases h
  | panics =>
    simp only at h
    split at h
    · split at h
      · obtain rfl := Option.some.inj h
        exact ⟨rfl, ⟨[], by simp [panic], by simp⟩, fun hk => by cases hk⟩
      · cases h
    · cases h
  | faulted k =>
    simp only at h
    split at h
    · obtain rfl := Option.some.inj h
      refine ⟨rfl, ⟨_, rfl, fun o ho => ?_⟩, fun _ => ⟨rfl, List.prefix_refl _⟩⟩
      split at ho
      · rw [List.mem_singleton.mp ho]
        rfl
      · cases ho
    · cases h
  | act k =>
    simp only at h
    split at h
    · split at h <;> (obtain rfl := Option.some.inj h; exact hsame rfl rfl rfl rfl)
    · cases h
  | exec => cases ha
  | returns r => cases ha
  | polled r => cases ha
  | schedule id kind => cases ha
  | cancel id => cases ha

end State

/-! ## The handles -/

/-- How the handles, the log and the history of the timers belong together. -/
structure Tracked (s : State) (issued : List (Nat × TimerKind)) (cancelled : List (Nat × Nat)) : Prop where
  nodup : (issued.map Prod.fst).Nodup
  known (id : Nat) (kind : TimerKind) : s.handles.lookup id = some kind → (id, kind) ∈ issued
  ran (id : Nat) : .timer id ∈ s.log → id ∈ issued.map Prod.fst
  once (id : Nat) : (id, .oneShot) ∈ issued → s.log.count (.timer id) ≤ 1
  unused (id : Nat) : s.handles.lookup id = some .oneShot → .timer id ∉ s.log
  gone (id k : Nat) : (id, k) ∈ cancelled →
    s.handles.lookup id = none ∧ k ≤ s.log.length ∧ .timer id ∉ s.log.drop k
  installed (id : Nat) (kind : TimerKind) : (id, kind) ∈ issued → id ∉ cancelled.map Prod.fst →
    (kind = .periodic ∨ .timer id ∉ s.log) → s.handles.lookup id = some kind

section Handles

variable {s t : State} {issued : List (Nat × TimerKind)} {cancelled : List (Nat × Nat)} {id : Nat} {kind : TimerKind}

theorem lookup_removed (handles : List (Nat × TimerKind)) (id id' : Nat) :
    (handles.filter (·.1 ≠ id)).lookup id' = if id' = id then none else handles.lookup id' := by
  have herase : handles.filter (·.1 ≠ id) = KeyedList.erase handles id := by
    unfold KeyedList.erase
    congr 1
    funext p
    simp only [ne_eq, decide_not]
    rfl
  rw [herase, KeyedList.lookup_erase]
  simp

/-- A timer has one kind. -/
theorem Tracked.kind_unique (h : Tracked s issued cancelled) {kind' : TimerKind} (h₁ : (id, kind) ∈ issued)
    (h₂ : (id, kind') ∈ issued) : kind = kind' :=
  congrArg Prod.snd (List.inj_on_of_nodup_map h.nodup h₁ h₂ rfl)

theorem Tracked.leaves (h : Tracked s issued cancelled) (hl : State.Leaves s t) : Tracked t issued cancelled := by
  obtain ⟨hh, l, ht, hl⟩ := hl
  have hmem (id : Nat) : .timer id ∈ t.log ↔ .timer id ∈ s.log := by
    rw [ht, List.mem_append]
    exact or_iff_left (hl id)
  refine ⟨h.nodup, hh ▸ h.known, fun id hid => h.ran id ((hmem id).mp hid), fun id hid => ?_,
    fun id hid hin => h.unused id (hh ▸ hid) ((hmem id).mp hin), fun id k hk => ?_, fun id kind hi hc hk => ?_⟩
  · rw [ht, List.count_append, List.count_eq_zero_of_not_mem (hl id)]
    exact h.once id hid
  · obtain ⟨h₁, h₂, h₃⟩ := h.gone id k hk
    refine ⟨hh ▸ h₁, ht ▸ Nat.le_trans h₂ (by simp), ?_⟩
    rw [ht, List.drop_append_of_le_length h₂, List.mem_append]
    exact fun hid => hid.elim h₃ (hl id)
  · rw [hh]
    exact h.installed id kind hi hc (hk.imp_right fun hn hid => hn ((hmem id).mpr hid))

/-- The handle of a timer that runs is removed if it runs once only. -/
theorem Tracked.run (h : Tracked s issued cancelled) (hid : s.handles.lookup id = some kind)
    (hh : t.handles = if kind = .oneShot then s.handles.filter (·.1 ≠ id) else s.handles)
    (ht : t.log = s.log ++ [.timer id]) : Tracked t issued cancelled := by
  have hother {id' : Nat} (hne : id' ≠ id) : t.handles.lookup id' = s.handles.lookup id' := by
    rw [hh]
    split
    · rw [lookup_removed, if_neg hne]
    · rfl
  have hsub {id' : Nat} {kind' : TimerKind} (hl : t.handles.lookup id' = some kind') :
      s.handles.lookup id' = some kind' := by
    by_cases hne : id' = id
    · subst hne
      rw [hh] at hl
      split at hl
      · rw [lookup_removed, if_pos rfl] at hl
        cases hl
      · exact hl
    · rwa [hother hne] at hl
  refine ⟨h.nodup, fun id' kind' hl => h.known id' kind' (hsub hl), fun id' hin => ?_, fun id' hi => ?_,
    fun id' hl hin => ?_, fun id' k hk => ?_, fun id' kind' hi hc hk => ?_⟩
  · rw [ht, List.mem_append, List.mem_singleton] at hin
    rcases hin with hin | hin
    · exact h.ran id' hin
    · obtain rfl := Obs.timer.inj hin
      exact List.mem_map_of_mem (h.known id' kind hid)
  · rw [ht, List.count_append]
    by_cases hne : id' = id
    · subst hne
      obtain rfl := h.kind_unique hi (h.known id' kind hid)
      rw [List.count_eq_zero_of_not_mem (h.unused id' hid)]
      simp
    · rw [List.count_eq_zero_of_not_mem (l := [Obs.timer id]) (by simpa using hne)]
      exact h.once id' hi
  · rw [ht, List.mem_append, List.mem_singleton] at hin
    rcases hin with hin | hin
    · exact h.unused id' (hsub hl) hin
    · obtain rfl := Obs.timer.inj hin
      obtain rfl := Option.some.inj ((hsub hl).symm.trans hid)
      rw [hh, if_pos rfl, lookup_removed, if_pos rfl] at hl
      cases hl
  · obtain ⟨h₁, h₂, h₃⟩ := h.gone id' k hk
    have hne : id' ≠ id := fun heq => by
      rw [heq, hid] at h₁
      cases h₁
    refine ⟨(hother hne).trans h₁, ht ▸ Nat.le_trans h₂ (by simp), ?_⟩
    rw [ht, List.drop_append_of_le_length h₂, List.mem_append, List.mem_singleton]
    exact fun hin => hin.elim h₃ fun heq => hne (Obs.timer.inj heq)
  · by_cases hne : id' = id
    · subst hne
      obtain rfl := h.kind_unique hi (h.known id' kind hid)
      have hperiodic : kind' = .periodic := hk.resolve_right fun hn => hn (by simp [ht])
      rw [hh, if_neg (by simp [hperiodic])]
      exact hid
    · rw [hother hne]
      exact h.installed id' kind' hi hc (hk.imp_right fun hn hin => hn (by simp [ht, hin]))

theorem Tracked.schedule (h : Tracked s issued cancelled) (hi : id ∉ issued.map Prod.fst)
    (hc : id ∉ cancelled.map Prod.fst) :
    Tracked { s with handles := (id, kind) :: s.handles } ((id, kind) :: issued) cancelled := by
  have hunran : .timer id ∉ s.log := fun hin => hi (h.ran id hin)
  have hlookup {id' : Nat} (hne : id' ≠ id) :
      ((id, kind) :: s.handles).lookup id' = s.handles.lookup id' := KeyedList.lookup_cons_of_ne hne kind s.handles
  have hself : ((id, kind) :: s.handles).lookup id = some kind := by simp
  refine ⟨List.nodup_cons.mpr ⟨hi, h.nodup⟩, fun id' kind' hl => ?_, fun id' hin => ?_, fun id' hin => ?_,
    fun id' hl => ?_, fun id' k hk => ?_, fun id' kind' hin hc' hk => ?_⟩
  · by_cases hne : id' = id
    · subst hne
      rw [hself] at hl
      obtain rfl := Option.some.inj hl
      exact List.mem_cons_self
    · rw [hlookup hne] at hl
      exact List.mem_cons_of_mem _ (h.known id' kind' hl)
  · exact List.mem_cons_of_mem _ (h.ran id' hin)
  · rcases List.mem_cons.mp hin with heq | hin
    · rw [show id' = id from congrArg Prod.fst heq, List.count_eq_zero_of_not_mem hunran]
      exact Nat.zero_le 1
    · exact h.once id' hin
  · by_cases hne : id' = id
    · exact hne ▸ hunran
    · rw [hlookup hne] at hl
      exact h.unused id' hl
  · have hne : id' ≠ id := fun heq => hc (heq ▸ List.mem_map_of_mem hk)
    rw [hlookup hne]
    exact h.gone id' k hk
  · rcases List.mem_cons.mp hin with heq | hin
    · obtain ⟨rfl, rfl⟩ := Prod.mk.inj heq
      exact hself
    · have hne : id' ≠ id := fun heq => hi (heq ▸ List.mem_map_of_mem hin)
      rw [hlookup hne]
      exact h.installed id' kind' hin hc' hk

theorem Tracked.cancel (h : Tracked s issued cancelled) :
    Tracked { s with handles := s.handles.filter (·.1 ≠ id) } issued ((id, s.log.length) :: cancelled) := by
  have hsub {id' : Nat} {kind' : TimerKind} (hl : (s.handles.filter (·.1 ≠ id)).lookup id' = some kind') :
      id' ≠ id ∧ s.handles.lookup id' = some kind' := by
    rw [lookup_removed] at hl
    split at hl
    · cases hl
    · exact ⟨‹_›, hl⟩
  refine ⟨h.nodup, fun id' kind' hl => h.known id' kind' (hsub hl).2, h.ran, h.once,
    fun id' hl => h.unused id' (hsub hl).2, fun id' k hk => ?_, fun id' kind' hi hc hk => ?_⟩
  · rw [lookup_removed]
    rcases List.mem_cons.mp hk with heq | hk
    · obtain ⟨rfl, rfl⟩ := Prod.mk.inj heq
      exact ⟨if_pos rfl, Nat.le_refl _, by simp⟩
    · obtain ⟨h₁, h₂⟩ := h.gone id' k hk
      refine ⟨?_, h₂⟩
      split
      · rfl
      · exact h₁
  · rw [List.map_cons, List.mem_cons, not_or] at hc
    rw [lookup_removed, if_neg hc.1]
    exact h.installed id' kind' hi hc.2 hk

end Handles

/-! ## The loop over the timers -/

namespace Timed

/-- In the loop: the timeouts that were queued and are not in the queue any more
have run, and others only after all of them. -/
structure Looping (t : Timed) : Prop where
  mark : t.mark ≤ t.state.log.length
  waiting : t.waiting <+: t.state.timerQueue
  ran : ∃ ran more, t.queued = ran ++ t.waiting ∧
    (t.state.log.drop t.mark).filter Obs.isHandler = (ran ++ more).map .timer ∧ (t.waiting ≠ [] → more = [])

structure Inv (t : Timed) : Prop where
  tracked : Tracked t.state t.issued t.cancelled
  loop : t.state.inTimers = true → t.Looping
  ends : ∀ e ∈ t.ends, (e.Ran ↔ e.prompt = true)

variable {cfg : Config} {t : Timed} {s' : State} {n : Nat}

theorem inv_initial (nPorts : Nat) : (initial nPorts).Inv where
  tracked := ⟨List.nodup_nil, nofun, nofun, nofun, nofun, nofun, nofun⟩
  loop := nofun
  ends := nofun

/-- Only the queue and the log matter. -/
theorem Looping.same (h : t.Looping) {u : Timed} (hu : u.queued = t.queued ∧ u.waiting = t.waiting ∧ u.mark = t.mark)
    (hq : u.state.timerQueue = t.state.timerQueue) (hl : u.state.log = t.state.log) : u.Looping := by
  obtain ⟨hmark, hwaiting, hran⟩ := h
  rw [← hl, ← hq, ← hu.1, ← hu.2.1, ← hu.2.2] at *
  exact ⟨hmark, hwaiting, hran⟩

/-- The loop takes the timeout at the front, which has a handle, and runs its action. -/
theorem Looping.run (h : t.Looping) {id : Nat} {timerQueue : List Nat} (hq : t.state.timerQueue = id :: timerQueue)
    {u : Timed} (hu : u.queued = t.queued ∧ u.waiting = t.waiting.tail ∧ u.mark = t.mark)
    (hs : u.state.timerQueue = timerQueue) (hl : u.state.log = t.state.log ++ [.timer id]) : u.Looping := by
  obtain ⟨hqueued, hwaiting, hmark⟩ := hu
  obtain ⟨ran, more, hran, hlog, hmore⟩ := h.ran
  have hdrop : (u.state.log.drop u.mark).filter Obs.isHandler = (ran ++ more ++ [id]).map .timer := by
    rw [hl, hmark, List.drop_append_of_le_length h.mark, List.filter_append, hlog]
    simp [Obs.isHandler]
  refine ⟨?_, ?_, ?_⟩
  · rw [hmark, hl]
    exact Nat.le_trans h.mark (by simp)
  · rw [hwaiting, hs]
    have hpre := h.waiting
    rw [hq] at hpre
    rcases List.prefix_cons_iff.mp hpre with hnil | ⟨w, hw, hpre⟩
    · simp [hnil]
    · rwa [hw]
  · cases hw : t.waiting with
    | nil =>
      refine ⟨ran, more ++ [id], ?_, by rw [hdrop, List.append_assoc], fun hne => absurd (by simp [hwaiting, hw]) hne⟩
      rw [hqueued, hran, hwaiting, hw]
      rfl
    | cons id' w =>
      have hid : id' = id := by
        have hpre := h.waiting
        rw [hq, hw] at hpre
        exact (List.cons_prefix_cons.mp hpre).1
      subst hid
      obtain rfl := hmore (by simp [hw])
      refine ⟨ran ++ [id'], [], ?_, by simpa using hdrop, fun _ => rfl⟩
      rw [hqueued, hran, hwaiting, hw]
      simp

/-- Where the loop ends below its quota, the timeouts that were queued have run
just when it did not end in front of a live one of them. -/
theorem Looping.ran_iff (h : t.Looping) (hl : s'.log = t.state.log) (hh : s'.handles = t.state.handles)
    (hq : ∀ id timerQueue, t.state.timerQueue = id :: timerQueue → t.state.handles.lookup id = none) :
    (t.loopEnd s').Ran ↔ (t.loopEnd s').prompt = true := by
  obtain ⟨ran, more, hran, hlog, hmore⟩ := h.ran
  -- what is left of those that were queued has no handle
  have hiff : (t.loopEnd s').Ran ↔ ∀ id ∈ t.waiting, t.state.handles.lookup id = none := by
    constructor
    · rintro ⟨ran', more', rest', hqueued, hhandled, hrest⟩ id hid
      change t.queued = _ at hqueued
      change (s'.log.drop t.mark).filter Obs.isHandler = _ at hhandled
      change ∀ id ∈ rest', s'.handles.lookup id = none at hrest
      obtain rfl := hmore (List.ne_nil_of_mem hid)
      rw [hl, hlog, List.append_nil] at hhandled
      have heq : ran = ran' ++ more' := List.map_injective_iff.mpr (fun _ _ => Obs.timer.inj) hhandled
      rw [hran, heq, List.append_assoc] at hqueued
      have hrest' := List.append_cancel_left hqueued
      exact hh ▸ hrest id (hrest' ▸ List.mem_append_right _ hid)
    · intro hgone
      refine ⟨ran, more, t.waiting, hran, ?_, fun id hid => ?_⟩
      · change (s'.log.drop t.mark).filter Obs.isHandler = _
        rw [hl, hlog]
      · change s'.handles.lookup id = none
        rw [hh, hgone id hid]
  rw [hiff]
  change _ ↔ t.prompt = true
  unfold prompt
  cases hqueue : t.state.timerQueue with
  | nil =>
    have hnil : t.waiting = [] := List.prefix_nil.mp (hqueue ▸ h.waiting)
    simp [hnil]
  | cons id timerQueue =>
    have hnone := hq id timerQueue hqueue
    rcases List.prefix_cons_iff.mp (hqueue ▸ h.waiting) with hnil | ⟨w, hw, -⟩
    · simp [hnil]
    · simp only [hw, List.tail_cons, hnone, Option.isSome_none, Bool.false_or, List.all_eq_true,
        Option.isNone_iff_eq_none, List.forall_mem_cons, true_and]

/-! ## Steps -/

/-- A step that the history does not note. -/
theorem Inv.away (h : t.Inv) (ha : t.state.Away s') : { t with state := s' }.Inv where
  tracked := h.tracked.leaves ha.leaves
  loop hin := nomatch ha.out.symm.trans hin
  ends := h.ends

theorem Looping.aside (h : t.Looping) (ha : t.state.Aside s') (hq : t.state.timerQueue <+: s'.timerQueue) :
    { t with state := s' }.Looping := by
  obtain ⟨l, hl, hquiet⟩ := ha.log
  obtain ⟨ran, more, hran, hlog, hmore⟩ := h.ran
  refine ⟨?_, h.waiting.trans hq, ran, more, hran, ?_, hmore⟩
  · show t.mark ≤ s'.log.length
    rw [hl]
    exact Nat.le_trans h.mark (by simp)
  · show (s'.log.drop t.mark).filter Obs.isHandler = _
    rw [hl, List.drop_append_of_le_length h.mark, List.filter_append, hlog,
      List.filter_eq_nil_iff.mpr fun o ho => by simp [hquiet o ho], List.append_nil]

theorem Inv.aside (h : t.Inv) (ha : t.state.Aside s') : { t with state := s' }.Inv where
  tracked := h.tracked.leaves ha.leaves
  loop hin := by
    obtain ⟨hh, hq⟩ := ha.loop hin
    refine (h.loop ?_).aside ha hq
    rw [← hin]
    simp only [inTimers, hh]
  ends := h.ends

/-- A handler of a timer returns to the loop. -/
theorem Inv.returns (h : t.Inv) (hh : t.state.holder = some (.inTimer n)) :
    { t with state := t.state.goto (.timers (n + 1)) }.Inv where
  tracked := h.tracked.leaves (leaves_same rfl rfl)
  loop _ := (h.loop (by simp [inTimers, hh])).same ⟨rfl, rfl, rfl⟩ rfl rfl
  ends := h.ends

/-- The loop starts. -/
theorem Inv.start (h : t.Inv) (pc : Pc) :
    Inv { t with
      state := t.state.goto pc
      queued := t.state.timerQueue
      waiting := t.state.timerQueue
      mark := t.state.log.length } where
  tracked := h.tracked.leaves (leaves_same rfl rfl)
  loop _ := ⟨Nat.le_refl _, List.prefix_refl _, [], [], rfl, by simp [goto], fun _ => rfl⟩
  ends := h.ends

/-- The loop ends below its quota. -/
theorem Inv.finish (h : t.Inv) (hin : t.state.inTimers = true) (hl : s'.log = t.state.log)
    (hh : s'.handles = t.state.handles)
    (hq : ∀ id timerQueue, t.state.timerQueue = id :: timerQueue → t.state.handles.lookup id = none)
    (hout : s'.inTimers = false) :
    { t with state := s', waiting := t.waiting.tail, ends := t.loopEnd s' :: t.ends }.Inv where
  tracked := h.tracked.leaves (leaves_same hh hl)
  loop hin := nomatch hout.symm.trans hin
  ends := List.forall_mem_cons.mpr ⟨(h.loop hin).ran_iff hl hh hq, h.ends⟩

/-- The loop runs an action. -/
theorem Inv.run (h : t.Inv) (hin : t.state.inTimers = true) {id : Nat} {kind : TimerKind} {timerQueue : List Nat}
    (hq : t.state.timerQueue = id :: timerQueue) (hid : t.state.handles.lookup id = some kind)
    (hs : s'.timerQueue = timerQueue)
    (hh : s'.handles = if kind = .oneShot then t.state.handles.filter (·.1 ≠ id) else t.state.handles)
    (hl : s'.log = t.state.log ++ [.timer id]) : { t with state := s', waiting := t.waiting.tail }.Inv where
  tracked := h.tracked.run hid hh hl
  loop _ := (h.loop hin).run hq ⟨rfl, rfl, rfl⟩ hs hl
  ends := h.ends

theorem goto_holder (s : State) (pc : Pc) : (s.goto pc).holder = some pc := rfl

theorem Inv.tryAction (h : t.Inv) (hh : t.state.holder = some (.timers n)) (hn : n < cfg.maxEvents) :
    (t.after cfg .exec (t.state.tryAction n)).Inv := by
  have hin : t.state.inTimers = true := by simp [inTimers, hh]
  simp only [after, hh, hn, if_true]
  unfold State.tryAction
  split
  · rename_i hq
    simp only [goto_holder, if_true]
    exact h.finish hin rfl rfl (fun id timerQueue heq => nomatch hq.symm.trans heq) rfl
  · rename_i id timerQueue hq
    simp only
    split
    · rename_i hid
      rw [if_neg (by simp [goto])]
      exact h.run hin hq hid rfl rfl rfl
    · rename_i hid
      rw [if_neg (by simp [goto])]
      exact h.run hin hq hid rfl rfl rfl
    · rename_i hid
      simp only [goto_holder, if_true]
      refine h.finish hin rfl rfl (fun id' timerQueue' heq => ?_) rfl
      obtain ⟨rfl, -⟩ := List.cons.inj (hq.symm.trans heq)
      exact hid

theorem Inv.exec {pc : Pc} (h : t.Inv) (hh : t.state.holder = some pc) (hs : t.state.execStep cfg pc = some s') :
    (t.after cfg .exec s').Inv := by
  by_cases hc : ∃ n, pc = .activeCheck n
  · obtain ⟨n, rfl⟩ := hc
    obtain rfl := Option.some.inj hs
    simp only [after, hh]
    exact h.start _
  by_cases ht : ∃ n, pc = .timers n
  · obtain ⟨n, rfl⟩ := ht
    obtain rfl := Option.some.inj hs
    split
    · exact h.tryAction hh ‹_›
    · simp only [after, hh, if_neg ‹_›]
      exact h.away ((leaves_same rfl rfl).goto (.messages n) rfl)
  have haway := away_execStep hh (fun n hn => hc ⟨n, hn⟩) (fun n hn => ht ⟨n, hn⟩) hs
  have hafter : t.after cfg .exec s' = { t with state := s' } := by
    unfold after
    rw [hh]
    cases pc with
    | activeCheck n => exact absurd ⟨n, rfl⟩ hc
    | timers n => exact absurd ⟨n, rfl⟩ ht
    | _ => rfl
  rw [hafter]
  exact h.away haway

/-- Only the steps of the executor and of its user code are noted. -/
theorem after_of_ofHolder {a : Action} (ha : ofHolder a = false) : t.after cfg a s' = { t with state := s' } := by
  cases a with
  | exec => cases ha
  | returns r => cases ha
  | polled r => cases ha
  | schedule id kind => cases ha
  | cancel id => cases ha
  | _ => rfl

theorem Inv.component {a : Action} (h : t.Inv) (hf : t.Fresh (.component a)) (hs : t.state.step cfg a = some s') :
    (t.after cfg a s').Inv := by
  by_cases ha : ofHolder a = false
  · rw [after_of_ofHolder ha]
    exact h.aside (aside_step ha hs)
  unfold State.step at hs
  split at hs
  · cases hs
  cases a with
  | exec =>
    obtain ⟨pc, hh, hs⟩ := Option.bind_eq_some_iff.mp hs
    exact h.exec hh hs
  | returns r =>
    obtain ⟨pc, hh, hs⟩ := Option.bind_eq_some_iff.mp hs
    rcases away_handlerReturns hs with haway | ⟨n, rfl, rfl⟩
    · exact h.away haway
    · exact h.returns hh
  | polled r =>
    obtain ⟨pc, hh, hs⟩ := Option.bind_eq_some_iff.mp hs
    exact h.away (away_polled hs)
  | schedule id kind =>
    simp only at hs
    split at hs
    · split at hs
      · obtain rfl := Option.some.inj hs
        exact ⟨h.tracked.schedule hf.1 hf.2, fun hin => (h.loop hin).same ⟨rfl, rfl, rfl⟩ rfl rfl, h.ends⟩
      · cases hs
    · cases hs
  | cancel id =>
    simp only at hs
    split at hs
    · split at hs
      · obtain rfl := Option.some.inj hs
        exact ⟨h.tracked.cancel, fun hin => (h.loop hin).same ⟨rfl, rfl, rfl⟩ rfl rfl, h.ends⟩
      · cases hs
    · cases hs
  | _ => exact absurd rfl ha

theorem Inv.step {t' : Timed} {a : TimedAction} (h : t.Inv) (hf : t.Fresh a) (hs : t.step cfg a = some t') :
    t'.Inv := by
  cases a with
  | component a =>
    obtain ⟨s', hstep, rfl⟩ := Option.map_eq_some_iff.mp hs
    exact h.component hf hstep
  | schedule id kind =>
    simp only [Timed.step] at hs
    split at hs
    · obtain rfl := Option.some.inj hs
      exact ⟨h.tracked.schedule hf.1 hf.2, fun hin => (h.loop hin).same ⟨rfl, rfl, rfl⟩ rfl rfl, h.ends⟩
    · cases hs
  | cancel id =>
    simp only [Timed.step] at hs
    split at hs
    · obtain rfl := Option.some.inj hs
      exact ⟨h.tracked.cancel, fun hin => (h.loop hin).same ⟨rfl, rfl, rfl⟩ rfl rfl, h.ends⟩
    · cases hs

end Timed

/-- In every run in which new timers have new ids, one-shot actions run at most
once, cancelled actions do not run, the others stay installed, and the live
timeouts that were queued when the loops over them started have run when they
ended below their quota, just where no loop ended in front of one. -/
theorem timer_runs {cfg : Config} {nPorts : Nat} {t : Timed}
    (h : Reach (Timed.step cfg) Timed.Fresh (Timed.initial nPorts) t) :
    t.Respected ∧ ((∀ e ∈ t.ends, e.Ran) ↔ ∀ e ∈ t.ends, e.prompt = true) := by
  have hinv : t.Inv := h.invariant Timed.Inv (Timed.inv_initial nPorts) fun hi hok hs => hi.step hok hs
  refine ⟨⟨hinv.tracked.once, fun id k hk => (hinv.tracked.gone id k hk).2.2, hinv.tracked.installed⟩, ?_⟩
  exact ⟨fun hr e he => (hinv.ends e he).mp (hr e he), fun hp e he => (hinv.ends e he).mpr (hp e he)⟩

/-- A component is started and schedules two timers in `on_start`, where both
timeouts and a message are queued; `tail` are the steps before `on_start` returns. -/
def startWithTwoTimers (tail : List Action) : List TimedAction :=
  let start : List Action := [.increment (.control .start), .push 0, .finishEnqueue 0, .dispatch, .load, .acquire,
    .exec, .exec, .exec, .schedule 7 .oneShot, .schedule 8 .periodic, .increment (.timeout 7), .push 0,
    .increment (.timeout 8), .push 0, .increment (.message 5), .push 0]
  (start ++ tail).map .component

/-- Both timers run before the message. -/
theorem timer_runs_both :
    let run := startWithTwoTimers [.returns .ok, .exec, .exec, .exec, .returns .ok, .exec, .returns .ok, .exec, .exec]
    ∃ h : (runActions (Timed.step ⟨10, 5, true⟩) (Timed.initial 0) run).isSome,
      (Option.get _ h).Respected ∧
        ((∀ e ∈ (Option.get _ h).ends, e.Ran) ↔ ∀ e ∈ (Option.get _ h).ends, e.prompt = true) :=
  ⟨by decide, timer_runs (Reach.of_run _ (by decide) (by decide))⟩

/-- The first timer is cancelled in `on_start`. The loop ends at its timeout, and
the message is handled before the other timer, which is live. -/
theorem not_ran_behind_cancelled :
    ∃ t, Reach (Timed.step ⟨10, 5, true⟩) Timed.Fresh (Timed.initial 0) t ∧
      t.state.log = [.onStart, .sent .started, .message 5] ∧ t.state.timerQueue = [8] ∧
      t.state.handles.lookup 8 = some .periodic ∧ ∃ e ∈ t.ends, e.queued = [7, 8] ∧ ¬ e.Ran := by
  refine ⟨_, Reach.of_run (startWithTwoTimers [.cancel 7, .returns .ok, .exec, .exec, .exec, .exec]) (by decide)
    (by decide), by decide, by decide, by decide, ⟨[7, 8], [], [(8, .periodic)], false⟩, by decide, rfl, ?_⟩
  rintro ⟨ran, more, rest, hqueued, hhandled, hrest⟩
  have hnil : ran = [] := (List.append_eq_nil_iff.mp (List.map_eq_nil_iff.mp hhandled.symm)).1
  subst hnil
  have hmem : 8 ∈ rest := by
    rw [← show [7, 8] = rest from hqueued]
    decide
  exact absurd (hrest 8 hmem) (by decide)

end Kompact.Component
