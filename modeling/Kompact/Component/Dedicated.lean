import Kompact.Component.Wakeup

/-!
# Components with a thread of their own

A component that is created with a dedicated scheduler is executed by the run
loop of one thread, which parks when there is nothing to do. Scheduling the
component unparks the thread.

Not all who give work schedule the component. References to ports and to the
timer hand it to the scheduler of the system themselves, whose threads then
execute it as well, and the dedicated thread is not unparked.
`confined_of_reach` says that the component is confined to its thread in every
run in which no such reference is told to schedule it.

Inside `execute` the executors are not told apart: whoever is under way may
take a decision that was returned.
-/

namespace Kompact.Component.Dedicated

/-- The ways to give work: actor references, control events (also those of the
wakers of futures that do not block), ports, and the timer. -/
inductive Work where
  | message (m : Nat)
  | control (ev : ControlEvent)
  | provided (i e : Nat)
  | required (i e : Nat)
  | timeout (id : Nat)
  deriving DecidableEq, Repr

def Work.item : Work → Item
  | message m => .message m
  | control ev => .control ev
  | provided i e => .port i e
  | required i e => .port i e
  | timeout id => .timeout id

/-- The reference calls `system.schedule` and not `schedule` of the component. -/
def Work.bySystem : Work → Bool
  | message _ => false
  | control _ => false
  | provided _ _ => true
  | required _ _ => true
  | timeout _ => true

inductive Executor where
  | dedicated
  | shared
  deriving DecidableEq, Repr

/-- Where the run loop is. -/
inductive Thread where
  | head
  | executing
  | returned (res : SchedulingDecision)
  /-- There is nothing to do: it snoozes, or parks. -/
  | idle
  | parked
  | stopped
  | panicked
  deriving DecidableEq, Repr

/-- An enqueue that is done: its decision, and whether it unparked the thread. -/
structure Acted where
  work : Work
  decision : SchedulingDecision
  unparked : Bool
  deriving DecidableEq, Repr

structure State where
  /-- The component; `queued` is how often the scheduler of the system has it. -/
  comp : Component.State
  /-- The work of the enqueuers, in their order. -/
  works : List Work
  thread : Thread
  /-- What `park` waits for. -/
  permit : Bool
  /-- How often the thread was unparked. -/
  unparks : Nat
  stop : Bool
  /-- Executions under way on the scheduler of the system. -/
  shared : Nat
  /-- Who began each execution, the last first. -/
  executed : List Executor
  acted : List Acted
  deriving DecidableEq, Repr

def initial (nPorts : Nat) : State where
  comp := Component.initial nPorts
  works := []
  thread := .head
  permit := false
  unparks := 0
  stop := false
  shared := 0
  executed := []
  acted := []

inductive Action where
  | increment (work : Work)
  | push (k : Nat)
  | finishEnqueue (k : Nat)
  /-- The waker of a blocking future. -/
  | wake
  /-- A step inside `execute`, or of user code that runs there. -/
  | inner (a : Component.Action)
  /-- The run loop calls `execute`. -/
  | execute
  /-- `execute` returns the `k`-th decision to the run loop. -/
  | returnToLoop (k : Nat)
  /-- The run loop looks at what was returned. -/
  | decide
  | snooze
  | park
  /-- `park` returns, which it may also without a permit. -/
  | unparked
  | shutdown
  /-- A thread of the system's scheduler takes the component and calls `execute`. -/
  | dispatch
  /-- `execute` returns the `k`-th decision to `maybe_reschedule`. -/
  | maybeReschedule (k : Nat)
  deriving DecidableEq, Repr

/-- The steps that `execute` and the code it runs are made of. -/
def isInner : Component.Action → Bool
  | .load => true
  | .acquire => true
  | .exec => true
  | .returns _ => true
  | .polled _ => true
  | .panics => true
  | .faulted _ => true
  | .schedule _ _ => true
  | .cancel _ => true
  | _ => false

namespace State

/-- `schedule_custom` -/
def unpark (s : State) : State := { s with permit := true, unparks := s.unparks + 1 }

/-- `Component::schedule`, where there is a custom scheduler. -/
def schedule (s : State) : State := s.unpark

/-- `KompactSystem::schedule` -/
def systemSchedule (s : State) : State := { s with comp := { s.comp with queued := s.comp.queued + 1 } }

/-- What an enqueue does that is told to schedule. -/
def scheduleFor (s : State) (work : Work) : State := if work.bySystem then s.systemSchedule else s.schedule

/-- The run loop after `execute`. -/
def afterExecute (s : State) (res : SchedulingDecision) : Thread :=
  if s.comp.word.flag = .destroyed ∨ s.stop then .stopped
  else
    match res with
    | .noWork => .idle
    | .blocked => .idle
    | .resume => .head
    | .schedule => .head
    | .alreadyScheduled => .panicked

/-- `execute` begins. -/
def beginExecute (s : State) (by' : Executor) : State :=
  { s with comp := { s.comp with starting := s.comp.starting + 1 }, executed := by' :: s.executed }

/-- One step, where the action can be taken. -/
def step (cfg : Config) (s : State) (a : Action) : Option State :=
  if s.comp.crashed.isSome then none
  else match a with
  | .increment work =>
    (s.comp.step cfg (.increment work.item)).map fun comp =>
      { s with comp, works := if comp.crashed.isSome then s.works else work :: s.works }
  | .push k => (s.comp.step cfg (.push k)).map fun comp => { s with comp }
  | .finishEnqueue k =>
    match s.comp.enqueuers[k]?, s.works[k]? with
    | some (.pushed d), some work =>
      let s₁ := { s with
        comp := { s.comp with enqueuers := s.comp.enqueuers.eraseIdx k }
        works := s.works.eraseIdx k }
      let s₂ := if d = .schedule then s₁.scheduleFor work else s₁
      some { s₂ with acted := ⟨work, d, s.unparks < s₂.unparks⟩ :: s₂.acted }
    | _, _ => none
  | .wake => some s.schedule
  | .inner a => if isInner a then (s.comp.step cfg a).map fun comp => { s with comp } else none
  | .execute => if s.thread = .head then some { s.beginExecute .dedicated with thread := .executing } else none
  | .returnToLoop k =>
    match s.thread, s.comp.decided[k]? with
    | .executing, some d =>
      some { s with comp := { s.comp with decided := s.comp.decided.eraseIdx k }, thread := .returned d }
    | _, _ => none
  | .decide =>
    match s.thread with
    | .returned res => some { s with thread := s.afterExecute res }
    | _ => none
  | .snooze => if s.thread = .idle then some { s with thread := .head } else none
  | .park => if s.thread = .idle then some { s with thread := .parked } else none
  | .unparked => if s.thread = .parked then some { s with thread := .head, permit := false } else none
  | .shutdown => some { s with stop := true }
  | .dispatch =>
    if 0 < s.comp.queued then
      let s := { s with comp := { s.comp with queued := s.comp.queued - 1 }, shared := s.shared + 1 }
      some (s.beginExecute .shared)
    else none
  | .maybeReschedule k =>
    match s.comp.decided[k]? with
    | some d =>
      if 0 < s.shared then
        let s := { s with comp := { s.comp with decided := s.comp.decided.eraseIdx k }, shared := s.shared - 1 }
        match d with
        | .schedule => some s.systemSchedule
        | .resume => some ({ s with shared := s.shared + 1 }.beginExecute .shared)
        | _ => some s
      else none
    | none => none

end State

/-- No reference that schedules at the system is told to: the component is
neither active nor passive without work when a port event or a timeout comes. -/
def Calm (s : State) : Action → Prop
  | .increment work => work.bySystem = true → s.comp.word.intoSchedulingDecision ≠ .schedule
  | _ => True

instance (s : State) : (a : Action) → Decidable (Calm s a)
  | .increment work =>
    inferInstanceAs (Decidable (work.bySystem = true → s.comp.word.intoSchedulingDecision ≠ .schedule))
  | .push _ | .finishEnqueue _ | .wake | .inner _ | .execute | .returnToLoop _ | .decide | .snooze | .park
  | .unparked | .shutdown | .dispatch | .maybeReschedule _ => inferInstanceAs (Decidable True)

/-- Every execution was begun by the run loop, the system's scheduler has no part
in it, and every enqueue that was told to schedule unparked the thread. -/
structure Confined (s : State) : Prop where
  executed : ∀ e ∈ s.executed, e = .dedicated
  shared : s.shared = 0
  queued : s.comp.queued = 0
  unparked : ∀ a ∈ s.acted, a.decision = .schedule → a.unparked = true

/-! ## What `execute` leaves alone -/

/-- The enqueuers and the queue of the system's scheduler are as before. -/
structure Outside (c c' : Component.State) : Prop where
  enqueuers : c'.enqueuers = c.enqueuers
  queued : c'.queued = c.queued

section

variable {cfg : Config} {c c' : Component.State}

theorem Outside.goto (h : Outside c c') (pc : Pc) : Outside c (c'.goto pc) := ⟨h.enqueuers, h.queued⟩

theorem outside_settle (ev : ControlEvent) : Outside c (c.settle cfg ev) := by
  cases ev <;> exact ⟨rfl, rfl⟩

theorem outside_unblock (t : StateTransition) : Outside c (c.unblock cfg t) := by
  cases t <;> exact ⟨rfl, rfl⟩

theorem outside_enterControl (n : Nat) (ev : ControlEvent) : Outside c (c.enterControl n ev) := by
  cases ev <;> exact ⟨rfl, rfl⟩

theorem outside_decrement (n : Nat) (next : SchedulingDecision → Pc) : Outside c (c.decrement n next) := by
  unfold State.decrement
  split <;> exact ⟨rfl, rfl⟩

theorem outside_resolve (d : SchedulingDecision) (r : Option HandlerResult) : Outside c (c.resolve cfg d r) := by
  cases r with
  | none => exact ⟨rfl, rfl⟩
  | some r => cases r <;> exact ⟨rfl, rfl⟩

theorem outside_checkAndHandleBlocking (n : Nat) (next : Pc) (r : HandlerResult) :
    Outside c (c.checkAndHandleBlocking cfg n next r) := by
  cases r <;> exact ⟨rfl, rfl⟩

theorem outside_takes {k : Nat} (h : c.Takes k c') : Outside c c' := by
  cases h <;> exact ⟨rfl, rfl⟩

theorem outside_execStep {pc : Pc} (h : c.execStep cfg pc = some c') : Outside c c' := by
  cases State.executes_of_execStep h with
  | enter => exact outside_enterControl _ _
  | loop _ _ ht _ => exact (outside_takes ht).goto _
  | subtract => exact outside_decrement _ _
  | resolve => exact outside_resolve _ _
  | finish => exact outside_decrement _ _
  | _ => exact ⟨rfl, rfl⟩

theorem outside_handlerReturns {pc : Pc} {r : HandlerResult} (h : c.handlerReturns cfg r pc = some c') :
    Outside c c' := by
  cases pc with
  | inControl ev n =>
    cases r with
    | ok => obtain rfl := Option.some.inj h; exact (outside_settle ev).goto _
    | benign => obtain rfl := Option.some.inj h; exact (outside_settle ev).goto _
    | shutdown =>
      obtain rfl := Option.some.inj h
      split <;> exact ⟨rfl, rfl⟩
    | _ => obtain rfl := Option.some.inj h; exact ⟨rfl, rfl⟩
  | inTimer n => obtain rfl := Option.some.inj h; exact outside_checkAndHandleBlocking _ _ _
  | inMessage n => obtain rfl := Option.some.inj h; exact outside_checkAndHandleBlocking _ _ _
  | inMoreMessage n => obtain rfl := Option.some.inj h; exact outside_checkAndHandleBlocking _ _ _
  | inPort n l => cases r <;> (obtain rfl := Option.some.inj h; exact ⟨rfl, rfl⟩)
  | inShutdown n => cases r <;> (obtain rfl := Option.some.inj h; exact ⟨rfl, rfl⟩)
  | _ => cases h

theorem outside_polled {pc : Pc} {r : Option HandlerResult} (h : State.polled cfg c r pc = some c') :
    Outside c c' := by
  cases State.polls_of_polled h with
  | completed => exact (outside_unblock _).goto _
  | _ => exact ⟨rfl, rfl⟩

theorem outside_inner {a : Component.Action} (ha : isInner a = true) (h : c.step cfg a = some c') : Outside c c' := by
  obtain ⟨-, hdoes⟩ := State.does_of_step h
  cases hdoes with
  | exec _ hs => exact outside_execStep hs
  | returns _ hs => exact outside_handlerReturns hs
  | polled _ hs => exact outside_polled hs
  | increment => cases ha
  | overflow => cases ha
  | push => cases ha
  | finishEnqueue => cases ha
  | wake => cases ha
  | dispatch => cases ha
  | actSchedule => cases ha
  | actResume => cases ha
  | actNothing => cases ha
  | _ => exact ⟨rfl, rfl⟩

end

/-! ## Confinement over runs -/

/-- An enqueue that is under way is not told to schedule at the system. -/
def Quiet (works : List Work) (enqueuers : List Enqueuer) : Prop :=
  ∀ (k : Nat) (w : Work) (e : Enqueuer), works[k]? = some w → enqueuers[k]? = some e → w.bySystem = true →
    e.decision ≠ .schedule

section

variable {works : List Work} {enqueuers : List Enqueuer}

theorem Quiet.cons {w : Work} {e : Enqueuer} (h : Quiet works enqueuers)
    (he : w.bySystem = true → e.decision ≠ .schedule) : Quiet (w :: works) (e :: enqueuers) := by
  intro k w' e' hw' he'
  cases k with
  | zero =>
    obtain rfl := Option.some.inj hw'
    obtain rfl := Option.some.inj he'
    exact he
  | succ k => exact h k w' e' hw' he'

/-- Pushing the item keeps the decision. -/
theorem Quiet.set {k : Nat} {e e₁ : Enqueuer} (h : Quiet works enqueuers) (hk : enqueuers[k]? = some e)
    (hd : e₁.decision = e.decision) : Quiet works (enqueuers.set k e₁) := by
  intro k' w' e' hw' he'
  rw [List.getElem?_set] at he'
  split at he'
  · rename_i hkk
    subst hkk
    split at he'
    · obtain rfl := Option.some.inj he'
      rw [hd]
      exact h k w' e hw' hk
    · cases he'
  · exact h k' w' e' hw' he'

theorem Quiet.eraseIdx (h : Quiet works enqueuers) (k : Nat) : Quiet (works.eraseIdx k) (enqueuers.eraseIdx k) := by
  intro k' w' e' hw' he'
  rw [List.getElem?_eraseIdx] at hw' he'
  split at hw'
  · rename_i hlt
    rw [if_pos hlt] at he'
    exact h k' w' e' hw' he'
  · rename_i hlt
    rw [if_neg hlt] at he'
    exact h (k' + 1) w' e' hw' he'

end

structure Inv (s : State) : Prop where
  confined : Confined s
  quiet : Quiet s.works s.comp.enqueuers

theorem inv_initial (nPorts : Nat) : Inv (initial nPorts) where
  confined := ⟨(fun e he => by cases he), rfl, rfl, (fun a ha => by cases ha)⟩
  quiet := (fun k w e hw => by cases hw)

section

variable {cfg : Config} {s s' : State}

/-- What leaves the executions and the enqueues that are done alone. -/
theorem Confined.frame (h : Confined s) (he : s'.executed = s.executed) (hs : s'.shared = s.shared)
    (hq : s'.comp.queued = s.comp.queued) (ha : s'.acted = s.acted) : Confined s' where
  executed := he ▸ h.executed
  shared := hs.trans h.shared
  queued := hq.trans h.queued
  unparked := ha ▸ h.unparked

theorem Inv.frame (h : Inv s) (he : s'.executed = s.executed) (hs : s'.shared = s.shared)
    (hq : s'.comp.queued = s.comp.queued) (ha : s'.acted = s.acted) (hw : s'.works = s.works)
    (hen : s'.comp.enqueuers = s.comp.enqueuers) : Inv s' where
  confined := h.confined.frame he hs hq ha
  quiet := by
    rw [hw, hen]
    exact h.quiet

/-- Whoever begins: the increment is told what the word decided. -/
theorem Inv.increment {work : Work} {comp : Component.State} (h : Inv s)
    (hcalm : work.bySystem = true → s.comp.word.intoSchedulingDecision ≠ .schedule)
    (hs : s.comp.step cfg (.increment work.item) = some comp) :
    Inv { s with comp, works := if comp.crashed.isSome then s.works else work :: s.works } := by
  unfold Component.State.step at hs
  split at hs
  · cases hs
  rename_i hc
  simp only at hs
  split at hs
  swap
  · cases hs
  split at hs
  · rename_i d word hw
    obtain rfl := Option.some.inj hs
    refine ⟨h.confined.frame rfl rfl rfl rfl, ?_⟩
    simp only [hc]
    refine h.quiet.cons fun hb => ?_
    unfold Lifecycle.incrementWork at hw
    split at hw
    · obtain ⟨rfl, -⟩ := Prod.mk.inj (Option.some.inj hw)
      exact hcalm hb
    · cases hw
  · obtain rfl := Option.some.inj hs
    exact h.frame rfl rfl rfl rfl rfl rfl

theorem Inv.push {k : Nat} {comp : Component.State} (h : Inv s) (hs : s.comp.step cfg (.push k) = some comp) :
    Inv { s with comp } := by
  obtain ⟨-, hdoes⟩ := State.does_of_step hs
  cases hdoes with
  | @push _ item d hk _ => cases item <;> exact ⟨h.confined.frame rfl rfl rfl rfl, h.quiet.set hk rfl⟩
  | setHandles handles => exact h.frame rfl rfl rfl rfl rfl rfl

/-- An enqueue is noted that unparked the thread if it was told to schedule. -/
theorem Confined.act (h : Confined s) (act : Acted) (hact : act.decision = .schedule → act.unparked = true)
    (he : s'.executed = s.executed) (hs : s'.shared = s.shared) (hq : s'.comp.queued = s.comp.queued)
    (ha : s'.acted = act :: s.acted) : Confined s' where
  executed := he ▸ h.executed
  shared := hs.trans h.shared
  queued := hq.trans h.queued
  unparked := by
    intro a' ha' hd
    rw [ha] at ha'
    rcases List.mem_cons.mp ha' with rfl | ha'
    · exact hact hd
    · exact h.unparked a' ha' hd

/-- Who is told to schedule unparks the thread: the others, who would hand the
component to the system, are not told to. -/
theorem Inv.scheduleFor {work : Work} {d : SchedulingDecision} {unparks : Nat} (h : Inv s)
    (hd : work.bySystem = true → d ≠ .schedule) (hu : s.unparks = unparks) :
    let s₂ := if d = .schedule then s.scheduleFor work else s
    Inv { s₂ with acted := ⟨work, d, unparks < s₂.unparks⟩ :: s₂.acted } := by
  by_cases hsched : d = .schedule
  · have hb : work.bySystem = false := by
      cases hb : work.bySystem with
      | false => rfl
      | true => exact absurd hsched (hd hb)
    simp only [hsched, if_true, State.scheduleFor, hb, Bool.false_eq_true, if_false]
    refine ⟨h.confined.act ⟨work, .schedule, true⟩ (fun _ => rfl) rfl rfl rfl ?_, h.quiet⟩
    simp [State.schedule, State.unpark, hu]
  · simp only [hsched, if_false]
    exact ⟨h.confined.act ⟨work, d, _⟩ (fun he => absurd he hsched) rfl rfl rfl rfl, h.quiet⟩

/-- The run loop calls `execute`. -/
theorem Inv.execute (h : Inv s) : Inv { s.beginExecute .dedicated with thread := .executing } where
  confined := {
    executed := fun e he => by
      rcases List.mem_cons.mp he with rfl | he
      · rfl
      · exact h.confined.executed e he
    shared := h.confined.shared
    queued := h.confined.queued
    unparked := h.confined.unparked }
  quiet := h.quiet

/-- One step whose enqueue, if it begins one, is not told to hand the component
to the system. -/
theorem Inv.step {a : Action} (h : Inv s) (hcalm : Calm s a) (hs : s.step cfg a = some s') : Inv s' := by
  unfold State.step at hs
  split at hs
  · cases hs
  cases a with
  | increment work =>
    obtain ⟨comp, hcomp, rfl⟩ := Option.map_eq_some_iff.mp hs
    exact h.increment hcalm hcomp
  | push k =>
    obtain ⟨comp, hcomp, rfl⟩ := Option.map_eq_some_iff.mp hs
    exact h.push hcomp
  | finishEnqueue k =>
    simp only at hs
    split at hs
    swap
    · cases hs
    rename_i d work hk hw
    obtain rfl := Option.some.inj hs
    have hd : work.bySystem = true → d ≠ .schedule := h.quiet k work (.pushed d) hw hk
    exact Inv.scheduleFor ⟨h.confined.frame rfl rfl rfl rfl, h.quiet.eraseIdx k⟩ hd rfl
  | wake =>
    obtain rfl := Option.some.inj hs
    exact h.frame rfl rfl rfl rfl rfl rfl
  | inner a =>
    simp only at hs
    split at hs
    swap
    · cases hs
    rename_i ha
    obtain ⟨comp, hcomp, rfl⟩ := Option.map_eq_some_iff.mp hs
    have hout : Outside s.comp comp := outside_inner ha hcomp
    exact h.frame rfl rfl hout.queued rfl rfl hout.enqueuers
  | execute =>
    simp only at hs
    split at hs
    · obtain rfl := Option.some.inj hs
      exact h.execute
    · cases hs
  | returnToLoop _ | decide | snooze | park | unparked =>
    -- the run loop goes on
    simp only at hs
    split at hs
    · obtain rfl := Option.some.inj hs
      exact h.frame rfl rfl rfl rfl rfl rfl
    · cases hs
  | shutdown =>
    obtain rfl := Option.some.inj hs
    exact h.frame rfl rfl rfl rfl rfl rfl
  | dispatch =>
    -- the system's scheduler does not have the component
    simp only [h.confined.queued, Nat.lt_irrefl, if_false] at hs
    cases hs
  | maybeReschedule k =>
    simp only [h.confined.shared, Nat.lt_irrefl, if_false] at hs
    split at hs <;> cases hs

/-- In every run in which no port event and no timeout comes to a component that
is active or passive and without work, all executions are those of its own
thread, and every enqueue that is told to schedule unparks it. -/
theorem confined_of_reach {nPorts : Nat} (h : Reach (State.step cfg) Calm (initial nPorts) s) : Confined s :=
  (Reach.invariant Inv (inv_initial nPorts) (fun h hcalm hs => h.step hcalm hs) h).confined

end

/-- A port event is given while a control event is: only the control event is told
to schedule, and it unparks the thread. -/
theorem confined_of_reach_started :
    let run : List Action := [.execute, .inner .load, .inner .acquire, .increment (.control .start),
      .increment (.provided 0 7), .push 0, .push 1, .finishEnqueue 0, .finishEnqueue 0]
    ∃ h : (runActions (State.step ⟨10, 5, true⟩) (initial 1) run).isSome,
      (Option.get _ h).executed = [.dedicated] ∧
        (Option.get _ h).acted = [⟨.control .start, .schedule, true⟩, ⟨.provided 0 7, .alreadyScheduled, false⟩] ∧
        Confined (Option.get _ h) :=
  ⟨by decide, by decide, by decide, confined_of_reach (Reach.of_run _ (by decide) (by decide))⟩

/-- An event at a provided port comes to a component without work: a thread of the
system's scheduler executes it, and its own thread is not unparked. -/
theorem not_confined_provided : ¬ ∀ (cfg : Config) (nPorts : Nat) (s : State),
    Reach (State.step cfg) (fun _ _ => True) (initial nPorts) s → Confined s := by
  intro h
  have hrun : (runActions (State.step ⟨10, 5, true⟩) (initial 1)
      [.increment (.provided 0 7), .push 0, .finishEnqueue 0, .dispatch]).isSome := by decide
  have hshared : (Option.get _ hrun).shared = 1 := rfl
  have hc : Confined (Option.get _ hrun) := h _ _ _ (Reach.of_run _ hrun (runMeets_true _ _))
  exact absurd hc.shared (by rw [hshared]; decide)

end Kompact.Component.Dedicated
