import Kompact.Component.Wakeup

/-!
# Work only while started

The handlers of timeouts, messages and port events run only while the component
is active, and it is made active where `on_start` runs or where a blocking future
of it completes. So they run between `on_start` and the next `on_stop` or
`on_kill` (`work_while_started`), whatever is queued and whatever blocks, fails
or panics.

There is one exception, which `Plain` leaves out: a future that is not blocking
may be polled at any time, and what it returns may ask to block. The component is
made active when that is done, also where it was stopped.
-/

namespace Kompact.Component

open State

namespace Obs

/-- The handler of a timeout, a message or an event of a port. -/
def isWork : Obs → Bool
  | timer _ => true
  | message _ => true
  | port _ => true
  | _ => false

def isLifecycle : Obs → Bool
  | onStart => true
  | onStop => true
  | onKill => true
  | _ => false

end Obs

/-- The last lifecycle handler that ran is `on_start`. -/
def Started (log : List Obs) : Prop := (log.filter Obs.isLifecycle).getLast? = some .onStart

instance (log : List Obs) : Decidable (Started log) := inferInstanceAs (Decidable (_ = _))

/-- The handlers of timeouts, messages and events ran after `on_start`, and not after a later
`on_stop` or `on_kill`. -/
def Gated (log : List Obs) : Prop :=
  ∀ before o after, log = before ++ o :: after → o.isWork = true → Started before

theorem started_append {log l : List Obs} (hl : l.filter Obs.isLifecycle = []) :
    Started (log ++ l) ↔ Started log := by
  rw [Started, List.filter_append, hl, List.append_nil]
  exact Iff.rfl

/-- Something else is logged. -/
theorem Gated.append {log l : List Obs} (h : Gated log) (hl : ∀ o ∈ l, o.isWork = true → Started log)
    (hn : l.filter Obs.isLifecycle = [] ∨ l.filter Obs.isWork = []) : Gated (log ++ l) := by
  intro before o after heq ho
  rcases List.append_eq_append_iff.mp heq with ⟨mid, hmid, hl'⟩ | ⟨mid, hmid, hl'⟩
  · -- the handler is among what was added
    have hmem : o ∈ l := by rw [hl']; exact List.mem_append_right _ (List.mem_cons_self ..)
    rcases hn with hn | hn
    · have hpart : mid.filter Obs.isLifecycle = [] := by
        rw [hl', List.filter_append] at hn
        exact (List.append_eq_nil_iff.mp hn).1
      rw [hmid, started_append hpart]
      exact hl o hmem ho
    · exact absurd ho (List.filter_eq_nil_iff.mp hn o hmem)
  · cases mid with
    | nil =>
      rw [List.append_nil] at hmid
      rw [← hmid]
      exact hl o (by rw [show l = o :: after from hl'.symm]; exact List.mem_cons_self ..) ho
    | cons x mid =>
      obtain ⟨rfl, hafter⟩ := List.cons.inj hl'
      exact h before o mid hmid ho

namespace StateTransition

/-- The component is active when the future completes. -/
def resumes : StateTransition → Bool
  | active => true
  | started => true
  | passive => false
  | destroyed => false

end StateTransition

/-- Work is handled, or about to be. -/
def Pc.working : Pc → Bool
  | timers _ => true
  | inTimer _ => true
  | messages _ => true
  | inMessage _ => true
  | events _ => true
  | ports _ _ => true
  | inPort _ _ => true
  | moreMessages _ => true
  | inMoreMessage _ => true
  | _ => false

namespace State

/-- What is logged, and that the component is active only while it is started. -/
structure Core (s : State) : Prop where
  gated : Gated s.log
  active : s.word.flag = .active → Started s.log

/-- What holds at a place of the executor. -/
def Permits (s : State) : Pc → Prop
  | .inControl .start _ => Started s.log
  | .pollStart t => t.resumes = true → Started s.log
  | .pollBlocking t _ => t.resumes = true → Started s.log
  | .subtract _ r => r ≠ some .blockOn
  | .resolve r _ => r ≠ some .blockOn
  | pc => pc.working = true → s.word.flag = .active

structure Gate (s : State) : Prop where
  core : s.Core
  future : ∀ t ∈ s.blockingFuture, t.resumes = true → Started s.log
  place : ∀ pc ∈ s.holder, s.Permits pc
  alone : s.holder.isSome = true → s.poisoned = false
  panicked : s.poisoned = false → s.panicked = []

variable {cfg : Config} {s s' : State} {pc : Pc} {n : Nat}

/-! ## Small changes -/

theorem Core.setFlag (h : s.Core) {flag : Flag} (hf : flag = .active → Started s.log) : (s.setFlag flag).Core :=
  ⟨h.gated, hf⟩

theorem filter_sent (msg : SupervisorMsg) :
    (if cfg.supervised then [Obs.sent msg] else []).filter Obs.isLifecycle = [] ∧
      (if cfg.supervised then [Obs.sent msg] else []).filter Obs.isWork = [] := by
  split
  · exact ⟨rfl, rfl⟩
  · exact ⟨rfl, rfl⟩

theorem started_send (msg : SupervisorMsg) : Started (s.send cfg msg).log ↔ Started s.log :=
  started_append (filter_sent msg).1

theorem Core.send (h : s.Core) (msg : SupervisorMsg) : (s.send cfg msg).Core := by
  obtain ⟨hl, hw⟩ : _ ∧ _ := @filter_sent cfg msg
  refine ⟨h.gated.append (fun o ho hwork => ?_) (.inr hw), fun ha => (started_append hl).mpr (h.active ha)⟩
  exact absurd hwork (List.filter_eq_nil_iff.mp hw o ho)

/-- A handler runs while the component is active. -/
theorem Core.work (h : s.Core) {o : Obs} (ho : o.isLifecycle = false) (ha : s.word.flag = .active) :
    (s.emit o).Core := by
  have hl : [o].filter Obs.isLifecycle = [] := by simp [ho]
  have hs := h.active ha
  exact ⟨h.gated.append (fun _ _ _ => hs) (.inl hl), fun _ => (started_append hl).mpr hs⟩

theorem Core.markDestroyed (h : s.Core) : s.markDestroyed.Core := by
  refine ⟨h.gated.append (fun o ho hw => ?_) (.inr rfl), (fun hc => by cases hc)⟩
  rw [List.mem_singleton.mp ho] at hw
  cases hw

theorem started_emit_onStart : Started (s.log ++ [.onStart]) := by
  rw [Started, List.filter_append]
  exact List.getLast?_concat

/-- A lifecycle handler runs. -/
theorem Core.lifecycle (h : s.Core) {o : Obs} (ho : o.isWork = false)
    (ha : s.word.flag = .active → o = .onStart) : (s.emit o).Core := by
  refine ⟨h.gated.append (fun x hx hw => ?_) (.inr (by simp [ho])), fun hf => ?_⟩
  · rw [List.mem_singleton.mp hx, ho] at hw
    cases hw
  · rw [ha hf]
    exact started_emit_onStart

theorem Core.setDestroyed (h : s.Core) : (s.setDestroyed cfg).Core := h.markDestroyed.send .killed

theorem Core.setPassive (h : s.Core) : (s.setPassive cfg).Core :=
  (h.setFlag (fun hc => by cases hc)).send .stopped

/-- The lock is held, and nobody has panicked. -/
def Held (s : State) : Prop := s.poisoned = false ∧ s.panicked = []

theorem gate_goto {t : State} (hc : t.Core) (hf : ∀ tr ∈ t.blockingFuture, tr.resumes = true → Started t.log)
    (hh : t.Held) (hp : t.Permits pc) : (t.goto pc).Gate where
  core := ⟨hc.gated, hc.active⟩
  future := hf
  place pc' hpc := by
    obtain rfl := Option.some.inj hpc
    cases pc <;> exact hp
  alone _ := hh.1
  panicked _ := hh.2

/-- Where no future is kept. -/
theorem gate_at {t : State} (hc : t.Core) (hf : t.blockingFuture = none) (hh : t.Held) (hp : t.Permits pc) :
    (t.goto pc).Gate := by
  refine gate_goto hc (fun tr htr => ?_) hh hp
  rw [hf] at htr
  cases htr

theorem gate_drop {t : State} (hc : t.Core) (hf : t.blockingFuture = none) (hh : t.Held) (n : Nat) :
    (t.drop n).Gate :=
  have hcore : Core { t with leaked := t.leaked + n } := ⟨hc.gated, hc.active⟩
  gate_at hcore hf hh (fun h => by cases h)

theorem gate_beginShutdown (hc : s.Core) (hf : s.blockingFuture = none) (hh : s.Held) (n : Nat) :
    (s.beginShutdown n).Gate :=
  gate_at (hc.markDestroyed.lifecycle rfl (fun h => by cases h)) hf hh (fun h => by cases h)

theorem gate_failRecoverable (hc : s.Core) (hf : s.blockingFuture = none) (hh : s.Held) (n : Nat) :
    (s.failRecoverable cfg n).Gate :=
  have hfaulty : (s.setFlag .faulty).Core := hc.setFlag (fun h => by cases h)
  gate_drop (hfaulty.send .faulty) hf hh n

theorem gate_failUnrecoverable (hc : s.Core) (hf : s.blockingFuture = none) (hh : s.Held) (n : Nat) :
    (s.failUnrecoverable cfg n).Gate :=
  gate_drop hc.setDestroyed hf hh n

theorem gate_block (hc : s.Core) (hf : s.blockingFuture = none) (hh : s.Held) {t : StateTransition}
    (ht : t.resumes = true → Started s.log) (n : Nat) : (s.block t n).Gate :=
  gate_at (hc.setFlag (fun h => by cases h)) hf hh ht

/-- What is permitted depends on the log and the flag. -/
theorem Permits.congr {t : State} (h : s.Permits pc) (hl : t.log = s.log) (hw : t.word.flag = s.word.flag) :
    t.Permits pc := by
  unfold Permits at h ⊢
  rw [hl, hw]
  exact h

/-- Something else changed. -/
theorem Gate.frame {t : State} (h : s.Gate) (hl : t.log = s.log) (hw : t.word.flag = s.word.flag)
    (hf : t.blockingFuture = s.blockingFuture) (hh : t.holder = s.holder) (hp : t.poisoned = s.poisoned)
    (hk : t.panicked = s.panicked) : t.Gate where
  core := ⟨by rw [hl]; exact h.core.gated, by rw [hl, hw]; exact h.core.active⟩
  future := by rw [hl, hf]; exact h.future
  place := by
    rw [hh]
    exact fun pc hpc => (h.place pc hpc).congr hl hw
  alone := by rw [hh, hp]; exact h.alone
  panicked := by rw [hp, hk]; exact h.panicked

theorem Gate.held (h : s.Gate) (hh : s.holder = some pc) : s.Held := by
  have hp := h.alone (by rw [hh]; rfl)
  exact ⟨hp, h.panicked hp⟩

theorem Gate.decrement (h : s.Gate) (hh : s.holder = some pc) {next : SchedulingDecision → Pc}
    (hp : ∀ d, State.Permits { s with word := ⟨s.word.flag, s.word.count - n⟩ } (next d)) :
    (s.decrement n next).Gate := by
  have hnext : ∀ d, (goto { s with word := ⟨s.word.flag, s.word.count - n⟩ } (next d)).Gate := fun d =>
    gate_goto ⟨h.core.gated, h.core.active⟩ h.future (h.held hh) (hp d)
  rcases decrement_cases s n next with heq | heq | ⟨-, heq⟩
  · rw [heq]
    exact h.frame rfl rfl rfl rfl rfl rfl
  · rw [heq]
    exact hnext .schedule
  · rw [heq]
    exact hnext .noWork

/-! ## The executor with the lock -/

theorem gate_enterControl (hc : s.Core) (hf : s.blockingFuture = none) (hh : s.Held) (ev : ControlEvent) :
    (s.enterControl n ev).Gate := by
  cases ev with
  | start =>
    have hstart : ((s.setFlag .active).emit .onStart).Core :=
      ⟨hc.gated.append (fun o ho hw => by rw [List.mem_singleton.mp ho] at hw; cases hw) (.inr rfl),
        fun _ => started_emit_onStart⟩
    exact gate_at hstart hf hh started_emit_onStart
  | stop =>
    have hpassive : (s.setFlag .passive).Core := hc.setFlag (fun h => by cases h)
    have hstop : ((s.setFlag .passive).emit .onStop).Core := hpassive.lifecycle rfl (fun h => by cases h)
    exact gate_at hstop hf hh (fun h => by cases h)
  | kill =>
    have hkill : (s.markDestroyed.emit .onKill).Core := hc.markDestroyed.lifecycle rfl (fun h => by cases h)
    exact gate_at hkill hf hh (fun h => by cases h)
  | poll tag => exact gate_at hc hf hh (fun h => by cases h)

/-- The queues, the timers and the position in the ports are not part of it. -/
theorem Core.frame {t : State} (h : s.Core) (hl : t.log = s.log) (hw : t.word.flag = s.word.flag) : t.Core :=
  ⟨by rw [hl]; exact h.gated, by rw [hl, hw]; exact h.active⟩

theorem gate_tryAction (hc : s.Core) (hf : s.blockingFuture = none) (hh : s.Held) (ha : s.word.flag = .active) :
    (s.tryAction n).Gate := by
  unfold tryAction
  split
  · exact gate_at hc hf hh fun _ => ha
  · rename_i id timerQueue hq
    have hwork : ∀ handles, (emit { s with timerQueue, handles } (.timer id)).Core := fun handles =>
      Core.work (s := { s with timerQueue, handles }) (hc.frame rfl rfl) rfl ha
    simp only
    split
    · exact gate_at (hwork _) hf hh fun _ => ha
    · exact gate_at (hwork s.handles) hf hh fun _ => ha
    · exact gate_at (t := { s with timerQueue, leaked := s.leaked + 1 }) (hc.frame rfl rfl) hf hh fun _ => ha

theorem gate_popMessage {next : Pc} (hc : s.Core) (hf : s.blockingFuture = none) (hh : s.Held)
    (ha : s.word.flag = .active) (hpc : ∀ t : State, t.word.flag = .active → t.Permits pc)
    (hnext : ∀ t : State, t.word.flag = .active → t.Permits next) : (s.popMessage pc next).Gate := by
  unfold popMessage
  split
  · exact gate_at hc hf hh (hnext s ha)
  · rename_i m msgQueue hq
    exact gate_at (t := emit { s with msgQueue } (.message m))
      (Core.work (s := { s with msgQueue }) (hc.frame rfl rfl) rfl ha) hf hh (hpc _ ha)

theorem gate_portStep {l : PortLoop} (hc : s.Core) (hf : s.blockingFuture = none) (hh : s.Held)
    (ha : s.word.flag = .active) : (s.portStep n l).Gate := by
  have hskip : ∀ skip pc, (∀ t : State, t.word.flag = .active → t.Permits pc) → ({ s with skip }.goto pc).Gate :=
    fun skip pc hpc => gate_at (t := { s with skip }) (hc.frame rfl rfl) hf hh (hpc _ ha)
  unfold portStep
  split
  · rename_i queue hq
    split
    · exact gate_at hc hf hh fun _ => ha
    split
    · exact hskip _ _ fun t ht _ => ht
    split
    · exact gate_at hc hf hh fun _ => ha
    · rename_i e queue
      exact gate_at (t := emit { s with portQueues := s.portQueues.set l.index queue } (.port l.index))
        (Core.work (s := { s with portQueues := s.portQueues.set l.index queue }) (hc.frame rfl rfl) rfl ha) hf hh
        fun _ => ha
  · split
    · exact gate_at hc hf hh fun _ => ha
    · exact hskip _ _ fun t ht _ => ht

theorem gate_resolve {r : Option HandlerResult} {d : SchedulingDecision} (h : s.Gate)
    (hh : s.holder = some (.resolve r d)) (hf : r ≠ none → s.blockingFuture = none) : (s.resolve cfg d r).Gate := by
  have hheld := h.held hh
  cases r with
  | none => exact gate_goto h.core h.future hheld (fun h => by cases h)
  | some r =>
    have hnone := hf (Option.some_ne_none r)
    cases r with
    | ok | benign => exact gate_at h.core hnone hheld (fun h => by cases h)
    | blockOn => exact absurd rfl (h.place _ hh)
    | shutdown => exact gate_beginShutdown h.core hnone hheld 0
    | recoverable => exact gate_failRecoverable h.core hnone hheld 0
    | unrecoverable => exact gate_failUnrecoverable h.core hnone hheld 0

theorem Gate.execStep (h : s.Gate) (ha : s.Awake) (hh : s.holder = some pc) (hs : s.execStep cfg pc = some s') :
    s'.Gate := by
  have hc := h.core
  have hheld := h.held hh
  have hplace := h.place pc hh
  have hfut : pc.keepsFuture = false → s.blockingFuture = none := ha.noFuture hh
  cases pc with
  | begin =>
    simp only [State.execStep] at hs
    split at hs
    · rename_i t ht
      obtain rfl := Option.some.inj hs
      exact gate_at (t := { s with blockingFuture := none, startedBlocking := true }) (hc.frame rfl rfl) rfl hheld
        (h.future t ht)
    · rename_i ht
      obtain rfl := Option.some.inj hs
      exact gate_at (t := { s with startedBlocking := false }) (hc.frame rfl rfl) ht hheld (fun h => by cases h)
  | control n =>
    simp only [State.execStep] at hs
    split at hs
    · obtain rfl := Option.some.inj hs
      exact gate_at hc (hfut rfl) hheld (fun h => by cases h)
    · rename_i ev ctrlQueue hq
      obtain rfl := Option.some.inj hs
      exact gate_at (t := { s with ctrlQueue }) (hc.frame rfl rfl) (hfut rfl) hheld (fun h => by cases h)
  | enter ev n =>
    obtain rfl := Option.some.inj hs
    exact gate_enterControl hc (hfut rfl) hheld ev
  | activeCheck n =>
    obtain rfl := Option.some.inj hs
    split
    · rename_i hact
      exact gate_at hc (hfut rfl) hheld fun _ => of_decide_eq_true hact
    · exact gate_at hc (hfut rfl) hheld (fun h => by cases h)
  | timers n =>
    obtain rfl := Option.some.inj hs
    split
    · exact gate_tryAction hc (hfut rfl) hheld (hplace rfl)
    · exact gate_at hc (hfut rfl) hheld fun _ => hplace rfl
  | messages n =>
    obtain rfl := Option.some.inj hs
    split
    · exact gate_popMessage hc (hfut rfl) hheld (hplace rfl) (fun t ht _ => ht) (fun t ht _ => ht)
    · exact gate_at hc (hfut rfl) hheld fun _ => hplace rfl
  | events n =>
    obtain rfl := Option.some.inj hs
    split
    · exact gate_at hc (hfut rfl) hheld fun _ => hplace rfl
    · exact gate_at hc (hfut rfl) hheld (fun h => by cases h)
  | ports n l =>
    obtain rfl := Option.some.inj hs
    exact gate_portStep hc (hfut rfl) hheld (hplace rfl)
  | moreMessages n =>
    obtain rfl := Option.some.inj hs
    split
    · exact gate_popMessage hc (hfut rfl) hheld (hplace rfl) (fun t ht _ => ht) (fun t ht h => by cases h)
    · exact gate_at hc (hfut rfl) hheld (fun h => by cases h)
  | loadDecision =>
    obtain rfl := Option.some.inj hs
    exact gate_at hc (hfut rfl) hheld (fun h => by cases h)
  | subtract n r =>
    obtain rfl := Option.some.inj hs
    exact h.decrement hh fun _ => hplace
  | finish n =>
    obtain rfl := Option.some.inj hs
    exact h.decrement hh fun _ h => by cases h
  | resolve r d =>
    obtain rfl := Option.some.inj hs
    refine gate_resolve h hh fun hr => hfut ?_
    cases r with
    | none => exact absurd rfl hr
    | some r => rfl
  | returning d =>
    obtain rfl := Option.some.inj hs
    exact ⟨hc.frame rfl rfl, h.future, (fun pc hpc => by cases hpc), (fun h => by cases h), h.panicked⟩
  | _ => cases hs

theorem gate_checkAndHandleBlocking {next : Pc} {r : HandlerResult} (hc : s.Core) (hf : s.blockingFuture = none)
    (hh : s.Held) (hs : s.word.flag = .active) (hnext : s.Permits next) :
    (s.checkAndHandleBlocking cfg n next r).Gate := by
  cases r with
  | ok | benign => exact gate_at hc hf hh hnext
  | blockOn => exact gate_block hc hf hh (fun _ => hc.active hs) n
  | shutdown => exact gate_beginShutdown hc hf hh n
  | recoverable => exact gate_failRecoverable hc hf hh n
  | unrecoverable => exact gate_failUnrecoverable hc hf hh n

theorem gate_settle (hc : s.Core) (hf : s.blockingFuture = none) (hh : s.Held) (ev : ControlEvent) :
    ((s.settle cfg ev).goto (.control n)).Gate := by
  cases ev with
  | start => exact gate_at (hc.send .started) hf hh (fun h => by cases h)
  | stop => exact gate_at (t := s.setPassive cfg) hc.setPassive hf hh (fun h => by cases h)
  | kill => exact gate_at (t := s.setDestroyed cfg) hc.setDestroyed hf hh (fun h => by cases h)
  | poll tag => exact gate_at hc hf hh (fun h => by cases h)

end State

/-- A future that is not blocking is polled. -/
def Pc.pollsTask : Pc → Bool
  | inControl (.poll _) _ => true
  | _ => false

/-- No future that is not blocking asks to block. -/
def Plain (s : State) (a : Action) : Prop := ¬ (s.holder.any Pc.pollsTask = true ∧ a = .returns .blockOn)

instance (s : State) (a : Action) : Decidable (Plain s a) := inferInstanceAs (Decidable (¬ _))

namespace State

variable {cfg : Config} {s s' : State} {pc : Pc} {n : Nat}

theorem Gate.handlerReturns {r : HandlerResult} (h : s.Gate) (ha : s.Awake) (hh : s.holder = some pc)
    (hok : Plain s (.returns r)) (hs : s.handlerReturns cfg r pc = some s') : s'.Gate := by
  have hc := h.core
  have hheld := h.held hh
  have hplace := h.place pc hh
  have hfut : pc.keepsFuture = false → s.blockingFuture = none := ha.noFuture hh
  cases pc with
  | inControl ev n =>
    have hf := hfut rfl
    cases r with
    | ok | benign =>
      obtain rfl := Option.some.inj hs
      exact gate_settle hc hf hheld ev
    | blockOn =>
      obtain rfl := Option.some.inj hs
      refine gate_block hc hf hheld (fun ht => ?_) (n + 1)
      cases ev with
      | start => exact hplace
      | stop | kill => cases ht
      | poll tag => exact absurd ⟨by rw [hh]; rfl, rfl⟩ hok
    | shutdown =>
      obtain rfl := Option.some.inj hs
      split
      · exact gate_drop (t := s.setDestroyed cfg) hc.setDestroyed hf hheld (n + 1)
      · exact gate_beginShutdown hc hf hheld (n + 1)
    | recoverable =>
      obtain rfl := Option.some.inj hs
      exact gate_failRecoverable hc hf hheld (n + 1)
    | unrecoverable =>
      obtain rfl := Option.some.inj hs
      exact gate_failUnrecoverable hc hf hheld (n + 1)
  | inTimer n | inMessage n | inMoreMessage n =>
    obtain rfl := Option.some.inj hs
    exact gate_checkAndHandleBlocking hc (hfut rfl) hheld (hplace rfl) fun _ => hplace rfl
  | inPort n l =>
    have hskip : Core { s with skip := l.index } := hc.frame rfl rfl
    cases r with
    | ok =>
      obtain rfl := Option.some.inj hs
      exact gate_at hc (hfut rfl) hheld fun _ => hplace rfl
    | blockOn | shutdown | benign | recoverable | unrecoverable =>
      obtain rfl := Option.some.inj hs
      exact gate_checkAndHandleBlocking hskip (hfut rfl) hheld (hplace rfl) fun _ => hplace rfl
  | inShutdown n =>
    cases r with
    | blockOn =>
      obtain rfl := Option.some.inj hs
      exact ⟨hc.frame rfl rfl, h.future, (fun pc hpc => by cases hpc), (fun h => by cases h), (fun h => by cases h)⟩
    | ok | shutdown | benign | recoverable | unrecoverable =>
      obtain rfl := Option.some.inj hs
      exact gate_drop (t := s.setDestroyed cfg) hc.setDestroyed (hfut rfl) hheld n
  | _ => cases hs

/-- The future that is polled resumes only a component that was started. -/
theorem Polling.permits {t : StateTransition} {back : Pc} {next : HandlerResult → Pc} (hp : Polling t pc back next)
    (h : s.Permits pc) :
    (t.resumes = true → Started s.log) ∧ pc.keepsFuture = false ∧ (∀ s : State, s.Permits back) ∧
      ∀ (s : State) (r : HandlerResult), r ≠ .blockOn → s.Permits (next r) := by
  cases hp with
  | start => exact ⟨h, rfl, (fun _ hw => by cases hw), (fun _ _ _ hw => by cases hw)⟩
  | blocking n =>
    exact ⟨h, rfl, fun _ => (Option.some_ne_none _).symm, fun _ _ hr heq => hr (Option.some.inj heq)⟩

theorem Core.unblock (h : s.Core) {t : StateTransition} (ht : t.resumes = true → Started s.log) :
    (s.unblock cfg t).Core := by
  cases t with
  | active => exact h.setFlag fun _ => ht rfl
  | started =>
    have hactive : (s.setFlag .active).Core := h.setFlag fun _ => ht rfl
    exact hactive.send .started
  | passive => exact h.setPassive
  | destroyed => exact h.setDestroyed

theorem Gate.polled {r : Option HandlerResult} (h : s.Gate) (ha : s.Awake) (hh : s.holder = some pc)
    (hs : State.polled cfg s r pc = some s') : s'.Gate := by
  have hc := h.core
  have hheld := h.held hh
  have hplace := h.place pc hh
  cases polls_of_polled hs with
  | pending hp hr =>
    rename_i t back next
    obtain ⟨ht, -, hback, -⟩ := hp.permits hplace
    refine gate_goto (t := { s with blockingFuture := some t }) (hc.frame rfl rfl) (fun tr htr => ?_) hheld (hback _)
    obtain rfl := Option.some.inj htr
    exact ht
  | completed hp hr =>
    rename_i t back next r r'
    obtain ⟨ht, hkeeps, -, hnext⟩ := hp.permits hplace
    have hne : r' ≠ .blockOn := by
      rcases hr with rfl | rfl
      · decide
      · decide
    have hf := ha.noFuture hh hkeeps
    refine gate_at (hc.unblock ht) ?_ ?_ (hnext _ r' hne)
    · cases t <;> exact hf
    · cases t <;> exact hheld
  | shutdown ht => exact gate_beginShutdown hc (ha.noFuture hh rfl) hheld 0
  | recoverable => exact gate_failRecoverable hc (ha.noFuture hh rfl) hheld 0
  | unrecoverable => exact gate_failUnrecoverable hc (ha.noFuture hh rfl) hheld 0
  | failed hr =>
    rename_i t n r
    have hne : some r ≠ some .blockOn := by
      rcases hr with ⟨rfl, -⟩ | rfl | rfl
      · decide
      · decide
      · decide
    exact gate_at hc (ha.noFuture hh rfl) hheld hne

/-! ## Any step -/

theorem Gate.step {a : Action} (h : s.Gate) (ha : s.Awake) (hok : Plain s a) (hs : s.step cfg a = some s') :
    s'.Gate := by
  cases (does_of_step hs).2 with
  | exec hh hrun => exact h.execStep ha hh hrun
  | returns hh hrun => exact h.handlerReturns ha hh hok hrun
  | polled hh hrun => exact h.polled ha hh hrun
  | acquirePoisoned hl hh hp =>
    refine ⟨h.core.frame rfl rfl, h.future, h.place, fun hsome => ?_, fun hp' => ?_⟩
    · rw [show s.holder = none from hh] at hsome
      cases hsome
    · exact absurd (hp.symm.trans hp') (by decide)
  | acquire hl hh hp =>
    refine ⟨h.core.frame rfl rfl, h.future, fun pc hpc => ?_, fun _ => hp, h.panicked⟩
    obtain rfl := Option.some.inj hpc
    exact fun hw => by cases hw
  | panics hh hu =>
    exact ⟨h.core.frame rfl rfl, h.future, (fun pc hpc => by cases hpc), (fun hs => by cases hs),
      (fun hs => by cases hs)⟩
  | faulted hk =>
    rename_i k n
    have hpoison : s.poisoned = true := by
      cases hp : s.poisoned with
      | true => rfl
      | false =>
        rw [h.panicked hp] at hk
        cases hk
    have hnone : s.holder = none := by
      cases hh : s.holder with
      | none => rfl
      | some pc => exact absurd ((h.alone (by rw [hh]; rfl)).symm.trans hpoison) (by decide)
    have hfaulty : Core (State.setFlag { s with
        panicked := s.panicked.eraseIdx k, leaked := s.leaked + n, decided := .noWork :: s.decided } .faulty) :=
      ⟨h.core.gated, (fun hf => by cases hf)⟩
    refine ⟨hfaulty.send .faulty, fun t ht hr => (started_send _).mpr (h.future t ht hr), fun pc hpc => ?_,
      fun hsome => ?_, fun hp => ?_⟩
    · rw [show State.holder _ = none from hnone] at hpc
      cases hpc
    · rw [show State.holder _ = none from hnone] at hsome
      cases hsome
    · exact absurd (hpoison.symm.trans hp) (by decide)
  | push hk hacc =>
    rename_i k item d
    cases item <;> exact h.frame rfl rfl rfl rfl rfl rfl
  | increment hacc hw =>
    refine h.frame rfl ?_ rfl rfl rfl rfl
    unfold Lifecycle.incrementWork at hw
    split at hw
    · obtain ⟨-, rfl⟩ := Prod.mk.inj (Option.some.inj hw)
      rfl
    · cases hw
  | _ => exact h.frame rfl rfl rfl rfl rfl rfl

theorem gate_initial (nPorts : Nat) : (initial nPorts).Gate :=
  ⟨⟨(fun before o after heq => by cases before <;> cases heq), (fun h => by cases h)⟩, (fun t ht => by cases ht),
    (fun pc hpc => by cases hpc), (fun h => by cases h), fun _ => rfl⟩

end State

variable {cfg : Config} {nPorts : Nat} {s : State}

/-- In every run in which no future that is not blocking asks to block: whatever is enqueued when
and whatever handlers and futures return, a handler of a timeout, a message or a port event ran only
after `on_start`, and after no `on_stop` or `on_kill` behind it. -/
theorem work_while_started (h : Reach (State.step cfg) Plain (initial nPorts) s) : Gated s.log := by
  have hinv : s.Gate ∧ s.Awake := h.invariant (fun s => s.Gate ∧ s.Awake)
    ⟨gate_initial nPorts, awake_initial nPorts⟩ fun hi hok hs => ⟨hi.1.step hi.2 hok hs, hi.2.step hs⟩
  exact hinv.1.core.gated

/-- A message is waiting while the component is started, stopped and started again. -/
def stopAndStart : List Action :=
  [.increment (.control .start), .push 0, .finishEnqueue 0, .increment (.message 7), .push 0, .finishEnqueue 0,
    .increment (.control .stop), .push 0, .finishEnqueue 0, .dispatch, .load, .acquire, .exec, .exec, .exec,
    .returns .ok, .exec, .exec, .returns .ok, .exec, .exec, .exec, .exec, .act 0,
    .increment (.control .start), .push 0, .finishEnqueue 0, .dispatch, .load, .acquire, .exec, .exec, .exec,
    .returns .ok, .exec, .exec, .exec, .exec]

theorem work_while_started_restart :
    ∃ h : (runActions (State.step ⟨10, 5, true⟩) (initial 1) stopAndStart).isSome,
      (Option.get _ h).log = [.onStart, .sent .started, .onStop, .sent .stopped, .onStart, .sent .started, .message 7] ∧
      Gated (Option.get _ h).log := by
  have hreach : Reach (State.step ⟨10, 5, true⟩) Plain (initial 1) _ :=
    Reach.of_run stopAndStart (by decide) (by decide)
  exact ⟨by decide, by decide, work_while_started hreach⟩

end Kompact.Component
