import Kompact.Component.Execute
import Kompact.Framework.ListSum

/-!
# Work accounting

The work count of a component is the number of items in its queues, those
about to be pushed, those its executor has dequeued and not subtracted yet,
and those that leaked (`Balanced`). Every step keeps this (`Balanced.step`),
so `decrement_work` always finds enough to subtract.

Items leak when an execution ends without subtracting, which it does only
where it leaves the component destroyed or faulty; and when a timeout is taken
whose handle was removed, as `try_action` then reports no action and the
timeout is not counted. `Careful` are the steps that do not do the latter, and
that do not take the lock of a component that was destroyed or became faulty
since the executor tested its state. In runs of such steps nothing has leaked
while the component is alive (`Clean`), which gives `accounted_of_careful`.
-/

namespace Kompact.Component

open State

namespace State

/-- The number of items in the queues. -/
def items (s : State) : Nat :=
  s.ctrlQueue.length + s.msgQueue.length + s.timerQueue.length + (s.portQueues.map List.length).sum

end State

/-- One, for an enqueuer that has not pushed its item. -/
def Enqueuer.pending : Enqueuer → Nat
  | pushing _ _ => 1
  | pushed _ => 0

namespace State

/-- Increments whose push has not happened yet. -/
def pending (s : State) : Nat := (s.enqueuers.map Enqueuer.pending).sum

/-- Items that are still to be dequeued. -/
def work (s : State) : Nat := s.items + s.pending

/-- Items dequeued by executors and not subtracted yet. -/
def dequeued (s : State) : Nat := s.holder.elim 0 Pc.dequeued + s.panicked.sum

/-- The count is what is queued, about to be pushed, dequeued or leaked, where
the executor with the lock has dequeued `n` items; and nobody subtracted more. -/
def BalancedAt (s : State) (n : Nat) : Prop :=
  s.word.count = s.items + s.pending + (n + s.panicked.sum) + s.leaked ∧ s.crashed ≠ some .underflow

/-- The same, with the items that executor has really dequeued. -/
def Balanced (s : State) : Prop :=
  s.word.count = s.items + s.pending + s.dequeued + s.leaked ∧ s.crashed ≠ some .underflow

variable {cfg : Config} {s s' : State} {pc : Pc} {n : Nat}

theorem Balanced.at (h : s.Balanced) (hh : s.holder = some pc) : s.BalancedAt pc.dequeued := by
  rw [Balanced, dequeued, hh] at h
  exact h

theorem BalancedAt.drop (h : s.BalancedAt n) : (s.drop n).Balanced := by
  refine ⟨?_, h.2⟩
  show s.word.count = s.items + s.pending + (0 + s.panicked.sum) + (s.leaked + n)
  have := h.1
  omega

theorem BalancedAt.panic (h : s.BalancedAt n) : (s.panic n).Balanced := by
  refine ⟨?_, h.2⟩
  show s.word.count = s.items + s.pending + (0 + (n :: s.panicked).sum) + s.leaked
  have := h.1
  rw [List.sum_cons]
  omega

theorem BalancedAt.checkAndHandleBlocking (h : s.BalancedAt n) {next : Pc} (hn : next.dequeued = n)
    (r : HandlerResult) : (s.checkAndHandleBlocking cfg n next r).Balanced := by
  have hnext : (s.goto next).Balanced := by subst hn; exact h
  cases r with
  | ok => exact hnext
  | benign => exact hnext
  | blockOn => exact h
  | shutdown => exact h
  | recoverable => exact BalancedAt.drop (s := (s.setFlag .faulty).send cfg .faulty) h
  | unrecoverable => exact BalancedAt.drop (s := s.setDestroyed cfg) h

/-- What is subtracted was counted. -/
theorem BalancedAt.decrement (h : s.BalancedAt n) {next : SchedulingDecision → Pc}
    (hn : ∀ d, (next d).dequeued = 0) : (s.decrement n next).Balanced := by
  have hcount := h.1
  have hle : n ≤ s.word.count := by omega
  simp only [State.decrement, Lifecycle.decrementWork, if_pos hle]
  refine ⟨?_, h.2⟩
  show s.word.count - n = s.items + s.pending + ((next _).dequeued + s.panicked.sum) + s.leaked
  rw [hn]
  omega

theorem Takes.items {t : State} {k : Nat} (h : s.Takes k t) : t.items + k = s.items := by
  cases h with
  | nothing skip => rfl
  | control hq => simp only [State.items, hq, List.length_cons]; omega
  | timer hq handles => simp only [State.items, emit, hq, List.length_cons]; omega
  | message hq => simp only [State.items, emit, hq, List.length_cons]; omega
  | @port i e queue hq =>
    have := sum_map_set List.length hq queue
    simp only [List.length_cons] at this
    simp only [State.items, emit]
    omega

/-- What is taken from the queues is dequeued. -/
theorem BalancedAt.takes {t : State} {k : Nat} (h : s.BalancedAt n) (ht : s.Takes k t) : t.BalancedAt (n + k) := by
  have hcount := h.1
  have hitems := ht.items
  have hk := ht.keeps
  unfold BalancedAt State.pending
  rw [hk.word, hk.enqueuers, hk.panicked, hk.leaked, hk.crashed]
  unfold State.pending at hcount
  exact ⟨by omega, h.2⟩

/-- A timeout whose handle is gone leaks. -/
theorem BalancedAt.timerGone {id : Nat} {timerQueue : List Nat} (h : s.BalancedAt n)
    (hq : s.timerQueue = id :: timerQueue) :
    State.Balanced (goto { s with timerQueue, leaked := s.leaked + 1 } (.messages n)) := by
  refine ⟨?_, h.2⟩
  have hcount := h.1
  have hi : State.items { s with timerQueue } + 1 = s.items := by
    simp only [items, hq, List.length_cons]; omega
  show s.word.count = State.items { s with timerQueue } + s.pending + (n + s.panicked.sum) + (s.leaked + 1)
  omega

theorem BalancedAt.resolve (h : s.BalancedAt 0) (r : Option HandlerResult) (d : SchedulingDecision) :
    (s.resolve cfg d r).Balanced := by
  rcases r with _ | r
  · exact h
  cases r with
  | ok => exact h
  | benign => exact h
  | blockOn => exact h
  | shutdown => exact h
  | recoverable => exact BalancedAt.drop (s := (s.setFlag .faulty).send cfg .faulty) h
  | unrecoverable => exact BalancedAt.drop (s := s.setDestroyed cfg) h

theorem Balanced.execStep (h : s.Balanced) (hh : s.holder = some pc) (hs : s.execStep cfg pc = some s') :
    s'.Balanced := by
  have hb := h.at hh
  cases executes_of_execStep hs with
  | poll hf => exact hb
  | begin hf => exact hb
  | loadDecision => exact hb
  | @enter ev n => cases ev <;> exact hb
  | loop hpc hpc' ht hk =>
    have hb' := hb.takes ht
    rw [← hk] at hb'
    exact hb'
  | timerGone hn hq hh' => exact BalancedAt.timerGone hb hq
  | subtract => exact BalancedAt.decrement hb fun _ => rfl
  | resolve => exact BalancedAt.resolve hb _ _
  | finish => exact BalancedAt.decrement hb fun _ => rfl
  | returning => exact hb

theorem Balanced.handlerReturns (h : s.Balanced) (hh : s.holder = some pc) {r : HandlerResult}
    (hs : s.handlerReturns cfg r pc = some s') : s'.Balanced := by
  have hb := h.at hh
  cases pc with
  | inControl ev n =>
    have hset : ∀ n', (s.BalancedAt n' → ((s.settle cfg ev).goto (.control n')).Balanced) :=
      fun n' h' => by cases ev <;> exact h'
    cases r <;> simp only [State.handlerReturns] at hs
    case ok => obtain rfl := Option.some.inj hs; exact hset _ hb
    case benign => obtain rfl := Option.some.inj hs; exact hset _ hb
    case blockOn => obtain rfl := Option.some.inj hs; exact hb
    case shutdown =>
      obtain rfl := Option.some.inj hs
      split
      · exact BalancedAt.drop (s := s.setDestroyed cfg) hb
      · exact hb
    case recoverable =>
      obtain rfl := Option.some.inj hs
      exact BalancedAt.drop (s := (s.setFlag .faulty).send cfg .faulty) hb
    case unrecoverable =>
      obtain rfl := Option.some.inj hs
      exact BalancedAt.drop (s := s.setDestroyed cfg) hb
  | inTimer n => obtain rfl := Option.some.inj hs; exact BalancedAt.checkAndHandleBlocking (n := n + 1) hb rfl r
  | inMessage n => obtain rfl := Option.some.inj hs; exact BalancedAt.checkAndHandleBlocking (n := n + 1) hb rfl r
  | inMoreMessage n => obtain rfl := Option.some.inj hs; exact BalancedAt.checkAndHandleBlocking (n := n + 1) hb rfl r
  | inPort n l =>
    have hskip : State.BalancedAt { s with skip := l.index } (n + (l.count + 1)) := hb
    cases r <;> obtain rfl := Option.some.inj hs
    case ok => exact hb
    all_goals exact BalancedAt.checkAndHandleBlocking hskip rfl _
  | inShutdown n =>
    cases r <;> obtain rfl := Option.some.inj hs
    case blockOn => exact BalancedAt.panic hb
    all_goals exact BalancedAt.drop (s := s.setDestroyed cfg) hb
  | _ => cases hs

theorem Balanced.polled (h : s.Balanced) (hh : s.holder = some pc) {r : Option HandlerResult}
    (hs : State.polled cfg s r pc = some s') : s'.Balanced := by
  have hb := h.at hh
  have hun : ∀ t pc', (s.BalancedAt pc'.dequeued → ((s.unblock cfg t).goto pc').Balanced) :=
    fun t pc' h' => by cases t <;> exact h'
  cases polls_of_polled hs with
  | pending hp => cases hp <;> exact hb
  | completed hp => cases hp <;> exact hun _ _ hb
  | shutdown => exact hb
  | recoverable => exact BalancedAt.drop (s := (s.setFlag .faulty).send cfg .faulty) hb
  | unrecoverable => exact BalancedAt.drop (s := s.setDestroyed cfg) hb
  | failed => exact hb

theorem items_pushItem {item : Item} (ha : s.Accepts item) : (s.pushItem item).items = s.items + 1 := by
  cases item with
  | control ev => simp only [pushItem, items, List.length_append, List.length_singleton]; omega
  | message m => simp only [pushItem, items, List.length_append, List.length_singleton]; omega
  | timeout id => simp only [pushItem, items, List.length_append, List.length_singleton]; omega
  | port i e =>
    have hi : s.portQueues[i]? = some s.portQueues[i] := List.getElem?_eq_getElem ha
    have := sum_map_modify List.length (· ++ [e]) hi
    simp only [List.length_append, List.length_singleton] at this
    simp only [pushItem, items]
    omega

theorem Balanced.increment {d : SchedulingDecision} {word : Lifecycle} {e : Enqueuer} (he : e.pending = 1)
    (h : s.Balanced) (hw : s.word.incrementWork = some (d, word)) :
    State.Balanced { s with word, enqueuers := e :: s.enqueuers } := by
  unfold Lifecycle.incrementWork at hw
  split at hw
  · obtain ⟨-, rfl⟩ := Prod.mk.inj (Option.some.inj hw)
    refine ⟨?_, h.2⟩
    show s.word.count + 1 = s.items + (e.pending + s.pending) + s.dequeued + s.leaked
    have hcount := h.1
    omega
  · cases hw

theorem work_push {k : Nat} {item : Item} {d : SchedulingDecision}
    (hk : s.enqueuers[k]? = some (.pushing item d)) (ha : s.Accepts item) :
    (pushItem { s with enqueuers := s.enqueuers.set k (.pushed d) } item).work = s.work := by
  have hp := sum_map_set Enqueuer.pending hk (.pushed d)
  simp only [Enqueuer.pending] at hp
  have hi : (pushItem { s with enqueuers := s.enqueuers.set k (.pushed d) } item).items =
      State.items { s with enqueuers := s.enqueuers.set k (.pushed d) } + 1 :=
    items_pushItem (by cases item <;> exact ha)
  have hitems : State.items { s with enqueuers := s.enqueuers.set k (.pushed d) } = s.items := rfl
  have hpend : ((pushItem { s with enqueuers := s.enqueuers.set k (.pushed d) } item).enqueuers) =
      s.enqueuers.set k (.pushed d) := by cases item <;> rfl
  rw [work, work, pending, pending, hpend, hi, hitems]
  omega

theorem Balanced.push {k : Nat} {item : Item} {d : SchedulingDecision} (h : s.Balanced)
    (hk : s.enqueuers[k]? = some (.pushing item d)) (ha : s.Accepts item) :
    (pushItem { s with enqueuers := s.enqueuers.set k (.pushed d) } item).Balanced := by
  have hcount : s.word.count = s.work + s.dequeued + s.leaked := h.1
  rw [← work_push hk ha] at hcount
  cases item <;> exact ⟨hcount, h.2⟩

/-- The count is balanced in every state, whatever the steps. -/
theorem Balanced.step {a : Action} (h : s.Balanced) (hs : s.step cfg a = some s') : s'.Balanced := by
  obtain ⟨-, hd⟩ := does_of_step hs
  cases hd with
  | increment ha hw => exact h.increment rfl hw
  | overflow => exact ⟨h.1, by simp⟩
  | push hk ha => exact h.push hk ha
  | @finishEnqueue k d hk =>
    have hp := sum_map_eraseIdx Enqueuer.pending hk
    simp only [Enqueuer.pending, Nat.add_zero] at hp
    have hcount : s.word.count = s.items + (s.enqueuers.map Enqueuer.pending).sum + s.dequeued + s.leaked := h.1
    refine ⟨?_, h.2⟩
    show s.word.count = s.items + ((s.enqueuers.eraseIdx k).map Enqueuer.pending).sum + s.dequeued + s.leaked
    omega
  | wake => exact h
  | dispatch _ => exact h
  | loadEnded _ _ => exact h
  | load _ => exact h
  | acquirePoisoned _ _ _ =>
    refine ⟨?_, h.2⟩
    have hcount := h.1
    show s.word.count = s.items + s.pending + (s.holder.elim 0 Pc.dequeued + (0 :: s.panicked).sum) + s.leaked
    rw [List.sum_cons, Nat.zero_add]
    exact hcount
  | acquire _ hh _ =>
    have hcount := h.1
    rw [dequeued, hh] at hcount
    exact ⟨hcount, h.2⟩
  | exec hh hs => exact h.execStep hh hs
  | returns hh hs => exact h.handlerReturns hh hs
  | polled hh hs => exact h.polled hh hs
  | panics hh _ => exact (h.at hh).panic
  | @faulted k n hk =>
    have hp := sum_map_eraseIdx id hk
    simp only [List.map_id, id_eq] at hp
    have hcount : s.word.count = s.items + s.pending + (s.holder.elim 0 Pc.dequeued + s.panicked.sum) + s.leaked := h.1
    refine ⟨?_, h.2⟩
    show s.word.count = s.items + s.pending + (s.holder.elim 0 Pc.dequeued + (s.panicked.eraseIdx k).sum) +
      (s.leaked + n)
    omega
  | actSchedule _ => exact h
  | actResume _ => exact h
  | actNothing _ _ => exact h
  | setHandles _ => exact h

/-! ## Nothing leaks from a live component -/

/-- Destroyed or faulty. -/
def Ended (s : State) : Prop := s.word.flag = .destroyed ∨ s.word.flag = .faulty

instance (s : State) : Decidable s.Ended := inferInstanceAs (Decidable (_ ∨ _))

/-- Steps that leak nothing in a live component: a timeout that is taken has a
handle, and the lock is not taken of a component that is destroyed or faulty. -/
def Careful (cfg : Config) (s : State) : Action → Prop
  | .acquire => s.poisoned = true ∨ ¬ s.Ended
  | .exec =>
    match s.holder, s.timerQueue with
    | some (.timers n), id :: _ => n < cfg.maxEvents → (s.handles.lookup id).isSome
    | _, _ => True
  | _ => True

instance (cfg : Config) (s : State) (a : Action) : Decidable (s.Careful cfg a) := by
  unfold Careful
  split
  · infer_instance
  · split <;> infer_instance
  · infer_instance

/-- What the executor with the lock knows: it returns to be executed again only
where there is work, or where it found the component blocking. -/
def Promises (s : State) : Pc → Prop
  | .pollStart _ => s.startedBlocking = true
  | .loadDecision => s.startedBlocking = true
  | .resolve _ d => (d = .schedule ∨ d = .noWork) ∧ (d = .schedule → 0 < s.work)
  | .returning d => s.startedBlocking = false → d.Runs → 0 < s.work
  | _ => True

/-- What leaked did so when the component ended; and nobody runs a component
after a panic. -/
structure Clean (s : State) : Prop where
  leaked : 0 < s.leaked → s.Ended ∧ (s.holder = none ∨ s.holder = some (.returning .noWork))
  poisoned : s.poisoned = true → s.holder = none
  panicked : s.poisoned = false → s.panicked = []
  promises : ∀ pc, s.holder = some pc → s.Promises pc

/-- While an executor runs nothing has leaked. -/
theorem Clean.running (h : s.Clean) (hh : s.holder = some pc) (hpc : pc ≠ .returning .noWork) :
    s.leaked = 0 ∧ s.poisoned = false ∧ s.panicked = [] := by
  have hp : s.poisoned = false := by
    by_contra hp
    have := h.poisoned (by simpa using hp)
    rw [hh] at this
    cases this
  refine ⟨?_, hp, h.panicked hp⟩
  by_contra hl
  rcases (h.leaked (Nat.pos_of_ne_zero hl)).2 with hn | hn
  · rw [hh] at hn; cases hn
  · rw [hh] at hn; exact hpc (Option.some.inj hn)

theorem clean_goto {t : State} (hl : t.leaked = 0 ∧ t.poisoned = false ∧ t.panicked = [])
    (hp : t.Promises pc) : (t.goto pc).Clean where
  leaked h := absurd (show 0 < t.leaked from h) (by omega)
  poisoned h := absurd (show t.poisoned = true from h) (by rw [hl.2.1]; decide)
  panicked _ := hl.2.2
  promises pc' hpc' := by
    obtain rfl := Option.some.inj hpc'
    cases pc <;> exact hp

theorem clean_drop {t : State} (hl : t.leaked = 0 ∧ t.poisoned = false ∧ t.panicked = []) (he : t.Ended) :
    (t.drop n).Clean where
  leaked _ := ⟨he, .inr rfl⟩
  poisoned h := absurd (show t.poisoned = true from h) (by rw [hl.2.1]; decide)
  panicked _ := hl.2.2
  promises pc' hpc' := by
    obtain rfl := Option.some.inj hpc'
    exact fun _ hr => absurd hr (by decide)

theorem clean_panic {t : State} (hl : t.leaked = 0) : (t.panic n).Clean where
  leaked h := absurd (show 0 < t.leaked from h) (by omega)
  poisoned _ := rfl
  panicked h := by cases h
  promises pc' hpc' := by cases hpc'

theorem clean_checkAndHandleBlocking {next : Pc} (hl : s.leaked = 0 ∧ s.poisoned = false ∧ s.panicked = [])
    (hp : s.Promises next) (r : HandlerResult) : (s.checkAndHandleBlocking cfg n next r).Clean := by
  cases r with
  | ok => exact clean_goto hl hp
  | benign => exact clean_goto hl hp
  | blockOn => exact clean_goto (t := s.setFlag .blocking) hl trivial
  | shutdown => exact clean_goto (t := s.markDestroyed.emit .onKill) hl trivial
  | recoverable => exact clean_drop (t := (s.setFlag .faulty).send cfg .faulty) hl (.inr rfl)
  | unrecoverable => exact clean_drop (t := s.setDestroyed cfg) hl (.inl rfl)

/-- The decision after the subtraction is taken from the work there is. -/
theorem clean_decrement {next : SchedulingDecision → Pc} (hb : s.BalancedAt n)
    (hl : s.leaked = 0 ∧ s.poisoned = false ∧ s.panicked = [])
    (hp : ∀ t : State, ∀ d, (d = .schedule ∨ d = .noWork) → (d = .schedule → 0 < t.work) → t.Promises (next d)) :
    (s.decrement n next).Clean := by
  have hcount := hb.1
  rw [hl.1, hl.2.2, List.sum_nil] at hcount
  have hle : n ≤ s.word.count := by omega
  simp only [State.decrement, Lifecycle.decrementWork, if_pos hle]
  refine clean_goto (t := { s with word := { s.word with count := s.word.count - n } }) hl (hp _ _ ?_ ?_)
  · split
    · exact .inl rfl
    · exact .inr rfl
  · intro hd
    split at hd
    · show 0 < s.items + s.pending
      omega
    · cases hd

theorem clean_resolve {d : SchedulingDecision} (hl : s.leaked = 0 ∧ s.poisoned = false ∧ s.panicked = [])
    (hp : (d = .schedule ∨ d = .noWork) ∧ (d = .schedule → 0 < s.work)) (r : Option HandlerResult) :
    (s.resolve cfg d r).Clean := by
  have hret : s.Promises (.returning (SchedulingDecision.noWork.orUse d)) := by
    intro _ hr
    rcases hp.1 with rfl | rfl
    · exact hp.2 rfl
    · exact absurd hr (by decide)
  rcases r with _ | r
  · exact clean_goto hl fun _ hr => absurd hr (by decide)
  cases r with
  | ok => exact clean_goto hl hret
  | benign => exact clean_goto hl hret
  | blockOn =>
    exact clean_goto (t := { s.setFlag .blocking with blockingFuture := some .active }) hl
      fun _ hr => absurd hr (by decide)
  | shutdown => exact clean_goto (t := s.markDestroyed.emit .onKill) hl trivial
  | recoverable => exact clean_drop (t := (s.setFlag .faulty).send cfg .faulty) hl (.inr rfl)
  | unrecoverable => exact clean_drop (t := s.setDestroyed cfg) hl (.inl rfl)

theorem promises_of_inLoop (h : pc.inLoop = true) : s.Promises pc := by
  cases pc <;> trivial

theorem clean_enterControl (hl : s.leaked = 0 ∧ s.poisoned = false ∧ s.panicked = []) (ev : ControlEvent) :
    (s.enterControl n ev).Clean := by
  cases ev with
  | start => exact clean_goto (t := (s.setFlag .active).emit .onStart) hl trivial
  | stop => exact clean_goto (t := (s.setFlag .passive).emit .onStop) hl trivial
  | kill => exact clean_goto (t := s.markDestroyed.emit .onKill) hl trivial
  | poll tag => exact clean_goto hl trivial

theorem Clean.execStep (h : s.Clean) (hb : s.Balanced) (hh : s.holder = some pc) (hc : s.Careful cfg .exec)
    (hs : s.execStep cfg pc = some s') : s'.Clean := by
  have hpr := h.promises pc hh
  have hl : (∀ d, pc ≠ .returning d) → s.leaked = 0 ∧ s.poisoned = false ∧ s.panicked = [] :=
    fun hne => h.running hh (hne _)
  cases executes_of_execStep hs with
  | @poll t hf =>
    exact clean_goto (t := { s with blockingFuture := none, startedBlocking := true }) (hl (by simp)) rfl
  | begin hf => exact clean_goto (t := { s with startedBlocking := false }) (hl (by simp)) trivial
  | loadDecision =>
    refine clean_goto (hl (by simp)) fun hf => ?_
    rw [hpr] at hf
    cases hf
  | enter => exact clean_enterControl (hl (by simp)) _
  | loop hpc hpc' ht hk =>
    have hl := hl (by rintro d rfl; cases hpc)
    have hkeeps := ht.keeps
    exact clean_goto ⟨hkeeps.leaked.trans hl.1, hkeeps.poisoned.trans hl.2.1, hkeeps.panicked.trans hl.2.2⟩
      (promises_of_inLoop hpc')
  | timerGone hn hq hgone =>
    -- a careful step finds the handle
    simp only [Careful, hh, hq, hgone] at hc
    exact absurd (hc hn) (by simp)
  | subtract => exact clean_decrement (hb.at hh) (hl (by simp)) fun t d hd hw => ⟨hd, hw⟩
  | resolve => exact clean_resolve (hl (by simp)) hpr _
  | finish =>
    refine clean_decrement (hb.at hh) (hl (by simp)) fun t d hd hw _ hr => hw ?_
    rcases hd with rfl | rfl
    · rfl
    · exact absurd hr (by decide)
  | returning =>
    -- the lock is released
    refine ⟨fun hl => ⟨(h.leaked hl).1, .inl rfl⟩, fun _ => rfl, h.panicked, fun pc' hpc' => ?_⟩
    cases hpc'

theorem clean_settle {ev : ControlEvent} (hl : s.leaked = 0 ∧ s.poisoned = false ∧ s.panicked = []) :
    ((s.settle cfg ev).goto (.control n)).Clean := by
  cases ev with
  | start => exact clean_goto (t := s.send cfg .started) hl trivial
  | stop => exact clean_goto (t := s.setPassive cfg) hl trivial
  | kill => exact clean_goto (t := s.setDestroyed cfg) hl trivial
  | poll tag => exact clean_goto hl trivial

theorem Clean.handlerReturns (h : s.Clean) (hh : s.holder = some pc) {r : HandlerResult}
    (hs : s.handlerReturns cfg r pc = some s') : s'.Clean := by
  have hl := h.running hh (fun e => by rw [e] at hs; cases hs)
  cases pc with
  | inControl ev n =>
    cases r <;> obtain rfl := Option.some.inj hs
    case ok => exact clean_settle hl
    case benign => exact clean_settle hl
    case blockOn => exact clean_goto (t := s.setFlag .blocking) hl trivial
    case shutdown =>
      split
      · exact clean_drop (t := s.setDestroyed cfg) hl (.inl rfl)
      · exact clean_goto (t := s.markDestroyed.emit .onKill) hl trivial
    case recoverable => exact clean_drop (t := (s.setFlag .faulty).send cfg .faulty) hl (.inr rfl)
    case unrecoverable => exact clean_drop (t := s.setDestroyed cfg) hl (.inl rfl)
  | inTimer n => obtain rfl := Option.some.inj hs; exact clean_checkAndHandleBlocking hl (by trivial) r
  | inMessage n => obtain rfl := Option.some.inj hs; exact clean_checkAndHandleBlocking hl (by trivial) r
  | inMoreMessage n => obtain rfl := Option.some.inj hs; exact clean_checkAndHandleBlocking hl (by trivial) r
  | inPort n l =>
    cases r <;> obtain rfl := Option.some.inj hs
    case ok => exact clean_goto hl trivial
    all_goals exact clean_checkAndHandleBlocking (s := { s with skip := l.index }) hl (by trivial) _
  | inShutdown n =>
    cases r <;> obtain rfl := Option.some.inj hs
    case blockOn => exact clean_panic hl.1
    all_goals exact clean_drop (t := s.setDestroyed cfg) hl (.inl rfl)
  | _ => cases hs

theorem clean_unblock {t : StateTransition} (hl : s.leaked = 0 ∧ s.poisoned = false ∧ s.panicked = [])
    (hp : ∀ u : State, u.startedBlocking = s.startedBlocking → u.Promises pc) :
    ((s.unblock cfg t).goto pc).Clean := by
  cases t with
  | active => exact clean_goto (t := s.setFlag .active) hl (hp _ rfl)
  | started => exact clean_goto (t := (s.setFlag .active).send cfg .started) hl (hp _ rfl)
  | passive => exact clean_goto (t := s.setPassive cfg) hl (hp _ rfl)
  | destroyed => exact clean_goto (t := s.setDestroyed cfg) hl (hp _ rfl)

theorem Clean.polled (h : s.Clean) (hh : s.holder = some pc) {r : Option HandlerResult}
    (hs : State.polled cfg s r pc = some s') : s'.Clean := by
  have hl := h.running hh (fun e => by rw [e] at hs; cases hs)
  have hpr := h.promises pc hh
  cases polls_of_polled hs with
  | pending hp =>
    cases hp with
    | start => exact clean_goto (t := { s with blockingFuture := some _ }) hl fun _ hr => absurd hr (by decide)
    | blocking n => exact clean_goto (t := { s with blockingFuture := some _ }) hl trivial
  | completed hp =>
    cases hp with
    | start => exact clean_unblock hl fun _ hu => hu.trans hpr
    | blocking n => exact clean_unblock hl fun _ _ => trivial
  | shutdown => exact clean_goto (t := s.markDestroyed.emit .onKill) hl trivial
  | recoverable => exact clean_drop (t := (s.setFlag .faulty).send cfg .faulty) hl (.inr rfl)
  | unrecoverable => exact clean_drop (t := s.setDestroyed cfg) hl (.inl rfl)
  | failed => exact clean_goto hl trivial

/-- Promises are kept where the work does not get less. -/
theorem Promises.mono {t : State} (h : s.Promises pc) (hb : t.startedBlocking = s.startedBlocking)
    (hw : s.work ≤ t.work) : t.Promises pc := by
  cases pc with
  | pollStart _ => exact hb.trans h
  | loadDecision => exact hb.trans h
  | resolve r d => exact ⟨h.1, fun hd => Nat.lt_of_lt_of_le (h.2 hd) hw⟩
  | returning d => exact fun hf hr => Nat.lt_of_lt_of_le (h (hb.symm.trans hf) hr) hw
  | _ => trivial

/-- Steps of others leave the executor with the lock alone. -/
theorem Clean.frame {t : State} (h : s.Clean) (hw : t.word.flag = s.word.flag) (hl : t.leaked = s.leaked)
    (hh : t.holder = s.holder) (hp : t.poisoned = s.poisoned) (hpa : t.panicked = s.panicked)
    (hb : t.startedBlocking = s.startedBlocking) (hwork : s.work ≤ t.work) : t.Clean := by
  have he : t.Ended ↔ s.Ended := by simp only [Ended, hw]
  refine ⟨fun h0 => ?_, fun h0 => ?_, fun h0 => ?_, fun pc hpc => ?_⟩
  · rw [he, hh]; exact h.leaked (hl ▸ h0)
  · rw [hh]; exact h.poisoned (hp ▸ h0)
  · rw [hpa]; exact h.panicked (hp ▸ h0)
  · exact (h.promises pc (hh ▸ hpc)).mono hb hwork

theorem Clean.step {a : Action} (h : s.Clean) (hb : s.Balanced) (hc : s.Careful cfg a)
    (hs : s.step cfg a = some s') : s'.Clean := by
  obtain ⟨-, hd⟩ := does_of_step hs
  cases hd with
  | @increment item d word ha hw =>
    unfold Lifecycle.incrementWork at hw
    split at hw
    · obtain ⟨-, rfl⟩ := Prod.mk.inj (Option.some.inj hw)
      refine h.frame rfl rfl rfl rfl rfl rfl ?_
      show s.items + s.pending ≤ s.items + (1 + s.pending)
      omega
    · cases hw
  | overflow => exact h.frame rfl rfl rfl rfl rfl rfl (Nat.le_refl _)
  | @push k item d hk ha =>
    have hw := work_push hk ha
    cases item <;> exact h.frame rfl rfl rfl rfl rfl rfl (Nat.le_of_eq hw.symm)
  | @finishEnqueue k d hk =>
    refine h.frame rfl rfl rfl rfl rfl rfl ?_
    have hp := sum_map_eraseIdx Enqueuer.pending hk
    simp only [Enqueuer.pending, Nat.add_zero] at hp
    show s.items + (s.enqueuers.map Enqueuer.pending).sum ≤
      s.items + ((s.enqueuers.eraseIdx k).map Enqueuer.pending).sum
    omega
  | wake => exact h.frame rfl rfl rfl rfl rfl rfl (Nat.le_refl _)
  | dispatch _ => exact h.frame rfl rfl rfl rfl rfl rfl (Nat.le_refl _)
  | loadEnded _ _ => exact h.frame rfl rfl rfl rfl rfl rfl (Nat.le_refl _)
  | load _ => exact h.frame rfl rfl rfl rfl rfl rfl (Nat.le_refl _)
  | acquirePoisoned _ hh hp =>
    refine ⟨h.leaked, h.poisoned, fun hf => ?_, h.promises⟩
    exact absurd hp (by rw [show s.poisoned = false from hf]; decide)
  | acquire _ hh hp =>
    have hne : ¬ s.Ended := hc.resolve_left (by rw [hp]; decide)
    refine ⟨fun hl => absurd (h.leaked hl).1 hne, fun hp' => ?_, h.panicked, fun pc hpc => ?_⟩
    · exact absurd hp' (by rw [show s.poisoned = false from hp]; decide)
    · obtain rfl := Option.some.inj hpc
      trivial
  | exec hh hs => exact h.execStep hb hh hc hs
  | returns hh hs => exact h.handlerReturns hh hs
  | polled hh hs => exact h.polled hh hs
  | @panics pc hh hu => exact clean_panic (h.running hh (fun e => by rw [e] at hu; cases hu)).1
  | @faulted k n hk =>
    have hp : s.poisoned = true := by
      by_contra hp
      rw [h.panicked (by simpa using hp)] at hk
      cases hk
    refine ⟨fun _ => ⟨.inr rfl, .inl (h.poisoned hp)⟩, h.poisoned, fun hf => ?_, fun pc hpc => ?_⟩
    · exact absurd hp (by rw [show s.poisoned = false from hf]; decide)
    · have hpc : s.holder = some pc := hpc
      rw [h.poisoned hp] at hpc
      cases hpc
  | actSchedule _ => exact h.frame rfl rfl rfl rfl rfl rfl (Nat.le_refl _)
  | actResume _ => exact h.frame rfl rfl rfl rfl rfl rfl (Nat.le_refl _)
  | actNothing _ _ => exact h.frame rfl rfl rfl rfl rfl rfl (Nat.le_refl _)
  | setHandles _ => exact h.frame rfl rfl rfl rfl rfl rfl (Nat.le_refl _)

/-! ## The work count is what is queued -/

/-- Alive: active, passive or blocking. -/
def Live (s : State) : Prop := s.word.flag = .active ∨ s.word.flag = .passive ∨ s.word.flag = .blocking

/-- The work count of a live component is what is queued, about to be pushed,
or dequeued and not subtracted; the subtraction never underflows; and an
execution that did not find the component blocking and returns when there is
no work does not ask for another one, and leaves the count at zero. -/
structure Accounted (s : State) : Prop where
  count : s.Live → s.word.count = s.items + s.pending + s.dequeued
  noUnderflow : s.crashed ≠ some .underflow
  decision : ∀ d, s.holder = some (.returning d) → s.startedBlocking = false → s.items = 0 →
    s.enqueuers = [] → ¬ d.Runs ∧ (s.Live → s.word.count = 0)

theorem accounted_of_balanced (hb : s.Balanced) (hc : s.Clean) : s.Accounted := by
  have hlive : s.Live → s.leaked = 0 := by
    intro hlive
    by_contra hl
    have he := (hc.leaked (Nat.pos_of_ne_zero hl)).1
    rcases he with he | he <;> rcases hlive with h | h | h <;> rw [he] at h <;> cases h
  have hcount : s.Live → s.word.count = s.items + s.pending + s.dequeued := fun h => by
    have := hb.1
    rw [hlive h] at this
    exact this
  refine ⟨hcount, hb.2, fun d hh hsb hi he => ⟨fun hr => ?_, fun h => ?_⟩⟩
  · have := hc.promises _ hh hsb hr
    rw [work, hi, pending, he] at this
    simp at this
  · have hpan : s.panicked = [] := hc.panicked (by
      by_contra hp
      have := hc.poisoned (by simpa using hp)
      rw [hh] at this
      cases this)
    rw [hcount h, hi, pending, he, dequeued, hh, hpan]
    rfl

end State

variable {cfg : Config} {s : State} {nPorts : Nat}

/-- In every run of careful steps the work is accounted for. -/
theorem accounted_of_careful (h : Reach (State.step cfg) (State.Careful cfg) (initial nPorts) s) :
    s.Accounted := by
  have hinv : s.Balanced ∧ s.Clean := by
    refine Reach.invariant (fun s => s.Balanced ∧ s.Clean) ⟨?_, ?_⟩ ?_ h
    · refine ⟨?_, fun hc => by cases hc⟩
      simp [initial, State.items, State.pending, State.dequeued, Lifecycle.initialState]
    · exact ⟨fun hl => absurd hl (Nat.lt_irrefl 0), (fun hp => by cases hp), fun _ => rfl, (fun pc hpc => by cases hpc)⟩
    · exact fun ⟨hb, hc⟩ hok hs => ⟨hb.step hs, hc.step hb hok hs⟩
  exact accounted_of_balanced hinv.1 hinv.2

/-- A component is started, schedules a timer in `on_start` and, once the
timeout has been queued, cancels it; `tail` are the steps before `on_start` returns. -/
def startWithTimer (tail : List Action) : List Action :=
  [.increment (.control .start), .push 0, .finishEnqueue 0, .dispatch, .load, .acquire, .exec, .exec, .exec,
    .schedule 7 .oneShot, .increment (.timeout 7), .push 0, .finishEnqueue 0] ++ tail

/-- The timer fires: its handler runs and is counted. -/
theorem accounted_of_careful_timer :
    let run := startWithTimer [.returns .ok, .exec, .exec, .exec, .returns .ok, .exec, .exec, .exec, .exec, .exec,
      .exec, .exec, .exec]
    ∃ h : (runActions (State.step ⟨10, 5, true⟩) (initial 0) run).isSome, (Option.get _ h).Accounted :=
  ⟨by decide, accounted_of_careful (Reach.of_run _ (by decide) (by decide))⟩

/-- The timer is cancelled after its timeout was queued: the execution returns
with nothing left to do, a count of one, and asks to be scheduled again. -/
theorem not_accounted_cancelled :
    ∃ s, Reach (State.step ⟨10, 5, true⟩) (fun _ _ => True) (initial 0) s ∧
      s.Live ∧ s.items = 0 ∧ s.pending = 0 ∧ s.dequeued = 0 ∧ s.word.count = 1 ∧
      s.holder = some (.returning .schedule) ∧ ¬ s.Accounted := by
  refine ⟨_, Reach.of_run (startWithTimer [.cancel 7, .returns .ok, .exec, .exec, .exec, .exec, .exec, .exec, .exec,
    .exec, .exec]) (by decide) (runMeets_true _ _), .inl (by decide), by decide, by decide, by decide, by decide,
    by decide, fun h => ?_⟩
  exact absurd (h.count (.inl (by decide))) (by decide)

end Kompact.Component
