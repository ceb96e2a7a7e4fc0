import Kompact.Component.Wakeup

/-!
# Polling of blocking futures

Nobody schedules a blocked component but the waker of its future, and a future
knows the waker only once it was polled. `Watched` counts the polls of the
future the component blocks on since it was installed.

Wherever a handler returns a future, the future is polled before the execution
returns. A future that completes with another one to block on is replaced by it
without a poll (`stranded_by_nested_future`); as long as none does, a blocked
component that nobody executes keeps a future that was polled (`blocked_is_polled`).
-/

namespace Kompact.Component

open State

instance (s : State) : Decidable s.Executing := inferInstanceAs (Decidable (_ ∨ _ ∨ _ ∨ _))

/-- A component, and how often the future it blocks on was polled since it was installed. -/
structure Watched where
  state : State
  polls : Nat
  deriving DecidableEq, Repr

namespace Watched

/-- The polls of the installed future after a step from `s`: an installed
future starts at zero, and a poll that leaves it installed is one more. -/
def pollsAfter (s : State) (polls : Nat) : Action → Nat
  | .returns .blockOn => 0
  | .polled none => polls + 1
  | .polled (some .blockOn) => 0
  | .exec =>
    match s.holder with
    | some (.resolve (some .blockOn) _) => 0
    | _ => polls
  | _ => polls

def step (cfg : Config) (w : Watched) (a : Action) : Option Watched :=
  (w.state.step cfg a).map fun state => ⟨state, pollsAfter w.state w.polls a⟩

def initial (nPorts : Nat) : Watched := ⟨Component.initial nPorts, 0⟩

/-- A blocked component that is neither executing nor queued has a future that
was polled since it was installed. -/
def NotStranded (w : Watched) : Prop :=
  w.state.word.flag = .blocking → ¬ w.state.Executing → w.state.queued = 0 →
    w.state.blockingFuture.isSome = true ∧ 0 < w.polls

end Watched

namespace Pc

/-- A future is being polled, or it completed and the component is about to stop. -/
def polling : Pc → Bool
  | pollStart _ => true
  | pollBlocking _ _ => true
  | subtract _ (some .shutdown) => true
  | subtract _ (some .recoverable) => true
  | subtract _ (some .unrecoverable) => true
  | resolve (some .shutdown) _ => true
  | resolve (some .recoverable) _ => true
  | resolve (some .unrecoverable) _ => true
  | _ => false

/-- A future completed with another one, and the one who polled it sees that. -/
def nests : Pc → Bool
  | subtract _ (some .blockOn) => true
  | resolve (some .blockOn) _ => true
  | _ => false

/-- A place where a component that is blocking keeps its future. -/
def mayBlock (pc : Pc) (future : Bool) : Prop := (pc.keepsFuture = true ∧ future = true) ∨ pc.polling = true

end Pc

namespace Watched

/-- What holds as long as no future completes with another one. -/
structure Installed (w : Watched) : Prop where
  polled : w.state.blockingFuture.isSome = true → 0 < w.polls
  free : w.state.holder = none → w.state.word.flag = .blocking →
    w.state.blockingFuture.isSome = true ∨ w.state.panicked ≠ []
  held : ∀ pc, w.state.holder = some pc → w.state.word.flag = .blocking →
    pc.mayBlock w.state.blockingFuture.isSome
  flat : ∀ pc, w.state.holder = some pc → pc.nests = false
  poisoned : w.state.panicked ≠ [] → w.state.poisoned = true

variable {cfg : Config} {s s' t : State} {pc pc' : Pc} {polls polls' n : Nat}

/-! ## The executor with the lock -/

theorem installed_at (hp : t.blockingFuture.isSome = true → 0 < polls)
    (hb : t.word.flag = .blocking → pc.mayBlock t.blockingFuture.isSome) (hn : pc.nests = false)
    (hq : t.panicked ≠ [] → t.poisoned = true) : Installed ⟨t.goto pc, polls⟩ where
  polled := hp
  free h := by cases h
  held pc' hpc' hf := by
    obtain rfl := Option.some.inj hpc'
    exact hb hf
  flat pc' hpc' := by
    obtain rfl := Option.some.inj hpc'
    exact hn
  poisoned := hq

/-- Going on in a component that is not blocking. -/
theorem installed_goto (f : Flag) (hf : t.word.flag = f) (hne : f ≠ .blocking)
    (hp : t.blockingFuture.isSome = true → 0 < polls) (hn : pc.nests = false)
    (hq : t.panicked ≠ [] → t.poisoned = true) : Installed ⟨t.goto pc, polls⟩ :=
  installed_at hp (fun hb => absurd (hf.symm.trans hb) hne) hn hq

/-- Nothing that matters here has changed. -/
theorem Installed.frame (h : Installed ⟨s, polls⟩) (hw : t.word.flag = s.word.flag)
    (hf : t.blockingFuture = s.blockingFuture) (hh : t.holder = s.holder) (hp : t.panicked = s.panicked)
    (hpo : t.poisoned = s.poisoned) : Installed ⟨t, polls⟩ where
  polled hs := h.polled (hf ▸ hs)
  free h1 h2 := by
    show t.blockingFuture.isSome = true ∨ t.panicked ≠ []
    rw [hf, hp]
    exact h.free (hh ▸ h1) (hw ▸ h2)
  held pc hpc h2 := by
    show pc.mayBlock t.blockingFuture.isSome
    rw [hf]
    exact h.held pc (hh ▸ hpc) (hw ▸ h2)
  flat pc hpc := h.flat pc (hh ▸ hpc)
  poisoned hne := by
    show t.poisoned = true
    rw [hpo]
    exact h.poisoned (hp ▸ hne)

/-- At any other place the component is not blocking. -/
theorem Installed.not_blocking (h : Installed ⟨s, polls⟩) (hh : s.holder = some pc) (hk : pc.keepsFuture = false)
    (hp : pc.polling = false) : s.word.flag ≠ .blocking := by
  intro hf
  rcases h.held pc hh hf with ⟨hk', -⟩ | hp'
  · rw [hk] at hk'; cases hk'
  · rw [hp] at hp'; cases hp'

/-- Going on from such a place without a change of the state. -/
theorem Installed.move (h : Installed ⟨s, polls⟩) (hh : s.holder = some pc) (hk : pc.keepsFuture = false)
    (hp : pc.polling = false) (hn : pc'.nests = false) (hw : t.word.flag = s.word.flag)
    (hf : t.blockingFuture = s.blockingFuture) (hq : t.panicked = s.panicked) (hpo : t.poisoned = s.poisoned) :
    Installed ⟨t.goto pc', polls⟩ := by
  refine installed_goto _ hw (h.not_blocking hh hk hp) (fun hs => h.polled (hf ▸ hs)) hn (fun hne => ?_)
  rw [hpo]
  exact h.poisoned (hq ▸ hne)

theorem Installed.checkAndHandleBlocking (h : Installed ⟨s, polls⟩) (hh : s.holder = some pc)
    (hfut : s.blockingFuture = none) (hk : pc.keepsFuture = false) (hp : pc.polling = false)
    (hn : pc'.nests = false) (r : HandlerResult) :
    Installed ⟨s.checkAndHandleBlocking cfg n pc' r, pollsAfter s polls (.returns r)⟩ := by
  have hpolled : ∀ k, s.blockingFuture.isSome = true → 0 < k := fun k hs => by rw [hfut] at hs; cases hs
  have hq : s.panicked ≠ [] → s.poisoned = true := h.poisoned
  cases r with
  | ok => exact h.move hh hk hp hn rfl rfl rfl rfl
  | benign => exact h.move hh hk hp hn rfl rfl rfl rfl
  | blockOn => exact installed_at (t := s.setFlag .blocking) (hpolled _) (fun _ => .inr rfl) rfl hq
  | shutdown =>
    exact installed_goto (t := s.markDestroyed.emit .onKill) .destroyed rfl (by decide) (hpolled _) rfl hq
  | recoverable =>
    exact installed_goto (t := { (s.setFlag .faulty).send cfg .faulty with leaked := s.leaked + n }) .faulty rfl
      (by decide) (hpolled _) rfl hq
  | unrecoverable =>
    exact installed_goto (t := { s.setDestroyed cfg with leaked := s.leaked + n }) .destroyed rfl (by decide)
      (hpolled _) rfl hq

theorem Installed.decrement (h : Installed ⟨s, polls⟩) (next : SchedulingDecision → Pc)
    (hb : ∀ d, s.word.flag = .blocking → (next d).mayBlock s.blockingFuture.isSome)
    (hn : ∀ d, (next d).nests = false) : Installed ⟨s.decrement n next, polls⟩ := by
  rcases decrement_cases s n next with he | he | ⟨-, he⟩
  · rw [he]
    exact h.frame rfl rfl rfl rfl rfl
  · rw [he]
    exact installed_at h.polled (hb _) (hn _) h.poisoned
  · rw [he]
    exact installed_at h.polled (hb _) (hn _) h.poisoned

/-- The subtraction on the way out of a poll. -/
theorem Installed.subtract {r : Option HandlerResult} (h : Installed ⟨s, polls⟩)
    (hh : s.holder = some (.subtract n r)) : Installed ⟨s.decrement n (.resolve r), polls⟩ := by
  refine h.decrement _ (fun d hf => ?_) (fun d => ?_)
  · have hb := h.held _ hh hf
    rcases r with _ | r
    · exact hb
    · cases r <;> exact hb
  · have hn := h.flat _ hh
    rcases r with _ | r
    · rfl
    · cases r <;> first | rfl | cases hn

theorem Installed.resolve {r : Option HandlerResult} {d : SchedulingDecision} (h : Installed ⟨s, polls⟩)
    (hh : s.holder = some (.resolve r d)) : Installed ⟨s.resolve cfg d r, polls⟩ := by
  rcases r with _ | r
  · -- the future is pending and stays where it is
    exact installed_at h.polled (fun hf => (h.held _ hh hf : (Pc.resolve none d).mayBlock _)) rfl h.poisoned
  cases r with
  | ok => exact h.move hh rfl rfl rfl rfl rfl rfl rfl
  | benign => exact h.move hh rfl rfl rfl rfl rfl rfl rfl
  | blockOn => exact absurd (h.flat _ hh) Bool.noConfusion
  | shutdown =>
    exact installed_goto (t := s.markDestroyed.emit .onKill) .destroyed rfl (by decide) h.polled rfl h.poisoned
  | recoverable =>
    exact installed_goto (t := { (s.setFlag .faulty).send cfg .faulty with leaked := s.leaked + 0 }) .faulty rfl
      (by decide) h.polled rfl h.poisoned
  | unrecoverable =>
    exact installed_goto (t := { s.setDestroyed cfg with leaked := s.leaked + 0 }) .destroyed rfl (by decide)
      h.polled rfl h.poisoned

theorem pollsAfter_exec (hn : ∀ pc, s.holder = some pc → pc.nests = false) : pollsAfter s polls .exec = polls := by
  simp only [pollsAfter]
  split
  · rename_i d hh
    exact absurd (hn _ hh) Bool.noConfusion
  · rfl

theorem Installed.enterControl {ev : ControlEvent} (h : Installed ⟨s, polls⟩) (hh : s.holder = some (.enter ev n)) :
    Installed ⟨s.enterControl n ev, polls⟩ := by
  cases ev with
  | start =>
    exact installed_goto (t := (s.setFlag .active).emit .onStart) .active rfl (by decide) h.polled rfl h.poisoned
  | stop =>
    exact installed_goto (t := (s.setFlag .passive).emit .onStop) .passive rfl (by decide) h.polled rfl h.poisoned
  | kill =>
    exact installed_goto (t := s.markDestroyed.emit .onKill) .destroyed rfl (by decide) h.polled rfl h.poisoned
  | poll tag => exact h.move hh rfl rfl rfl rfl rfl rfl rfl

theorem inLoop_flat (h : pc.inLoop = true) : pc.polling = false ∧ pc.nests = false := by
  cases pc <;> first | exact ⟨rfl, rfl⟩ | cases h

theorem Installed.execStep (h : Installed ⟨s, polls⟩) (hh : s.holder = some pc)
    (hs : s.execStep cfg pc = some s') : Installed ⟨s', polls⟩ := by
  cases executes_of_execStep hs with
  | poll hf =>
    exact installed_at (t := { s with blockingFuture := none, startedBlocking := true }) (fun h => by cases h)
      (fun _ => .inr rfl) rfl h.poisoned
  | begin hf =>
    refine installed_at (t := { s with startedBlocking := false }) h.polled (fun hb => ?_) rfl h.poisoned
    -- a blocking component would have its future
    rcases h.held _ hh hb with ⟨-, hsome⟩ | hp
    · rw [show s.blockingFuture = none from hf] at hsome; cases hsome
    · cases hp
  | loadDecision => exact h.move hh rfl rfl rfl rfl rfl rfl rfl
  | enter => exact h.enterControl hh
  | loop hpc hpc' ht hk =>
    have hkeeps := ht.keeps
    exact h.move hh (inLoop_undecided hpc).2.2.1 (inLoop_flat hpc).1 (inLoop_flat hpc').2
      (congrArg Lifecycle.flag hkeeps.word) hkeeps.blockingFuture hkeeps.panicked hkeeps.poisoned
  | timerGone hn hq hgone =>
    exact h.move (t := { s with timerQueue := _, leaked := _ }) hh rfl rfl rfl rfl rfl rfl rfl
  | subtract => exact h.subtract hh
  | resolve => exact h.resolve hh
  | finish => exact h.decrement _ (fun _ hf => absurd hf (h.not_blocking hh rfl rfl)) (fun _ => rfl)
  | returning =>
    refine ⟨h.polled, fun _ hf => .inl ?_, (fun pc hpc => by cases hpc), (fun pc hpc => by cases hpc), h.poisoned⟩
    rcases h.held _ hh hf with ⟨-, hsome⟩ | hp
    · exact hsome
    · cases hp

theorem installed_panic (hp : t.blockingFuture.isSome = true → 0 < polls) : Installed ⟨t.panic n, polls⟩ where
  polled := hp
  free _ _ := .inr (List.cons_ne_nil _ _)
  held pc hpc := by cases hpc
  flat pc hpc := by cases hpc
  poisoned _ := rfl

/-- A future a handler returns is polled next. -/
theorem Installed.handlerReturns {r : HandlerResult} (h : Installed ⟨s, polls⟩) (ha : s.Awake)
    (hh : s.holder = some pc) (hs : s.handlerReturns cfg r pc = some s') :
    Installed ⟨s', pollsAfter s polls (.returns r)⟩ := by
  have hfut : s.blockingFuture = none := by
    refine ha.noFuture hh ?_
    cases pc <;> first | rfl | cases hs
  have hpolled : ∀ k, s.blockingFuture.isSome = true → 0 < k := fun k hs => by rw [hfut] at hs; cases hs
  have hq : s.panicked ≠ [] → s.poisoned = true := h.poisoned
  have hend : ∀ k polls', Installed ⟨(s.setDestroyed cfg).drop k, polls'⟩ := fun k polls' =>
    installed_goto (t := { s.setDestroyed cfg with leaked := s.leaked + k }) .destroyed rfl (by decide)
      (hpolled _) rfl hq
  cases pc with
  | inControl ev n =>
    have hset : Installed ⟨(s.settle cfg ev).goto (.control (n + 1)), polls⟩ := by
      cases ev with
      | start => exact h.move (t := s.send cfg .started) hh rfl rfl rfl rfl rfl rfl rfl
      | stop => exact installed_goto (t := s.setPassive cfg) .passive rfl (by decide) (hpolled _) rfl hq
      | kill => exact installed_goto (t := s.setDestroyed cfg) .destroyed rfl (by decide) (hpolled _) rfl hq
      | poll tag => exact h.move hh rfl rfl rfl rfl rfl rfl rfl
    cases r <;> obtain rfl := Option.some.inj hs
    case ok => exact hset
    case benign => exact hset
    case blockOn => exact installed_at (t := s.setFlag .blocking) (hpolled _) (fun _ => .inr rfl) rfl hq
    case shutdown =>
      split
      · exact hend _ _
      · exact installed_goto (t := s.markDestroyed.emit .onKill) .destroyed rfl (by decide) (hpolled _) rfl hq
    case recoverable =>
      exact installed_goto (t := { (s.setFlag .faulty).send cfg .faulty with leaked := s.leaked + (n + 1) }) .faulty rfl
        (by decide)
        (hpolled _) rfl hq
    case unrecoverable => exact hend _ _
  | inTimer n => obtain rfl := Option.some.inj hs; exact h.checkAndHandleBlocking hh hfut rfl rfl rfl r
  | inMessage n => obtain rfl := Option.some.inj hs; exact h.checkAndHandleBlocking hh hfut rfl rfl rfl r
  | inMoreMessage n => obtain rfl := Option.some.inj hs; exact h.checkAndHandleBlocking hh hfut rfl rfl rfl r
  | inPort n l =>
    have hskip : Installed ⟨{ s with skip := l.index }, polls⟩ := h.frame rfl rfl rfl rfl rfl
    cases r <;> obtain rfl := Option.some.inj hs
    case ok => exact h.move hh rfl rfl rfl rfl rfl rfl rfl
    all_goals exact hskip.checkAndHandleBlocking hh hfut rfl rfl rfl _
  | inShutdown n =>
    cases r <;> obtain rfl := Option.some.inj hs
    case blockOn => exact installed_panic (hpolled _)
    all_goals exact hend _ _
  | _ => cases hs

/-- A future that is pending was polled once more. -/
theorem Installed.poll {r : Option HandlerResult} (h : Installed ⟨s, polls⟩) (ha : s.Awake)
    (hh : s.holder = some pc) (hr : r ≠ some .blockOn) (hs : State.polled cfg s r pc = some s') :
    Installed ⟨s', pollsAfter s polls (.polled r)⟩ := by
  have hfut : s.blockingFuture = none := by
    refine ha.noFuture hh ?_
    cases pc <;> first | rfl | cases hs
  have hpolled : ∀ k, s.blockingFuture.isSome = true → 0 < k := fun k hs => by rw [hfut] at hs; cases hs
  have hq : s.panicked ≠ [] → s.poisoned = true := h.poisoned
  have hun : ∀ t pc' polls', pc'.nests = false → Installed ⟨(s.unblock cfg t).goto pc', polls'⟩ := by
    intro t pc' polls' hn
    cases t with
    | active => exact installed_goto (t := s.setFlag .active) .active rfl (by decide) (hpolled _) hn hq
    | started =>
      exact installed_goto (t := (s.setFlag .active).send cfg .started) .active rfl (by decide) (hpolled _) hn hq
    | passive => exact installed_goto (t := s.setPassive cfg) .passive rfl (by decide) (hpolled _) hn hq
    | destroyed => exact installed_goto (t := s.setDestroyed cfg) .destroyed rfl (by decide) (hpolled _) hn hq
  cases polls_of_polled hs with
  | pending hp hpending =>
    obtain rfl : r = none := hpending.resolve_right hr
    cases hp <;> exact installed_at (t := { s with blockingFuture := some _ }) (fun _ => Nat.succ_pos _)
      (fun _ => .inl ⟨rfl, rfl⟩) rfl hq
  | completed hp hr' =>
    cases hp with
    | start => exact hun _ _ _ rfl
    | blocking n => rcases hr' with rfl | rfl <;> exact hun _ _ _ rfl
  | shutdown => exact installed_goto (t := s.markDestroyed.emit .onKill) .destroyed rfl (by decide) (hpolled _) rfl hq
  | recoverable =>
    exact installed_goto (t := { (s.setFlag .faulty).send cfg .faulty with leaked := s.leaked + 0 }) .faulty rfl
      (by decide) (hpolled _) rfl hq
  | unrecoverable =>
    exact installed_goto (t := { s.setDestroyed cfg with leaked := s.leaked + 0 }) .destroyed rfl (by decide)
      (hpolled _) rfl hq
  | failed hr' => rcases hr' with ⟨rfl, -⟩ | rfl | rfl <;> exact installed_at (hpolled _) (fun _ => .inr rfl) rfl hq

/-! ## All steps -/

/-- The step is not the completion of a blocking future with another one. -/
def Flat (_ : Watched) (a : Action) : Prop := a ≠ .polled (some .blockOn)

instance (w : Watched) (a : Action) : Decidable (Flat w a) := inferInstanceAs (Decidable (_ ≠ _))

theorem Installed.recount (h : Installed ⟨s, polls⟩) (hp : s.blockingFuture.isSome = true → 0 < polls') :
    Installed ⟨s, polls'⟩ :=
  ⟨hp, h.free, h.held, h.flat, h.poisoned⟩

/-- No step resets the polls of a future that is kept. -/
theorem Installed.pollsAfter_pos {a : Action} (h : Installed ⟨s, polls⟩) (ha : s.Awake) (hok : Flat ⟨s, polls⟩ a)
    (hs : s.step cfg a = some s') (hf : s.blockingFuture.isSome = true) : 0 < pollsAfter s polls a := by
  have hpos : 0 < polls := h.polled hf
  cases a with
  | returns r =>
    cases r with
    | blockOn =>
      have hr : s.holder.bind (s.handlerReturns cfg .blockOn) = some s' := by
        unfold State.step at hs
        split at hs
        · cases hs
        · exact hs
      obtain ⟨pc, hh, hs'⟩ := Option.bind_eq_some_iff.mp hr
      have hnone : s.blockingFuture = none := by
        refine ha.noFuture hh ?_
        cases pc <;> first | rfl | cases hs'
      rw [hnone] at hf
      cases hf
    | _ => exact hpos
  | polled r =>
    rcases r with _ | r
    · exact Nat.succ_pos _
    cases r with
    | blockOn => exact absurd rfl hok
    | _ => exact hpos
  | exec =>
    rw [pollsAfter_exec h.flat]
    exact hpos
  | _ => exact hpos

theorem Installed.step {w w' : Watched} {a : Action} (h : w.Installed) (ha : w.state.Awake) (hok : Flat w a)
    (hs : w.step cfg a = some w') : w'.Installed ∧ w'.state.Awake := by
  obtain ⟨s, polls⟩ := w
  obtain ⟨s', hs', rfl⟩ := Option.map_eq_some_iff.mp hs
  refine ⟨?_, ha.step hs'⟩
  obtain ⟨-, hd⟩ := does_of_step hs'
  cases hd with
  | increment _ hw =>
    refine h.frame ?_ rfl rfl rfl rfl
    unfold Lifecycle.incrementWork at hw
    split at hw
    · obtain ⟨-, rfl⟩ := Prod.mk.inj (Option.some.inj hw)
      rfl
    · cases hw
  | overflow => exact h.frame rfl rfl rfl rfl rfl
  | @push k item d hk _ => cases item <;> exact h.frame rfl rfl rfl rfl rfl
  | finishEnqueue hk => exact h.frame rfl rfl rfl rfl rfl
  | wake => exact h.frame rfl rfl rfl rfl rfl
  | dispatch _ => exact h.frame rfl rfl rfl rfl rfl
  | loadEnded _ _ => exact h.frame rfl rfl rfl rfl rfl
  | load _ => exact h.frame rfl rfl rfl rfl rfl
  | acquirePoisoned _ hh hp =>
    exact ⟨h.polled, fun _ _ => .inr (List.cons_ne_nil _ _), h.held, h.flat, fun _ => hp⟩
  | acquire _ hh hp =>
    refine installed_at (t := { s with locking := s.locking - 1 }) h.polled (fun hf => .inl ⟨rfl, ?_⟩) rfl h.poisoned
    refine (h.free hh hf).resolve_right (fun hne => ?_)
    rw [h.poisoned hne] at hp
    cases hp
  | exec hh hs =>
    rw [pollsAfter_exec h.flat]
    exact h.execStep hh hs
  | returns hh hs => exact h.handlerReturns ha hh hs
  | polled hh hs => exact h.poll ha hh (fun he => hok (by rw [he])) hs
  | panics hh hu => exact installed_panic h.polled
  | faulted _ =>
    refine ⟨h.polled, (fun _ hf => by cases hf), (fun _ _ hf => by cases hf), h.flat, fun hne => h.poisoned ?_⟩
    rintro he
    exact hne (by show s.panicked.eraseIdx _ = []; rw [show s.panicked = [] from he]; rfl)
  | actSchedule _ => exact h.frame rfl rfl rfl rfl rfl
  | actResume _ => exact h.frame rfl rfl rfl rfl rfl
  | actNothing _ _ => exact h.frame rfl rfl rfl rfl rfl
  | setHandles _ => exact (h.recount (h.pollsAfter_pos ha hok hs')).frame rfl rfl rfl rfl rfl

theorem Installed.notStranded {w : Watched} (h : w.Installed) : w.NotStranded := by
  intro hf hx _
  have hfree : w.state.holder = none := by
    by_contra hne
    exact hx (.inr (.inr (.inl hne)))
  have hnone : ¬ w.state.panicked ≠ [] := fun hne => hx (.inr (.inr (.inr hne)))
  have hsome := (h.free hfree hf).resolve_right hnone
  exact ⟨hsome, h.polled hsome⟩

theorem installed_initial (nPorts : Nat) : (initial nPorts).Installed :=
  ⟨(fun hs => by cases hs), (fun _ hf => by cases hf), (fun pc hpc => by cases hpc), (fun pc hpc => by cases hpc),
    fun hne => absurd rfl hne⟩

end Watched

variable {cfg : Config} {nPorts : Nat}

/-- In a run in which no blocking future completes with another one to block
on, no component is ever stranded. -/
theorem blocked_is_polled {w : Watched} (h : Reach (Watched.step cfg) Watched.Flat (Watched.initial nPorts) w) :
    w.NotStranded := by
  have hinv : w.Installed ∧ w.state.Awake := by
    refine Reach.invariant (fun w : Watched => w.Installed ∧ w.state.Awake) ?_ ?_ h
    · exact ⟨Watched.installed_initial nPorts, awake_initial nPorts⟩
    · exact fun hi hok hs => hi.1.step hi.2 hok hs
  exact hinv.1.notStranded

/-- A run up to the first poll of the future that the start handler returns,
what that poll gives, and the rest of the execution. -/
def blockOnStart (r : Option HandlerResult) : List Action :=
  [.increment (.control .start), .push 0, .finishEnqueue 0, .dispatch, .load, .acquire, .exec, .exec, .exec,
    .returns .blockOn, .polled r, .exec, .exec, .exec, .act 0]

/-- The future of the start handler is pending: the component waits for its waker. -/
theorem blocked_is_polled_pending :
    ∃ h : (runActions (Watched.step ⟨10, 5, true⟩) (Watched.initial 0) (blockOnStart none)).isSome,
      (Option.get _ h).state.word.flag = .blocking ∧ ¬ (Option.get _ h).state.Executing ∧
        (Option.get _ h).NotStranded := by
  exact ⟨by decide, by decide, by decide, blocked_is_polled (Reach.of_run _ (by decide) (by decide))⟩

/-- The future of the start handler completes with another one: that one is
installed and never polled, and the component is blocked with nobody to wake it. -/
theorem stranded_by_nested_future :
    ¬ ∀ (cfg : Config) (nPorts : Nat) (w : Watched),
      Reach (Watched.step cfg) (fun _ _ => True) (Watched.initial nPorts) w → w.NotStranded := by
  intro hall
  have hw := hall ⟨10, 5, true⟩ 0 _ (Reach.of_run (blockOnStart (some .blockOn)) (by decide) (runMeets_true _ _))
  exact absurd (hw (by decide) (by decide) (by decide)).2 (by decide)

end Kompact.Component
