import Kompact.Component.Wakeup

/-!
# The end of a component

A component is destroyed by a `Kill`, by a handler that asks for a shutdown or
by an unrecoverable error. Up to then the log is plain: nothing in it is about
the end (`Obs.plain`). Afterwards the component is in one of the phases of
`Phase`: `on_kill` runs; it blocks; its future is polled; all is done; or
`on_kill` failed, or panicked.

The loop over the control queue does not look at the state, so that an event
queued behind a `Kill` brings the component back. `Settled` leaves these steps
out; every other step keeps the phases in order (`Ending.step`).
-/

namespace Kompact.Component

open State

namespace Obs

/-- A handler of the component ran. -/
def isHandler : Obs → Bool
  | onStart => true
  | onStop => true
  | onKill => true
  | timer _ => true
  | message _ => true
  | port _ => true
  | setDestroyed => false
  | sent _ => false

/-- Not about the end of the component. -/
def plain : Obs → Bool
  | onKill => false
  | setDestroyed => false
  | sent .killed => false
  | _ => true

end Obs

namespace Pc

/-- `on_kill` runs. -/
def kills : Pc → Bool
  | inControl .kill _ => true
  | inShutdown _ => true
  | _ => false

/-- The future of `on_kill` is polled, or has failed. -/
def pollsKill : Pc → Bool
  | pollStart .destroyed => true
  | pollBlocking .destroyed _ => true
  | subtract _ (some .recoverable) => true
  | subtract _ (some .unrecoverable) => true
  | resolve (some .recoverable) _ => true
  | resolve (some .unrecoverable) _ => true
  | _ => false

/-- Where an executor can be once all is done: it polls tasks at most. -/
def idle : Pc → Bool
  | begin => true
  | loadDecision => true
  | control _ => true
  | enter (.poll _) _ => true
  | inControl (.poll _) _ => true
  | activeCheck _ => true
  | subtract _ (some .ok) => true
  | subtract _ (some .benign) => true
  | resolve (some .ok) _ => true
  | resolve (some .benign) _ => true
  | finish _ => true
  | returning _ => true
  | _ => false

end Pc

namespace State

/-- After the end: no handler but an `on_kill` right away, and the supervisor
is told at most once. -/
def Final (after : List Obs) : Prop :=
  ∃ rest, (after = rest ∨ after = .onKill :: rest) ∧ (∀ o ∈ rest, o.isHandler = false) ∧
    rest.count (.sent .killed) ≤ 1

/-- After an `on_kill` that did not complete. -/
def Failing (rest : List Obs) : Prop := ∀ o ∈ rest, o.isHandler = false ∧ o ≠ .sent .killed

/-- The phases of a component that was destroyed, with what happened since. -/
inductive Phase (s : State) : List Obs → Prop
  | killing {pc : Pc} (hh : s.holder = some pc) (hk : pc.kills = true) (hf : s.word.flag = .destroyed)
      (hb : s.blockingFuture = none) (hp : s.poisoned = false) : Phase s [.onKill]
  | blocked (hh : ∀ pc, s.holder = some pc → pc.keepsFuture = true) (hf : s.word.flag = .blocking)
      (hb : s.blockingFuture = some .destroyed) (hp : s.poisoned = false) : Phase s [.onKill]
  | polling {pc : Pc} (hh : s.holder = some pc) (hk : pc.pollsKill = true) (hf : s.word.flag = .blocking)
      (hb : s.blockingFuture = none) (hp : s.poisoned = false) : Phase s [.onKill]
  | ended {after : List Obs} (hh : ∀ pc, s.holder = some pc → pc.idle = true) (hf : s.word.flag = .destroyed)
      (hb : s.blockingFuture = none) (hp : s.poisoned = false) (hq : Final after) : Phase s after
  | failed {rest : List Obs} (hh : ∀ pc, s.holder = some pc → pc.idle = true) (hf : s.word.flag = .faulty)
      (hb : s.blockingFuture = none) (hp : s.poisoned = false) (hq : Failing rest) : Phase s (.onKill :: rest)
  | panicked {rest : List Obs} (hf : s.word.flag = .destroyed ∨ s.word.flag = .blocking ∨ s.word.flag = .faulty)
      (hb : s.blockingFuture = none) (hp : s.poisoned = true) (hq : Failing rest) : Phase s (.onKill :: rest)

/-- Nothing about the end has happened, and nobody has panicked. -/
def Before (s : State) : Prop := s.poisoned = false ∧ s.panicked = [] ∧ ∀ o ∈ s.log, o.plain = true

structure Ending (s : State) : Prop where
  poisoned : s.poisoned = true → s.holder = none
  panicked : s.poisoned = false → s.panicked = []
  log : (∀ o ∈ s.log, o.plain = true) ∨
    ∃ before after, s.log = before ++ .setDestroyed :: after ∧ (∀ o ∈ before, o.plain = true) ∧ s.Phase after

/-- Once the component was destroyed, only tasks are polled from its control
queue, and they neither block, shut down, fail nor panic. -/
def Settled (s : State) (a : Action) : Prop :=
  .setDestroyed ∈ s.log →
    match a, s.holder with
    | .exec, some (.control _) => ∀ ev ∈ s.ctrlQueue.head?, ev ≠ .start ∧ ev ≠ .stop ∧ ev ≠ .kill
    | .returns r, some (.inControl (.poll _) _) => r = .ok ∨ r = .benign
    | .panics, some (.inControl (.poll _) _) => False
    | _, _ => True

instance (s : State) (a : Action) : Decidable (s.Settled a) := by
  unfold Settled
  generalize s.holder = holder
  cases a <;> rcases holder with _ | pc <;> try infer_instance
  all_goals cases pc <;> try infer_instance
  all_goals
    rename_i ev n
    cases ev <;> infer_instance

variable {cfg : Config} {s s' : State} {pc : Pc} {n : Nat}

/-! ## Up to the end -/

theorem ending_goto {t : State} (h : t.Before) (pc : Pc) : (t.goto pc).Ending where
  poisoned hp := absurd (h.1.symm.trans hp) (by decide)
  panicked _ := h.2.1
  log := .inl h.2.2

theorem Before.append {t : State} {l : List Obs} (h : t.Before) (hl : ∀ o ∈ l, o.plain = true) :
    State.Before { t with log := t.log ++ l } := by
  refine ⟨h.1, h.2.1, fun o ho => ?_⟩
  rcases List.mem_append.mp ho with ho | ho
  · exact h.2.2 o ho
  · exact hl o ho

theorem ending_emit {t : State} {o : Obs} (h : t.Before) (ho : o.plain = true) (pc : Pc) :
    ((t.emit o).goto pc).Ending :=
  ending_goto (h.append (fun o' ho' => by rw [List.mem_singleton.mp ho']; exact ho)) pc

theorem Before.send {t : State} {msg : SupervisorMsg} (h : t.Before) (hm : msg ≠ .killed) :
    (t.send cfg msg).Before := by
  refine h.append (fun o ho => ?_)
  split at ho
  · rw [List.mem_singleton.mp ho]
    cases msg <;> first | rfl | exact absurd rfl hm
  · cases ho

/-- The component is destroyed and `on_kill` runs. -/
theorem ending_kill {t : State} (h : t.Before) (hb : t.blockingFuture = none) (hk : pc.kills = true) :
    ((t.markDestroyed.emit .onKill).goto pc).Ending := by
  refine ⟨fun hp => absurd (h.1.symm.trans hp) (by decide), fun _ => h.2.1,
    .inr ⟨t.log, [.onKill], ?_, h.2.2, .killing rfl hk rfl hb h.1⟩⟩
  · exact List.append_assoc ..

/-- The component is destroyed and its supervisor is told. -/
theorem ending_end {t : State} (h : t.Before) (hb : t.blockingFuture = none) (hi : pc.idle = true) :
    ((t.setDestroyed cfg).goto pc).Ending := by
  refine ⟨fun hp => absurd (h.1.symm.trans hp) (by decide), fun _ => h.2.1,
    .inr ⟨t.log, if cfg.supervised then [.sent .killed] else [], ?_, h.2.2, ?_⟩⟩
  · exact List.append_assoc ..
  · refine .ended (fun pc' hpc' => ?_) rfl hb h.1 ⟨_, .inl rfl, fun o ho => ?_, ?_⟩
    · obtain rfl := Option.some.inj hpc'
      exact hi
    · split at ho
      · rw [List.mem_singleton.mp ho]; rfl
      · cases ho
    · split <;> decide

theorem ending_block {t : State} (h : t.Before) (tr : StateTransition) : (t.block tr n).Ending :=
  ending_goto (t := t.setFlag .blocking) h _

theorem ending_failRecoverable {t : State} (h : t.Before) : (t.failRecoverable cfg n).Ending := by
  have hb : ((t.setFlag .faulty).send cfg .faulty).Before :=
    Before.send (t := t.setFlag .faulty) h (by decide)
  exact ending_goto (t := { (t.setFlag .faulty).send cfg .faulty with leaked := t.leaked + n }) hb _

theorem ending_failUnrecoverable {t : State} (h : t.Before) (hb : t.blockingFuture = none) :
    (t.failUnrecoverable cfg n).Ending :=
  ending_end (t := { t with leaked := t.leaked + n }) h hb rfl

theorem ending_checkAndHandleBlocking {t : State} {next : Pc} (h : t.Before) (hb : t.blockingFuture = none)
    (r : HandlerResult) : (t.checkAndHandleBlocking cfg n next r).Ending := by
  cases r with
  | ok => exact ending_goto h _
  | benign => exact ending_goto h _
  | blockOn => exact ending_block h _
  | shutdown => exact ending_kill h hb rfl
  | recoverable => exact ending_failRecoverable h
  | unrecoverable => exact ending_failUnrecoverable h hb

theorem ending_decrement {t : State} (h : t.Before) (next : SchedulingDecision → Pc) :
    (t.decrement n next).Ending := by
  rcases decrement_cases t n next with he | he | ⟨-, he⟩
  · rw [he]
    exact ⟨(fun hp => absurd (h.1.symm.trans hp) (by decide)), (fun _ => h.2.1), .inl h.2.2⟩
  · rw [he]; apply ending_goto; exact h
  · rw [he]; apply ending_goto; exact h

theorem ending_enterControl (h : s.Before) (hb : s.blockingFuture = none) (ev : ControlEvent) :
    (s.enterControl n ev).Ending := by
  cases ev with
  | start => exact ending_emit (by exact h) (by rfl) _
  | stop => exact ending_emit (by exact h) (by rfl) _
  | kill => exact ending_kill h hb rfl
  | poll tag => exact ending_goto h _

theorem ending_resolve {r : Option HandlerResult} {d : SchedulingDecision} (h : s.Before)
    (hfut : (Pc.resolve r d).keepsFuture = false → s.blockingFuture = none) : (s.resolve cfg d r).Ending := by
  rcases r with _ | r
  · exact ending_goto h _
  cases r with
  | ok => exact ending_goto h _
  | benign => exact ending_goto h _
  | blockOn => apply ending_goto; exact h
  | shutdown => exact ending_kill h (hfut rfl) rfl
  | recoverable => exact ending_failRecoverable h
  | unrecoverable => exact ending_failUnrecoverable h (hfut rfl)

theorem Before.takes {t : State} {k : Nat} (h : s.Before) (ht : s.Takes k t) : t.Before := by
  have hlog : ∀ o : Obs, o.plain = true → ∀ o' ∈ s.log ++ [o], o'.plain = true := by
    intro o ho o' ho'
    rcases List.mem_append.mp ho' with ho' | ho'
    · exact h.2.2 o' ho'
    · rw [List.mem_singleton.mp ho']
      exact ho
  cases ht with
  | nothing skip => exact h
  | control hq => exact h
  | timer hq handles => exact ⟨h.1, h.2.1, hlog _ rfl⟩
  | message hq => exact ⟨h.1, h.2.1, hlog _ rfl⟩
  | port hq => exact ⟨h.1, h.2.1, hlog _ rfl⟩

theorem Before.execStep (h : s.Before) (ha : s.Awake) (hh : s.holder = some pc)
    (hs : s.execStep cfg pc = some s') : s'.Ending := by
  have hfut : pc.keepsFuture = false → s.blockingFuture = none := ha.noFuture hh
  cases executes_of_execStep hs with
  | poll hf => apply ending_goto; exact h
  | begin hf => apply ending_goto; exact h
  | loadDecision => exact ending_goto h _
  | enter => exact ending_enterControl h (hfut rfl) _
  | loop hpc hpc' ht hk => exact ending_goto (h.takes ht) _
  | timerGone hn hq hgone => apply ending_goto; exact h
  | subtract => exact ending_decrement h _
  | resolve => exact ending_resolve h hfut
  | finish => exact ending_decrement h _
  | returning => exact ⟨fun _ => rfl, fun _ => h.2.1, .inl h.2.2⟩

theorem Before.handlerReturns (h : s.Before) (ha : s.Awake) (hh : s.holder = some pc) {r : HandlerResult}
    (hs : s.handlerReturns cfg r pc = some s') : s'.Ending := by
  have hb : s.blockingFuture = none := by
    refine ha.noFuture hh ?_
    cases pc <;> first | rfl | cases hs
  have hend : ∀ k, ((s.setDestroyed cfg).drop k).Ending := fun _ => ending_failUnrecoverable h hb
  cases pc with
  | inControl ev n =>
    have hset : ((s.settle cfg ev).goto (.control (n + 1))).Ending := by
      cases ev with
      | start => exact ending_goto (h.send (by decide)) _
      | stop => exact ending_goto (Before.send (t := s.setFlag .passive) h (by decide)) _
      | kill => exact ending_end h hb rfl
      | poll tag => exact ending_goto h _
    cases r <;> obtain rfl := Option.some.inj hs
    case ok => exact hset
    case benign => exact hset
    case blockOn => exact ending_block h _
    case shutdown =>
      split
      · exact hend _
      · exact ending_kill h hb rfl
    case recoverable => exact ending_failRecoverable h
    case unrecoverable => exact hend _
  | inTimer n => obtain rfl := Option.some.inj hs; exact ending_checkAndHandleBlocking h hb r
  | inMessage n => obtain rfl := Option.some.inj hs; exact ending_checkAndHandleBlocking h hb r
  | inMoreMessage n => obtain rfl := Option.some.inj hs; exact ending_checkAndHandleBlocking h hb r
  | inPort n l =>
    cases r <;> obtain rfl := Option.some.inj hs
    case ok => exact ending_goto h _
    all_goals exact ending_checkAndHandleBlocking (t := { s with skip := l.index }) h hb _
  | inShutdown n =>
    cases r <;> obtain rfl := Option.some.inj hs
    case blockOn => exact ⟨fun _ => rfl, (fun hp => by cases hp), .inl h.2.2⟩
    all_goals exact hend _
  | _ => cases hs

theorem Polling.idle {t : StateTransition} {back : Pc} {next : HandlerResult → Pc} {r : HandlerResult}
    (hp : Polling t pc back next) (hr : r = .ok ∨ r = .benign) : (next r).idle = true := by
  cases hp with
  | start => rfl
  | blocking n => rcases hr with rfl | rfl <;> rfl

theorem Before.polled (h : s.Before) (ha : s.Awake) (hh : s.holder = some pc) {r : Option HandlerResult}
    (hs : State.polled cfg s r pc = some s') : s'.Ending := by
  have hb : s.blockingFuture = none := by
    refine ha.noFuture hh ?_
    cases pc <;> first | rfl | cases hs
  have hun : ∀ t pc', pc'.idle = true → ((s.unblock cfg t).goto pc').Ending := by
    intro t pc' hi
    cases t with
    | active => exact ending_goto (t := s.setFlag .active) h _
    | started => exact ending_goto (Before.send (t := s.setFlag .active) h (by decide)) _
    | passive => exact ending_goto (Before.send (t := s.setFlag .passive) h (by decide)) _
    | destroyed => exact ending_end h hb hi
  have hpending : ∀ t pc', (goto { s with blockingFuture := some t } pc').Ending := by
    intro t pc'
    apply ending_goto
    exact h
  cases polls_of_polled hs with
  | pending => exact hpending _ _
  | completed hp hr => exact hun _ _ (hp.idle hr)
  | shutdown => exact ending_kill h hb rfl
  | recoverable => exact ending_failRecoverable h
  | unrecoverable => exact ending_failUnrecoverable h hb
  | failed => exact ending_goto h _

/-! ## From there on -/

/-- The part of the state the phases are about; `l` is what is added to the log. -/
structure Adds (s t : State) (l : List Obs) : Prop where
  log : t.log = s.log ++ l
  poisoned : t.poisoned = s.poisoned
  panicked : t.panicked = s.panicked

/-- The component is destroyed for good, or goes on to be. -/
structure After (s : State) (before after : List Obs) : Prop where
  poisoned : s.poisoned = true → s.holder = none
  panicked : s.poisoned = false → s.panicked = []
  log : s.log = before ++ .setDestroyed :: after
  plain : ∀ o ∈ before, o.plain = true

variable {before after rest : List Obs}

theorem After.ending (h : s.After before after) {t : State} {l : List Obs} (ht : s.Adds t l)
    (hh : t.poisoned = true → t.holder = none) (hp : t.Phase (after ++ l)) : t.Ending := by
  refine ⟨hh, fun hf => ?_, .inr ⟨before, after ++ l, ?_, h.plain, hp⟩⟩
  · rw [ht.panicked]; exact h.panicked (ht.poisoned ▸ hf)
  · rw [ht.log, h.log, List.append_assoc, List.cons_append]

theorem After.mem (h : s.After before after) : .setDestroyed ∈ s.log := by
  rw [h.log]
  exact List.mem_append_right _ (List.mem_cons_self ..)

/-- `set_destroyed` at the end of `on_kill`. -/
theorem final_setDestroyed :
    Final ([.onKill] ++ ([.setDestroyed] ++ if cfg.supervised then [.sent .killed] else [])) := by
  refine ⟨_, .inr rfl, fun o ho => ?_, ?_⟩
  · rcases List.mem_cons.mp ho with rfl | ho
    · rfl
    · split at ho
      · rw [List.mem_singleton.mp ho]; rfl
      · cases ho
  · split <;> decide

theorem After.complete (h : s.After before [.onKill]) (hb : s.blockingFuture = none) (hp : s.poisoned = false)
    (hi : pc.idle = true) (k : Nat) : (goto { s.setDestroyed cfg with leaked := k } pc).Ending := by
  refine h.ending ⟨List.append_assoc .., rfl, rfl⟩ (fun hp' => absurd (hp.symm.trans hp') (by decide)) ?_
  refine .ended (fun pc' hpc' => ?_) rfl hb hp final_setDestroyed
  obtain rfl := Option.some.inj hpc'
  exact hi

theorem failing_sent : Failing (if cfg.supervised then [.sent .faulty] else []) := by
  intro o ho
  split at ho
  · rw [List.mem_singleton.mp ho]; decide
  · cases ho

theorem After.fail (h : s.After before [.onKill]) (hb : s.blockingFuture = none) (hp : s.poisoned = false) :
    (s.failRecoverable cfg n).Ending := by
  refine h.ending ⟨rfl, rfl, rfl⟩ (fun hp' => absurd (hp.symm.trans hp') (by decide)) ?_
  refine .failed (fun pc' hpc' => ?_) rfl hb hp failing_sent
  obtain rfl := Option.some.inj hpc'
  rfl

theorem After.panic (h : s.After before [.onKill]) (hb : s.blockingFuture = none)
    (hf : s.word.flag = .destroyed ∨ s.word.flag = .blocking ∨ s.word.flag = .faulty) : (s.panic n).Ending :=
  ⟨fun _ => rfl, (fun hp => by cases hp), .inr ⟨before, [.onKill], h.log, h.plain,
    .panicked hf hb rfl (fun _ ho => by cases ho)⟩⟩

/-- An executor that finds all done changes nothing. -/
theorem idle_execStep (hi : pc.idle = true) (hb : s.blockingFuture = none) (hf : s.word.flag ≠ .active)
    (hc : ∀ n, pc = .control n → ∀ ev ∈ s.ctrlQueue.head?, ev ≠ .start ∧ ev ≠ .stop ∧ ev ≠ .kill)
    (hh : s.holder = some pc) (hs : s.execStep cfg pc = some s') :
    s.Adds s' [] ∧ s'.word.flag = s.word.flag ∧ s'.blockingFuture = none ∧
      ∀ pc', s'.holder = some pc' → pc'.idle = true := by
  have hgo : ∀ {t : State} {pc' : Pc}, s.Adds t [] → t.word.flag = s.word.flag → t.blockingFuture = none →
      pc'.idle = true → s.Adds (t.goto pc') [] ∧ (t.goto pc').word.flag = s.word.flag ∧
        (t.goto pc').blockingFuture = none ∧ ∀ pc'', (t.goto pc').holder = some pc'' → pc''.idle = true := by
    intro t pc' ha hf hb hi
    refine ⟨⟨ha.log, ha.poisoned, ha.panicked⟩, hf, hb, fun pc'' hpc'' => ?_⟩
    obtain rfl := Option.some.inj hpc''
    exact hi
  have hsame : ∀ {t : State}, t.log = s.log → t.poisoned = s.poisoned → t.panicked = s.panicked → s.Adds t [] :=
    fun hl hp hq => ⟨by rw [hl, List.append_nil], hp, hq⟩
  have hdec : ∀ n (next : SchedulingDecision → Pc), (∀ d, (next d).idle = true) →
      s.Adds (s.decrement n next) [] ∧ (s.decrement n next).word.flag = s.word.flag ∧
        (s.decrement n next).blockingFuture = none ∧
        ∀ pc', (s.decrement n next).holder = some pc' → pc'.idle = true := by
    intro n next hnext
    rcases decrement_cases s n next with he | he | ⟨-, he⟩
    · rw [he]
      refine ⟨hsame rfl rfl rfl, rfl, hb, fun pc' hpc' => ?_⟩
      obtain rfl := Option.some.inj (hh.symm.trans hpc')
      exact hi
    · rw [he]; exact hgo (hsame rfl rfl rfl) rfl hb (hnext _)
    · rw [he]; exact hgo (hsame rfl rfl rfl) rfl hb (hnext _)
  cases pc with
  | begin =>
    simp only [State.execStep, hb] at hs
    obtain rfl := Option.some.inj hs
    exact hgo (hsame rfl rfl rfl) rfl rfl rfl
  | loadDecision => obtain rfl := Option.some.inj hs; exact hgo (hsame rfl rfl rfl) rfl hb rfl
  | control n =>
    simp only [State.execStep] at hs
    split at hs
    · obtain rfl := Option.some.inj hs; exact hgo (hsame rfl rfl rfl) rfl hb rfl
    · rename_i ev q hq
      obtain rfl := Option.some.inj hs
      refine hgo (hsame rfl rfl rfl) rfl hb ?_
      have hev := hc n rfl ev (by rw [hq]; rfl)
      cases ev with
      | start => exact absurd rfl hev.1
      | stop => exact absurd rfl hev.2.1
      | kill => exact absurd rfl hev.2.2
      | poll tag => rfl
  | enter ev n =>
    cases ev <;> cases hi
    obtain rfl := Option.some.inj hs
    exact hgo (hsame rfl rfl rfl) rfl hb rfl
  | activeCheck n =>
    obtain rfl := Option.some.inj hs
    rw [show s.word.isActive = false from decide_eq_false hf]
    exact hgo (hsame rfl rfl rfl) rfl hb rfl
  | subtract n r =>
    obtain rfl := Option.some.inj hs
    refine hdec n _ (fun d => ?_)
    rcases r with _ | r
    · cases hi
    · cases r <;> first | rfl | cases hi
  | resolve r d =>
    obtain rfl := Option.some.inj hs
    rcases r with _ | r
    · cases hi
    · cases r <;> first | exact hgo (hsame rfl rfl rfl) rfl hb rfl | cases hi
  | finish n => obtain rfl := Option.some.inj hs; exact hdec n _ (fun d => rfl)
  | returning d =>
    obtain rfl := Option.some.inj hs
    exact ⟨hsame rfl rfl rfl, rfl, hb, (fun pc' hpc' => by cases hpc')⟩
  | _ => first | exact absurd hi Bool.false_ne_true | exact absurd hs (Option.some_ne_none s').symm

theorem After.execStep (h : s.After before after) (hp : s.Phase after) (hh : s.holder = some pc)
    (hc : s.Settled .exec) (hs : s.execStep cfg pc = some s') : s'.Ending := by
  have hc : ∀ n, pc = .control n → ∀ ev ∈ s.ctrlQueue.head?, ev ≠ .start ∧ ev ≠ .stop ∧ ev ≠ .kill := by
    intro n hpc
    have := hc h.mem
    rw [hh, hpc] at this
    exact this
  cases hp with
  | killing hh' hk =>
    obtain rfl := Option.some.inj (hh.symm.trans hh')
    cases pc <;> first | exact absurd hk Bool.false_ne_true | exact absurd hs (Option.some_ne_none s').symm
  | blocked hh' hf hb hpo =>
    have hkeep := hh' pc hh
    have hstay : ∀ {t : State}, s.Adds t [] → t.word.flag = .blocking → t.blockingFuture = some .destroyed →
        (∀ pc', t.holder = some pc' → pc'.keepsFuture = true) → t.Ending := by
      intro t ha hf' hb' hk'
      have hpo' : t.poisoned = false := ha.poisoned.trans hpo
      exact h.ending ha (fun hp' => absurd (hpo'.symm.trans hp') (by decide)) (.blocked hk' hf' hb' hpo')
    have hsame : ∀ {t : State}, t.log = s.log → t.poisoned = s.poisoned → t.panicked = s.panicked → s.Adds t [] :=
      fun hl hp hq => ⟨by rw [hl, List.append_nil], hp, hq⟩
    have hto : ∀ {pc' : Pc}, pc'.keepsFuture = true → ∀ pc'', some pc' = some pc'' → pc''.keepsFuture = true := by
      intro pc' hk pc'' he
      obtain rfl := Option.some.inj he
      exact hk
    cases pc with
    | begin =>
      simp only [State.execStep, hb] at hs
      obtain rfl := Option.some.inj hs
      refine h.ending (l := []) ⟨by simp [goto], rfl, rfl⟩ (fun hp' => absurd (hpo.symm.trans hp') (by decide)) ?_
      exact .polling rfl rfl hf rfl hpo
    | subtract n r =>
      rcases r with _ | r
      swap
      · cases hkeep
      obtain rfl := Option.some.inj hs
      rcases decrement_cases s n (.resolve none) with he | he | ⟨-, he⟩
      · rw [he]; exact hstay (hsame rfl rfl rfl) hf hb hh'
      · rw [he]; exact hstay (hsame rfl rfl rfl) hf hb (hto rfl)
      · rw [he]; exact hstay (hsame rfl rfl rfl) hf hb (hto rfl)
    | resolve r d =>
      rcases r with _ | r
      swap
      · cases hkeep
      obtain rfl := Option.some.inj hs
      exact hstay (hsame rfl rfl rfl) hf hb (hto rfl)
    | returning d =>
      obtain rfl := Option.some.inj hs
      exact hstay (hsame rfl rfl rfl) hf hb (fun pc' hpc' => by cases hpc')
    | _ => exact absurd hkeep Bool.false_ne_true
  | polling hh' hk hf hb hpo =>
    obtain rfl := Option.some.inj (hh.symm.trans hh')
    have hstay : ∀ {t : State}, s.Adds t [] → t.word.flag = .blocking → t.blockingFuture = none →
        (∃ pc', t.holder = some pc' ∧ pc'.pollsKill = true) → t.Ending := by
      rintro t ha hf' hb' ⟨pc', hh', hk'⟩
      have hpo' : t.poisoned = false := ha.poisoned.trans hpo
      exact h.ending ha (fun hp' => absurd (hpo'.symm.trans hp') (by decide)) (.polling hh' hk' hf' hb' hpo')
    cases pc with
    | subtract n r =>
      obtain rfl := Option.some.inj hs
      have hk' : ∀ d, (Pc.resolve r d).pollsKill = true := fun d => by
        rcases r with _ | r
        · cases hk
        · cases r <;> first | rfl | cases hk
      rcases decrement_cases s n (.resolve r) with he | he | ⟨-, he⟩
      · rw [he]; exact hstay ⟨by simp, rfl, rfl⟩ hf hb ⟨_, hh, hk⟩
      · rw [he]; exact hstay ⟨by simp [goto], rfl, rfl⟩ hf hb ⟨_, rfl, hk' _⟩
      · rw [he]; exact hstay ⟨by simp [goto], rfl, rfl⟩ hf hb ⟨_, rfl, hk' _⟩
    | resolve r d =>
      rcases r with _ | r
      · cases hk
      obtain rfl := Option.some.inj hs
      cases r <;> try exact absurd hk Bool.false_ne_true
      case recoverable => exact h.fail hb hpo
      case unrecoverable => exact h.complete hb hpo rfl (s.leaked + 0)
    | pollStart t => cases hs
    | pollBlocking t n => cases hs
    | _ => cases hk
  | ended hh' hf hb hpo hq =>
    obtain ⟨ha, hf', hb', hi'⟩ :=
      idle_execStep (hh' pc hh) hb (by rw [hf]; decide) hc hh hs
    have hpo' : s'.poisoned = false := ha.poisoned.trans hpo
    refine h.ending ha (fun hp' => absurd (hpo'.symm.trans hp') (by decide)) ?_
    rw [List.append_nil]
    exact .ended hi' (hf'.trans hf) hb' hpo' hq
  | failed hh' hf hb hpo hq =>
    obtain ⟨ha, hf', hb', hi'⟩ :=
      idle_execStep (hh' pc hh) hb (by rw [hf]; decide) hc hh hs
    have hpo' : s'.poisoned = false := ha.poisoned.trans hpo
    refine h.ending ha (fun hp' => absurd (hpo'.symm.trans hp') (by decide)) ?_
    rw [List.append_nil]
    exact .failed hi' (hf'.trans hf) hb' hpo' hq
  | panicked _ _ hpo _ =>
    rw [h.poisoned hpo] at hh
    cases hh

/-- A task that neither blocks, shuts down nor fails. -/
theorem After.task (h : s.After before after) (hp : s.Phase after) {tag : Nat}
    (hh : s.holder = some (.inControl (.poll tag) n)) : (s.goto (.control (n + 1))).Ending := by
  have hadd : s.Adds (s.goto (.control (n + 1))) [] := ⟨by simp [goto], rfl, rfl⟩
  have hpc : ∀ pc', (s.goto (.control (n + 1))).holder = some pc' → pc'.idle = true := by
    intro pc' hpc'
    obtain rfl := Option.some.inj hpc'
    rfl
  have hpo : s.poisoned = false := by
    by_contra hpo
    rw [h.poisoned (by simpa using hpo)] at hh
    cases hh
  refine h.ending hadd (fun hp' => absurd (hpo.symm.trans hp') (by decide)) ?_
  rw [List.append_nil]
  cases hp with
  | killing hh' hk => obtain rfl := Option.some.inj (hh.symm.trans hh'); cases hk
  | blocked hh' => cases hh' _ hh
  | polling hh' hk => obtain rfl := Option.some.inj (hh.symm.trans hh'); cases hk
  | ended _ hf hb _ hq => exact .ended hpc hf hb hpo hq
  | failed _ hf hb _ hq => exact .failed hpc hf hb hpo hq
  | panicked _ _ hpo' _ => exact absurd (hpo.symm.trans hpo') (by decide)

theorem After.handlerReturns (h : s.After before after) (hp : s.Phase after) (hh : s.holder = some pc)
    {r : HandlerResult} (hc : s.Settled (.returns r)) (hs : s.handlerReturns cfg r pc = some s') : s'.Ending := by
  have hpoll : ∀ {tag n}, pc = .inControl (.poll tag) n → s'.Ending := by
    intro tag n hpc
    subst hpc
    have hr := hc h.mem
    rw [hh] at hr
    rcases hr with rfl | rfl <;> obtain rfl := Option.some.inj hs <;> exact h.task hp hh
  cases hp with
  | killing hh' hk hf hb hpo =>
    obtain rfl := Option.some.inj (hh.symm.trans hh')
    have hend : ∀ k, ((s.setDestroyed cfg).drop k).Ending := fun k => h.complete hb hpo rfl (s.leaked + k)
    cases pc with
    | inControl ev n =>
      cases ev <;> try exact absurd hk Bool.false_ne_true
      cases r <;> obtain rfl := Option.some.inj hs
      case ok => exact h.complete hb hpo rfl s.leaked
      case benign => exact h.complete hb hpo rfl s.leaked
      case blockOn =>
        refine h.ending (l := []) ⟨by simp [block, goto, setFlag], rfl, rfl⟩
          (fun hp' => absurd (hpo.symm.trans hp') (by decide)) ?_
        exact .polling rfl rfl rfl hb hpo
      case shutdown => exact hend _
      case recoverable => exact h.fail hb hpo
      case unrecoverable => exact hend _
    | inShutdown n =>
      cases r <;> obtain rfl := Option.some.inj hs
      case blockOn => exact h.panic hb (.inl hf)
      all_goals exact hend _
    | _ => cases hk
  | blocked hh' =>
    have := hh' pc hh
    cases pc <;> first | exact absurd this Bool.false_ne_true | exact absurd hs (Option.some_ne_none s').symm
  | polling hh' hk =>
    obtain rfl := Option.some.inj (hh.symm.trans hh')
    cases pc <;> first | exact absurd hk Bool.false_ne_true | exact absurd hs (Option.some_ne_none s').symm
  | ended hh' =>
    have hi := hh' pc hh
    cases pc with
    | inControl ev n =>
      cases ev <;> try exact absurd hi Bool.false_ne_true
      exact hpoll rfl
    | _ => first | exact absurd hi Bool.false_ne_true | exact absurd hs (Option.some_ne_none s').symm
  | failed hh' =>
    have hi := hh' pc hh
    cases pc with
    | inControl ev n =>
      cases ev <;> try exact absurd hi Bool.false_ne_true
      exact hpoll rfl
    | _ => first | exact absurd hi Bool.false_ne_true | exact absurd hs (Option.some_ne_none s').symm
  | panicked _ _ hpo _ =>
    rw [h.poisoned hpo] at hh
    cases hh

theorem Polling.destroyed {t : StateTransition} {back : Pc} {next : HandlerResult → Pc}
    (hp : Polling t pc back next) (hk : pc.pollsKill = true) : t = .destroyed := by
  cases hp <;> cases t <;> first | rfl | cases hk

theorem After.polled (h : s.After before after) (hp : s.Phase after) (hh : s.holder = some pc)
    {r : Option HandlerResult} (hs : State.polled cfg s r pc = some s') : s'.Ending := by
  cases hp with
  | killing hh' hk =>
    obtain rfl := Option.some.inj (hh.symm.trans hh')
    cases pc <;> first | exact absurd hk Bool.false_ne_true | exact absurd hs (Option.some_ne_none s').symm
  | blocked hh' =>
    have := hh' pc hh
    cases pc <;> first | exact absurd this Bool.false_ne_true | exact absurd hs (Option.some_ne_none s').symm
  | polling hh' hk hf hb hpo =>
    obtain rfl := Option.some.inj (hh.symm.trans hh')
    have hpending : ∀ {pc'}, pc'.keepsFuture = true →
        (goto { s with blockingFuture := some .destroyed } pc').Ending := by
      intro pc' hk'
      refine h.ending (l := []) ⟨by simp [goto], rfl, rfl⟩ (fun hp' => absurd (hpo.symm.trans hp') (by decide)) ?_
      refine .blocked (fun pc'' hpc'' => ?_) hf rfl hpo
      obtain rfl := Option.some.inj hpc''
      exact hk'
    have hfails : ∀ {pc'}, pc'.pollsKill = true → (s.goto pc').Ending := by
      intro pc' hk'
      refine h.ending (l := []) ⟨by simp [goto], rfl, rfl⟩ (fun hp' => absurd (hpo.symm.trans hp') (by decide)) ?_
      exact .polling rfl hk' hf hb hpo
    cases polls_of_polled hs with
    | pending hp =>
      obtain rfl := hp.destroyed hk
      cases hp <;> exact hpending rfl
    | completed hp hr =>
      obtain rfl := hp.destroyed hk
      exact h.complete hb hpo (hp.idle hr) s.leaked
    | shutdown ht => exact absurd (Polling.start.destroyed hk) ht
    | recoverable => exact h.fail hb hpo
    | unrecoverable => exact h.complete hb hpo rfl (s.leaked + 0)
    | failed hr =>
      obtain rfl := (Polling.blocking _).destroyed hk
      rcases hr with ⟨-, ht⟩ | rfl | rfl
      · exact absurd rfl ht
      · exact hfails rfl
      · exact hfails rfl
  | ended hh' =>
    have hi := hh' pc hh
    cases pc <;> first | exact absurd hi Bool.false_ne_true | exact absurd hs (Option.some_ne_none s').symm
  | failed hh' =>
    have hi := hh' pc hh
    cases pc <;> first | exact absurd hi Bool.false_ne_true | exact absurd hs (Option.some_ne_none s').symm
  | panicked _ _ hpo _ =>
    rw [h.poisoned hpo] at hh
    cases hh

theorem After.panics (h : s.After before after) (hp : s.Phase after) (hh : s.holder = some pc)
    (hu : pc.runsUserCode = true) (hc : s.Settled .panics) : (s.panic pc.dequeued).Ending := by
  have htask : ∀ {tag n}, pc ≠ .inControl (.poll tag) n := by
    intro tag n hpc
    have := hc h.mem
    rw [hh, hpc] at this
    exact this
  have hidle : pc.idle = true → False := fun hi => by
    cases pc with
    | inControl ev n =>
      cases ev <;> try exact absurd hi Bool.false_ne_true
      exact htask rfl
    | _ => first | exact absurd hi Bool.false_ne_true | exact absurd hu Bool.false_ne_true
  cases hp with
  | killing hh' hk hf hb hpo => exact h.panic hb (.inl hf)
  | blocked hh' =>
    have := hh' pc hh
    cases pc <;> first | exact absurd this Bool.false_ne_true | exact absurd hu Bool.false_ne_true
  | polling hh' hk hf hb hpo => exact h.panic hb (.inr (.inl hf))
  | ended hh' => exact (hidle (hh' pc hh)).elim
  | failed hh' => exact (hidle (hh' pc hh)).elim
  | panicked _ _ hpo _ =>
    rw [h.poisoned hpo] at hh
    cases hh

/-! ## All steps -/

/-- Steps of others leave the executor with the lock alone. -/
theorem Phase.frame {t : State} (h : s.Phase after) (hf : t.word.flag = s.word.flag)
    (hb : t.blockingFuture = s.blockingFuture) (hh : t.holder = s.holder) (hp : t.poisoned = s.poisoned) :
    t.Phase after := by
  cases h with
  | killing hh' hk hf' hb' hp' => exact .killing (hh.trans hh') hk (hf.trans hf') (hb.trans hb') (hp.trans hp')
  | blocked hh' hf' hb' hp' =>
    exact .blocked (fun pc hpc => hh' pc (hh.symm.trans hpc)) (hf.trans hf') (hb.trans hb') (hp.trans hp')
  | polling hh' hk hf' hb' hp' => exact .polling (hh.trans hh') hk (hf.trans hf') (hb.trans hb') (hp.trans hp')
  | ended hh' hf' hb' hp' hq =>
    exact .ended (fun pc hpc => hh' pc (hh.symm.trans hpc)) (hf.trans hf') (hb.trans hb') (hp.trans hp') hq
  | failed hh' hf' hb' hp' hq =>
    exact .failed (fun pc hpc => hh' pc (hh.symm.trans hpc)) (hf.trans hf') (hb.trans hb') (hp.trans hp') hq
  | panicked hf' hb' hp' hq => exact .panicked (by rw [hf]; exact hf') (hb.trans hb') (hp.trans hp') hq

theorem Ending.frame {t : State} (h : s.Ending) (hf : t.word.flag = s.word.flag)
    (hb : t.blockingFuture = s.blockingFuture) (hh : t.holder = s.holder) (hp : t.poisoned = s.poisoned)
    (hq : t.panicked = s.panicked) (hl : t.log = s.log) : t.Ending := by
  refine ⟨fun h0 => ?_, fun h0 => ?_, ?_⟩
  · rw [hh]; exact h.poisoned (hp ▸ h0)
  · rw [hq]; exact h.panicked (hp ▸ h0)
  · rw [hl]
    refine h.log.imp id ?_
    rintro ⟨before, after, hl', hpl, hph⟩
    exact ⟨before, after, hl', hpl, hph.frame hf hb hh hp⟩

/-- Before the end, or after it. -/
theorem Ending.split (h : s.Ending) (hh : s.holder = some pc) :
    s.Before ∨ ∃ before after, s.After before after ∧ s.Phase after := by
  have hp : s.poisoned = false := by
    by_contra hp
    rw [h.poisoned (by simpa using hp)] at hh
    cases hh
  rcases h.log with hl | ⟨before, after, hl, hpl, hph⟩
  · exact .inl ⟨hp, h.panicked hp, hl⟩
  · exact .inr ⟨before, after, ⟨h.poisoned, h.panicked, hl, hpl⟩, hph⟩

theorem Ending.acquire (h : s.Ending) (hh : s.holder = none) (hp : s.poisoned = false) (k : Nat) :
    State.Ending { s with locking := k, holder := some .begin } := by
  refine ⟨fun hp' => absurd (hp.symm.trans hp') (by decide), h.panicked, h.log.imp id ?_⟩
  rintro ⟨before, after, hl, hpl, hph⟩
  have hbegin : ∀ (f : Pc → Bool), f .begin = true → ∀ pc, some Pc.begin = some pc → f pc = true := by
    intro f hf pc hpc
    obtain rfl := Option.some.inj hpc
    exact hf
  refine ⟨before, after, hl, hpl, ?_⟩
  cases hph with
  | killing hh' => exact absurd (hh.symm.trans hh') (Option.some_ne_none _).symm
  | blocked _ hf hb _ => exact .blocked (hbegin _ rfl) hf hb hp
  | polling hh' => exact absurd (hh.symm.trans hh') (Option.some_ne_none _).symm
  | ended _ hf hb _ hq => exact .ended (hbegin _ rfl) hf hb hp hq
  | failed _ hf hb _ hq => exact .failed (hbegin _ rfl) hf hb hp hq
  | panicked _ _ hp' _ => exact absurd (hp.symm.trans hp') (by decide)

theorem Ending.faulted (h : s.Ending) {k : Nat} (hk : s.panicked[k]? = some n) (m : Nat)
    (ds : List SchedulingDecision) :
    ((setFlag { s with panicked := s.panicked.eraseIdx k, leaked := m, decided := ds } .faulty).send
      cfg .faulty).Ending := by
  have hp : s.poisoned = true := by
    by_contra hp
    rw [h.panicked (by simpa using hp)] at hk
    cases hk
  refine ⟨fun _ => h.poisoned hp, fun hp' => absurd (hp.symm.trans hp') (by decide), ?_⟩
  rcases h.log with hl | ⟨before, after, hl, hpl, hph⟩
  · refine .inl (fun o ho => ?_)
    rcases List.mem_append.mp ho with ho | ho
    · exact hl o ho
    · split at ho
      · rw [List.mem_singleton.mp ho]; rfl
      · cases ho
  · refine .inr ⟨before, after ++ (if cfg.supervised then [.sent .faulty] else []), ?_, hpl, ?_⟩
    · show s.log ++ _ = _
      rw [hl, List.append_assoc, List.cons_append]
    · cases hph with
      | killing _ _ _ _ hp' => exact absurd (hp.symm.trans hp') (by decide)
      | blocked _ _ _ hp' => exact absurd (hp.symm.trans hp') (by decide)
      | polling _ _ _ _ hp' => exact absurd (hp.symm.trans hp') (by decide)
      | ended _ _ _ hp' _ => exact absurd (hp.symm.trans hp') (by decide)
      | failed _ _ _ hp' _ => exact absurd (hp.symm.trans hp') (by decide)
      | panicked hf hb _ hq =>
        refine .panicked (.inr (.inr rfl)) hb hp (fun o ho => ?_)
        rcases List.mem_append.mp ho with ho | ho
        · exact hq o ho
        · exact failing_sent o ho

theorem Ending.step {a : Action} (h : s.Ending) (ha : s.Awake) (hc : s.Settled a)
    (hs : s.step cfg a = some s') : s'.Ending := by
  obtain ⟨-, hd⟩ := does_of_step hs
  cases hd with
  | @increment item d word _ hw =>
    unfold Lifecycle.incrementWork at hw
    split at hw
    · obtain ⟨-, rfl⟩ := Prod.mk.inj (Option.some.inj hw)
      exact h.frame rfl rfl rfl rfl rfl rfl
    · cases hw
  | overflow => exact h.frame rfl rfl rfl rfl rfl rfl
  | @push k item d _ _ => cases item <;> exact h.frame rfl rfl rfl rfl rfl rfl
  | finishEnqueue _ => exact h.frame rfl rfl rfl rfl rfl rfl
  | wake => exact h.frame rfl rfl rfl rfl rfl rfl
  | dispatch _ => exact h.frame rfl rfl rfl rfl rfl rfl
  | loadEnded _ _ => exact h.frame rfl rfl rfl rfl rfl rfl
  | load _ => exact h.frame rfl rfl rfl rfl rfl rfl
  | acquirePoisoned _ hh hp =>
    refine ⟨fun _ => hh, fun hp' => absurd (hp.symm.trans hp') (by decide), h.log.imp id ?_⟩
    rintro ⟨before, after, hl, hpl, hph⟩
    exact ⟨before, after, hl, hpl, hph.frame rfl rfl rfl rfl⟩
  | acquire _ hh hp => exact h.acquire hh hp _
  | exec hh hs =>
    rcases h.split hh with hb | ⟨before, after, haf, hph⟩
    · exact hb.execStep ha hh hs
    · exact haf.execStep hph hh hc hs
  | returns hh hs =>
    rcases h.split hh with hb | ⟨before, after, haf, hph⟩
    · exact hb.handlerReturns ha hh hs
    · exact haf.handlerReturns hph hh hc hs
  | polled hh hs =>
    rcases h.split hh with hb | ⟨before, after, haf, hph⟩
    · exact hb.polled ha hh hs
    · exact haf.polled hph hh hs
  | panics hh hu =>
    rcases h.split hh with hb | ⟨before, after, haf, hph⟩
    · exact ⟨fun _ => rfl, (fun hp => by cases hp), .inl hb.2.2⟩
    · exact haf.panics hph hh hu hc
  | faulted hk => exact h.faulted hk _ _
  | actSchedule _ => exact h.frame rfl rfl rfl rfl rfl rfl
  | actResume _ => exact h.frame rfl rfl rfl rfl rfl rfl
  | actNothing _ _ => exact h.frame rfl rfl rfl rfl rfl rfl
  | setHandles _ => exact h.frame rfl rfl rfl rfl rfl rfl

/-! ## No handler after the end -/

/-- No handler runs once the component was destroyed, but for the `on_kill`
begun with it; `on_kill` runs at most once, and the supervisor is told at
most once that the component was killed. -/
structure Quiet (s : State) : Prop where
  handlers : .setDestroyed ∈ s.log → ∃ before rest,
    (s.log = before ++ .setDestroyed :: rest ∨ s.log = before ++ .setDestroyed :: .onKill :: rest) ∧
      .setDestroyed ∉ before ∧ ∀ o ∈ rest, o.isHandler = false
  onKill : s.log.count .onKill ≤ 1
  killed : s.log.count (.sent .killed) ≤ 1

/-- The future of `on_kill` is kept, polled, has failed or has panicked. -/
def AwaitsKill (s : State) : Prop :=
  s.blockingFuture = some .destroyed ∨ (∃ pc, s.holder = some pc ∧ pc.pollsKill = true) ∨ s.poisoned = true

/-- A component that was destroyed stays so, unless its `on_kill` ran and did
not complete: it is blocking while `on_kill` is, and faulty if `on_kill` failed. -/
def Rests (s : State) : Prop :=
  .setDestroyed ∈ s.log → s.word.flag = .destroyed ∨
    (.onKill ∈ s.log ∧ .sent .killed ∉ s.log ∧
      ((s.word.flag = .blocking ∧ s.AwaitsKill) ∨ s.word.flag = .faulty))

theorem count_plain {o : Obs} (ho : o.plain = false) (h : ∀ o ∈ before, o.plain = true) : before.count o = 0 :=
  List.count_eq_zero.mpr (fun hm => by rw [h o hm] at ho; cases ho)

theorem Failing.final (h : Failing rest) : Final (.onKill :: rest) :=
  ⟨rest, .inr rfl, fun o ho => (h o ho).1,
    (List.count_eq_zero.mpr (fun hm => (h _ hm).2 rfl)).le.trans (Nat.zero_le 1)⟩

theorem Phase.final (h : s.Phase after) : Final after := by
  have hnil : Failing [] := fun _ ho => by cases ho
  cases h with
  | killing => exact hnil.final
  | blocked => exact hnil.final
  | polling => exact hnil.final
  | ended _ _ _ _ hq => exact hq
  | failed _ _ _ _ hq => exact hq.final
  | panicked _ _ _ hq => exact hq.final

theorem Ending.quiet (h : s.Ending) : s.Quiet := by
  rcases h.log with hl | ⟨before, after, hl, hpl, hph⟩
  · refine ⟨fun hm => absurd (hl _ hm) (by decide), ?_, ?_⟩
    · rw [count_plain rfl hl]; decide
    · rw [count_plain rfl hl]; decide
  obtain ⟨rest, hr, hh, hk⟩ := hph.final
  have hno : .onKill ∉ rest := fun hm => by have := hh _ hm; cases this
  have hbk : before.count .onKill = 0 := count_plain rfl hpl
  have hbs : before.count (.sent .killed) = 0 := count_plain rfl hpl
  refine ⟨fun _ => ⟨before, rest, ?_, fun hm => absurd (hpl _ hm) (by decide), hh⟩, ?_, ?_⟩
  · rw [hl]
    rcases hr with rfl | rfl
    · exact .inl rfl
    · exact .inr rfl
  · rw [hl, List.count_append, hbk]
    rcases hr with rfl | rfl <;> simp [List.count_eq_zero.mpr hno]
  · rw [hl, List.count_append, hbs]
    rcases hr with rfl | rfl <;> simpa [List.count_cons] using hk

theorem Failing.onKill (h : Failing rest) (hl : s.log = before ++ .setDestroyed :: .onKill :: rest)
    (hp : ∀ o ∈ before, o.plain = true) : .onKill ∈ s.log ∧ .sent .killed ∉ s.log := by
  rw [hl]
  refine ⟨by simp, fun hm => ?_⟩
  rcases List.mem_append.mp hm with hm | hm
  · exact absurd (hp _ hm) (by decide)
  · simp only [List.mem_cons, reduceCtorEq, false_or] at hm
    exact (h _ hm).2 rfl

theorem Ending.rests (h : s.Ending) : s.Rests := by
  intro hm
  have hnil : Failing [] := fun _ ho => by cases ho
  rcases h.log with hl | ⟨before, after, hl, hpl, hph⟩
  · exact absurd (hl _ hm) (by decide)
  cases hph with
  | killing _ _ hf _ _ => exact .inl hf
  | blocked _ hf hb _ =>
    obtain ⟨hon, hno⟩ := hnil.onKill hl hpl
    exact .inr ⟨hon, hno, .inl ⟨hf, .inl hb⟩⟩
  | polling hh hk hf _ _ =>
    obtain ⟨hon, hno⟩ := hnil.onKill hl hpl
    exact .inr ⟨hon, hno, .inl ⟨hf, .inr (.inl ⟨_, hh, hk⟩)⟩⟩
  | ended _ hf _ _ _ => exact .inl hf
  | failed _ hf _ _ hq =>
    obtain ⟨hon, hno⟩ := hq.onKill hl hpl
    exact .inr ⟨hon, hno, .inr hf⟩
  | panicked hf _ hp hq =>
    obtain ⟨hon, hno⟩ := hq.onKill hl hpl
    rcases hf with hf | hf | hf
    · exact .inl hf
    · exact .inr ⟨hon, hno, .inl ⟨hf, .inr (.inr hp)⟩⟩
    · exact .inr ⟨hon, hno, .inr hf⟩

end State

variable {cfg : Config} {s : State} {nPorts : Nat}

/-- In every run that takes nothing but tasks from the control queue of a
component that was destroyed, the component is quiet and rests. -/
theorem destroyed_is_terminal (h : Reach (State.step cfg) State.Settled (initial nPorts) s) :
    s.Quiet ∧ s.Rests := by
  have hinv : s.Awake ∧ s.Ending := by
    refine Reach.invariant (fun s => s.Awake ∧ s.Ending) ⟨?_, ?_⟩ ?_ h
    · exact awake_initial nPorts
    · exact ⟨fun _ => rfl, fun _ => rfl, .inl (fun o ho => by cases ho)⟩
    · exact fun ⟨ha, he⟩ hok hs => ⟨ha.step hs, he.step ha hok hs⟩
  exact ⟨hinv.2.quiet, hinv.2.rests⟩

/-- The steps up to the handler of the first of the given control events. -/
def upToHandler (evs : List ControlEvent) : List Action :=
  evs.flatMap (fun ev => [.increment (.control ev), .push 0, .finishEnqueue 0]) ++
    [.dispatch, .load, .acquire, .exec, .exec, .exec]

/-- A component is killed and polls a task that was queued behind the `Kill`. -/
theorem destroyed_is_terminal_kill_poll :
    let run := upToHandler [.kill, .poll 3] ++ [.returns .ok, .exec, .exec, .returns .ok, .exec, .exec, .exec, .exec]
    ∃ h : (runActions (State.step ⟨10, 5, true⟩) (initial 0) run).isSome,
      .setDestroyed ∈ (Option.get _ h).log ∧ (Option.get _ h).Quiet ∧ (Option.get _ h).Rests :=
  ⟨by decide, by decide, destroyed_is_terminal (Reach.of_run _ (by decide) (by decide))⟩

theorem not_quiet_of_restart {s : State}
    (h : s.log = [.setDestroyed, .onKill, .setDestroyed, .sent .killed, .onStart]) : ¬ s.Quiet := by
  intro hq
  obtain ⟨before, rest, hl, hb, hh⟩ := hq.handlers (by rw [h]; decide)
  rw [h] at hl
  rcases before with _ | ⟨b, bs⟩
  · rcases hl with hl | hl
    · exact absurd (hh .onStart (by rw [← (List.cons.inj hl).2]; decide)) (by decide)
    · exact absurd (hh .onStart (by rw [← (List.cons.inj (List.cons.inj hl).2).2]; decide)) (by decide)
  · -- the first entry is where the component was destroyed
    have hhead : b = .setDestroyed := by
      rcases hl with hl | hl
      · exact (List.cons.inj hl).1.symm
      · exact (List.cons.inj hl).1.symm
    exact hb (by rw [hhead]; exact List.mem_cons_self ..)

/-- An `on_kill` that blocks takes the component out of the destroyed state;
and a `Start` queued behind a `Kill` is handled, after which it is active. -/
theorem not_terminal_blocking_and_restarted :
    (∃ s, Reach (State.step ⟨10, 5, true⟩) (fun _ _ => True) (initial 0) s ∧
      .setDestroyed ∈ s.log ∧ s.word.flag = .blocking) ∧
    ∃ s, Reach (State.step ⟨10, 5, true⟩) (fun _ _ => True) (initial 0) s ∧
      s.log = [.setDestroyed, .onKill, .setDestroyed, .sent .killed, .onStart] ∧ s.word.flag = .active ∧ ¬ s.Quiet := by
  refine ⟨⟨_, Reach.of_run (upToHandler [.kill] ++ [.returns .blockOn]) (by decide) (runMeets_true _ _),
    by decide, by decide⟩, ?_⟩
  refine ⟨_, Reach.of_run (upToHandler [.kill, .start] ++ [.returns .ok, .exec, .exec]) (by decide)
    (runMeets_true _ _), by decide, by decide, not_quiet_of_restart (by decide)⟩

end Kompact.Component
