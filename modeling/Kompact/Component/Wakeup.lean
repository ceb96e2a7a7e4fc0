import Kompact.Component.Execute
import Kompact.Framework.ListSum

/-!
# No lost wake-up

Who schedules a component is decided from the work count before an increment
or after a subtraction. `Awake` says that a component that is active or
passive and has work is attended to: its executor has not yet decided against
another execution (`Busy`), or somebody else will see to it (`Responsible`).

An executor decides against another execution only where the count is zero, or
where the component cannot run: it is blocking while a future is kept for it,
and on the way out of a poll that was pending (`Awake.future`,
`Awake.stopped`). From then on it is the enqueuer that finds the count at zero
that schedules the component. Every step keeps this (`Awake.step`).
-/

namespace Kompact.Component

open State

/-- The decision the enqueuer holds. -/
def Enqueuer.decision : Enqueuer → SchedulingDecision
  | pushing _ d => d
  | pushed d => d

namespace Pc

/-- The executor has not decided against another execution. -/
def busy : Pc → Bool
  | returning d => d.Runs
  | resolve (some .ok) d => d ≠ .noWork
  | resolve (some .benign) d => d ≠ .noWork
  | _ => true

/-- A blocking future is being polled, or was and is pending. -/
def blocked : Pc → Bool
  | pollStart _ => true
  | pollBlocking _ _ => true
  | subtract _ none => true
  | resolve none _ => true
  | returning .blocked => true
  | _ => false

/-- A blocking future may be kept. -/
def keepsFuture : Pc → Bool
  | begin => true
  | subtract _ none => true
  | resolve none _ => true
  | returning _ => true
  | _ => false

/-- The executor holds no decision it must not return. -/
def Proper : Pc → Prop
  | resolve _ d => d = .schedule ∨ d = .noWork
  | returning d => d ≠ .alreadyScheduled
  | _ => True

end Pc

namespace State

/-- Active or passive. -/
def Runnable (s : State) : Prop := s.word.flag = .active ∨ s.word.flag = .passive

def Busy (s : State) : Prop := ∃ pc, s.holder = some pc ∧ pc.busy = true

/-- Somebody will execute the component: it is queued, an executor is on its
way, or somebody holds a decision to run it. -/
def Responsible (s : State) : Prop :=
  0 < s.queued ∨ 0 < s.starting ∨ 0 < s.locking ∨ s.panicked ≠ [] ∨ (∃ d ∈ s.decided, d.Runs) ∨
    ∃ e ∈ s.enqueuers, e.decision = .schedule

structure Awake (s : State) : Prop where
  attended : s.Runnable → 0 < s.word.count → s.Busy ∨ s.Responsible
  future : s.blockingFuture.isSome = true →
    ¬ s.Runnable ∧ ∀ pc, s.holder = some pc → pc.keepsFuture = true
  stopped : ∀ pc, s.holder = some pc → pc.blocked = true → ¬ s.Runnable
  proper : ∀ pc, s.holder = some pc → pc.Proper
  decided : ∀ d ∈ s.decided, d ≠ .alreadyScheduled

variable {cfg : Config} {s s' : State} {pc : Pc} {n : Nat}

/-! ## The executor with the lock -/

theorem awake_at {t : State} (hf : t.blockingFuture.isSome = true → ¬ t.Runnable ∧ pc.keepsFuture = true)
    (hd : ∀ d ∈ t.decided, d ≠ .alreadyScheduled)
    (hb : t.Runnable → 0 < t.word.count → pc.busy = true ∨ t.Responsible)
    (hk : pc.blocked = true → ¬ t.Runnable) (hp : pc.Proper) : (t.goto pc).Awake where
  attended h1 h2 := (hb h1 h2).imp (fun hb => ⟨pc, rfl, hb⟩) id
  future h := ⟨(hf h).1, fun pc' hpc' => by obtain rfl := Option.some.inj hpc'; exact (hf h).2⟩
  stopped pc' hpc' h := by
    obtain rfl := Option.some.inj hpc'
    exact hk h
  proper pc' hpc' := by
    obtain rfl := Option.some.inj hpc'
    exact hp
  decided := hd

/-- Going on at a place where nothing has been decided. -/
theorem awake_goto {t : State} (hf : t.blockingFuture = none) (hd : ∀ d ∈ t.decided, d ≠ .alreadyScheduled)
    (hb : pc.busy = true) (hk : pc.blocked = true → ¬ t.Runnable) (hp : pc.Proper) : (t.goto pc).Awake :=
  awake_at (fun h => by rw [hf] at h; cases h) hd (fun _ _ => .inl hb) hk hp

/-- Returning from a component that cannot run. -/
theorem awake_returning {t : State} {d : SchedulingDecision} (hd : ∀ d ∈ t.decided, d ≠ .alreadyScheduled)
    (hr : ¬ t.Runnable) (hp : d ≠ .alreadyScheduled) : (t.goto (.returning d)).Awake :=
  awake_at (fun _ => ⟨hr, rfl⟩) hd (fun h => absurd h hr) (fun _ => hr) hp

theorem not_runnable_of_flag {t : State} (f : Flag) (h : t.word.flag = f) (ha : f ≠ .active) (hp : f ≠ .passive) :
    ¬ t.Runnable := by
  rintro (hr | hr)
  · exact ha (h.symm.trans hr)
  · exact hp (h.symm.trans hr)

theorem awake_drop {t : State} (f : Flag) (hd : ∀ d ∈ t.decided, d ≠ .alreadyScheduled)
    (hf : t.word.flag = f) (ha : f ≠ .active) (hp : f ≠ .passive) : (t.drop n).Awake :=
  awake_returning (t := { t with leaked := t.leaked + n }) hd (not_runnable_of_flag f hf ha hp) (by decide)

theorem awake_checkAndHandleBlocking {next : Pc} (hf : s.blockingFuture = none)
    (hd : ∀ d ∈ s.decided, d ≠ .alreadyScheduled) (hb : next.busy = true) (hk : next.blocked = false)
    (hp : next.Proper) (r : HandlerResult) : (s.checkAndHandleBlocking cfg n next r).Awake := by
  have hnext : (s.goto next).Awake := awake_goto hf hd hb (fun h => by rw [hk] at h; cases h) hp
  cases r with
  | ok => exact hnext
  | benign => exact hnext
  | blockOn =>
    exact awake_goto (t := s.setFlag .blocking) hf hd rfl
      (fun _ => not_runnable_of_flag .blocking rfl (by decide) (by decide)) trivial
  | shutdown => exact awake_goto (t := s.markDestroyed.emit .onKill) hf hd rfl (fun h => by cases h) trivial
  | recoverable => exact awake_drop (t := (s.setFlag .faulty).send cfg .faulty) .faulty hd rfl (by decide) (by decide)
  | unrecoverable => exact awake_drop (t := s.setDestroyed cfg) .destroyed hd rfl (by decide) (by decide)

/-- After the subtraction there is work, and the decision is to schedule, or there is none. -/
theorem decrement_cases (s : State) (n : Nat) (next : SchedulingDecision → Pc) :
    s.decrement n next = { s with crashed := some .underflow } ∨
    s.decrement n next = goto { s with word := ⟨s.word.flag, s.word.count - n⟩ } (next .schedule) ∨
    (s.word.count - n = 0 ∧
      s.decrement n next = goto { s with word := ⟨s.word.flag, s.word.count - n⟩ } (next .noWork)) := by
  unfold State.decrement Lifecycle.decrementWork
  by_cases hle : n ≤ s.word.count
  · rw [if_pos hle]
    by_cases h0 : 0 < s.word.count - n
    · exact .inr (.inl (by simp only [if_pos h0]))
    · exact .inr (.inr ⟨by omega, by simp only [if_neg h0]⟩)
  · rw [if_neg hle]
    exact .inl rfl

/-- Decisions that were acted on or did not ask for an execution are gone;
whoever was responsible still is, or the one who acted has seen to it. -/
theorem Awake.others {t : State} (h : s.Awake) (hw : t.word = s.word) (hf : t.blockingFuture = s.blockingFuture)
    (hh : t.holder = s.holder) (hd : ∀ d ∈ t.decided, d ∈ s.decided ∨ d = .noWork)
    (hr : s.Runnable → s.Responsible → t.Responsible) : t.Awake := by
  have hrun : t.Runnable ↔ s.Runnable := by simp only [Runnable, hw]
  refine ⟨fun h1 h2 => ?_, fun h1 => ?_, fun pc hpc hb => ?_, fun pc hpc => ?_, fun d hd' => ?_⟩
  · rcases h.attended (hrun.mp h1) (hw ▸ h2) with hb | hres
    · exact .inl (by unfold Busy at *; rw [hh]; exact hb)
    · exact .inr (hr (hrun.mp h1) hres)
  · rw [hrun, hh]; exact h.future (hf ▸ h1)
  · rw [hrun]; exact h.stopped pc (hh ▸ hpc) hb
  · exact h.proper pc (hh ▸ hpc)
  · rcases hd d hd' with hd' | rfl
    · exact h.decided d hd'
    · decide

/-- Nothing that matters here has changed. -/
theorem Awake.frame {t : State} (h : s.Awake) (hw : t.word = s.word) (hf : t.blockingFuture = s.blockingFuture)
    (hh : t.holder = s.holder) (hd : t.decided = s.decided) (hr : s.Responsible → t.Responsible) : t.Awake :=
  h.others hw hf hh (fun _ hd' => .inl (hd ▸ hd')) (fun _ => hr)

/-- The subtraction on the way out of a blocking future. -/
theorem Awake.subtract {r : Option HandlerResult} (h : s.Awake) (hh : s.holder = some (.subtract n r)) :
    (s.decrement n (.resolve r)).Awake := by
  have hf : s.blockingFuture.isSome = true → ¬ s.Runnable ∧ ∀ d, (Pc.resolve r d).keepsFuture = true := fun hsome => by
    obtain ⟨hr, hk⟩ := h.future hsome
    refine ⟨hr, fun d => ?_⟩
    have := hk _ hh
    cases r with
    | none => rfl
    | some r => cases this
  have hk : ∀ d, (Pc.resolve r d).blocked = true → ¬ s.Runnable := fun d hb => by
    cases r with
    | none => exact h.stopped _ hh rfl
    | some r => cases hb
  rcases decrement_cases s n (.resolve r) with he | he | ⟨h0, he⟩
  · rw [he]; exact h.frame rfl rfl rfl rfl id
  · rw [he]
    refine awake_at (fun hsome => ⟨(hf hsome).1, (hf hsome).2 _⟩) h.decided (fun _ _ => .inl ?_) (hk _) (.inl rfl)
    rcases r with _ | r
    · rfl
    · cases r <;> rfl
  · rw [he]
    refine awake_at (fun hsome => ⟨(hf hsome).1, (hf hsome).2 _⟩) h.decided (fun _ hc => ?_) (hk _) (.inr rfl)
    exact absurd (show 0 < s.word.count - n from hc) (by omega)

/-- The subtraction at the end of an execution. -/
theorem Awake.finish (h : s.Awake) (hf : s.blockingFuture = none) :
    (s.decrement n .returning).Awake := by
  rcases decrement_cases s n .returning with he | he | ⟨h0, he⟩
  · rw [he]; exact h.frame rfl rfl rfl rfl id
  · rw [he]
    exact awake_goto hf h.decided rfl (fun h => by cases h)
      (show SchedulingDecision.schedule ≠ .alreadyScheduled by decide)
  · rw [he]
    refine awake_at (fun hsome => ?_) h.decided (fun _ hc => ?_) (fun h => by cases h)
      (show SchedulingDecision.noWork ≠ .alreadyScheduled by decide)
    · rw [show (State.blockingFuture _) = none from hf] at hsome
      cases hsome
    · exact absurd (show 0 < s.word.count - n from hc) (by omega)

theorem Awake.resolve {r : Option HandlerResult} {d : SchedulingDecision} (h : s.Awake)
    (hh : s.holder = some (.resolve r d)) (hfut : (Pc.resolve r d).keepsFuture = false → s.blockingFuture = none) :
    (s.resolve cfg d r).Awake := by
  have hd := h.decided
  rcases r with _ | r
  · exact awake_returning hd (h.stopped _ hh rfl) (by decide)
  have hdone : (Pc.resolve (some r) d).busy = (decide (d ≠ .noWork)) →
      (s.goto (.returning (SchedulingDecision.noWork.orUse d))).Awake := by
    intro hbusy
    rcases h.proper _ hh with rfl | rfl
    · exact awake_goto (hfut rfl) hd rfl (fun h => by cases h)
        (show SchedulingDecision.resume ≠ .alreadyScheduled by decide)
    · -- it was not busy: somebody else is responsible
      refine awake_at (fun hs => by rw [hfut rfl] at hs; cases hs) hd (fun h1 h2 => .inr ?_)
        (fun h => by cases h) (show SchedulingDecision.noWork ≠ .alreadyScheduled by decide)
      refine (h.attended h1 h2).resolve_left ?_
      rintro ⟨pc, hpc, hb⟩
      rw [hh] at hpc
      obtain rfl := Option.some.inj hpc
      rw [hbusy] at hb
      cases hb
  cases r with
  | ok => exact hdone rfl
  | benign => exact hdone rfl
  | blockOn =>
    exact awake_returning (t := { s.setFlag .blocking with blockingFuture := some .active }) hd
      (not_runnable_of_flag .blocking rfl (by decide) (by decide)) (by decide)
  | shutdown =>
    exact awake_goto (t := s.markDestroyed.emit .onKill) (hfut rfl) hd rfl (fun h => by cases h) trivial
  | recoverable => exact awake_drop (t := (s.setFlag .faulty).send cfg .faulty) .faulty hd rfl (by decide) (by decide)
  | unrecoverable => exact awake_drop (t := s.setDestroyed cfg) .destroyed hd rfl (by decide) (by decide)

/-- The lock is released: what was decided is still to be acted on. -/
theorem Awake.release {d : SchedulingDecision} (h : s.Awake) (hh : s.holder = some (.returning d)) :
    State.Awake { s with holder := none, decided := d :: s.decided } := by
  refine ⟨fun h1 h2 => .inr ?_, fun hs => ⟨(h.future hs).1, fun pc hpc => by cases hpc⟩, (fun pc hpc => by cases hpc),
    (fun pc hpc => by cases hpc), fun d' hd' => ?_⟩
  · rcases h.attended h1 h2 with ⟨pc, hpc, hb⟩ | hq | hq | hq | hq | ⟨d', hd', hr⟩ | hq
    · rw [hh] at hpc
      obtain rfl := Option.some.inj hpc
      exact .inr (.inr (.inr (.inr (.inl ⟨d, List.mem_cons_self .., of_decide_eq_true hb⟩))))
    · exact .inl hq
    · exact .inr (.inl hq)
    · exact .inr (.inr (.inl hq))
    · exact .inr (.inr (.inr (.inl hq)))
    · exact .inr (.inr (.inr (.inr (.inl ⟨d', List.mem_cons_of_mem _ hd', hr⟩))))
    · exact .inr (.inr (.inr (.inr (.inr hq))))
  · rcases List.mem_cons.mp hd' with rfl | hd'
    · exact h.proper _ hh
    · exact h.decided d' hd'

theorem Awake.noFuture (h : s.Awake) (hh : s.holder = some pc) (hk : pc.keepsFuture = false) :
    s.blockingFuture = none := by
  by_contra hne
  have := (h.future (Option.isSome_iff_ne_none.mpr hne)).2 pc hh
  rw [hk] at this
  cases this

theorem awake_enterControl (hf : s.blockingFuture = none) (hd : ∀ d ∈ s.decided, d ≠ .alreadyScheduled)
    (ev : ControlEvent) : (s.enterControl n ev).Awake := by
  cases ev with
  | start => exact awake_goto (t := (s.setFlag .active).emit .onStart) hf hd rfl (fun h => by cases h) trivial
  | stop => exact awake_goto (t := (s.setFlag .passive).emit .onStop) hf hd rfl (fun h => by cases h) trivial
  | kill => exact awake_goto (t := s.markDestroyed.emit .onKill) hf hd rfl (fun h => by cases h) trivial
  | poll tag => exact awake_goto hf hd rfl (fun h => by cases h) trivial

/-- A component that can run resumes, whatever its count. -/
theorem Awake.loadDecision (h : s.Awake) (hf : s.blockingFuture = none) :
    (s.goto (.returning (SchedulingDecision.noWork.orUse s.word.intoSchedulingDecision))).Awake := by
  by_cases hr : s.Runnable
  · have hdec : SchedulingDecision.noWork.orUse s.word.intoSchedulingDecision = .resume := by
      unfold Lifecycle.intoSchedulingDecision
      rcases hr with hr | hr <;> rw [hr] <;> simp only <;> split <;> rfl
    rw [hdec]
    exact awake_goto hf h.decided rfl (fun h => by cases h)
      (show SchedulingDecision.resume ≠ .alreadyScheduled by decide)
  · refine awake_returning h.decided hr ?_
    unfold Lifecycle.intoSchedulingDecision
    split <;> first | decide | (split <;> decide)

theorem inLoop_undecided (h : pc.inLoop = true) :
    pc.busy = true ∧ pc.blocked = false ∧ pc.keepsFuture = false ∧ pc.Proper := by
  cases pc <;> first | exact ⟨rfl, rfl, rfl, trivial⟩ | cases h

theorem Awake.execStep (h : s.Awake) (hh : s.holder = some pc) (hs : s.execStep cfg pc = some s') :
    s'.Awake := by
  have hd := h.decided
  have hfut : pc.keepsFuture = false → s.blockingFuture = none := h.noFuture hh
  cases executes_of_execStep hs with
  | poll hf =>
    exact awake_goto (t := { s with blockingFuture := none, startedBlocking := true }) rfl hd rfl
      (fun _ => (h.future (by rw [hf]; rfl)).1) trivial
  | begin hf =>
    exact awake_goto (t := { s with startedBlocking := false }) hf hd rfl (fun h => by cases h) trivial
  | loadDecision => exact h.loadDecision (hfut rfl)
  | enter => exact awake_enterControl (hfut rfl) hd _
  | loop hpc hpc' ht hk =>
    obtain ⟨hbusy, hblocked, -, hproper⟩ := inLoop_undecided hpc'
    obtain ⟨-, -, hkeeps, -⟩ := inLoop_undecided hpc
    refine awake_goto (ht.keeps.blockingFuture.trans (hfut hkeeps)) ?_ hbusy (fun h => ?_) hproper
    · rw [ht.keeps.decided]
      exact hd
    · rw [hblocked] at h
      cases h
  | timerGone hn hq hgone =>
    exact awake_goto (t := { s with timerQueue := _, leaked := _ }) (hfut rfl) hd rfl (fun h => by cases h) trivial
  | subtract => exact h.subtract hh
  | resolve => exact h.resolve hh hfut
  | finish => exact h.finish (hfut rfl)
  | returning => exact h.release hh

theorem awake_panic {t : State} (hf : t.blockingFuture = none) (hd : ∀ d ∈ t.decided, d ≠ .alreadyScheduled) :
    (t.panic n).Awake where
  attended _ _ := .inr (.inr (.inr (.inr (.inl (List.cons_ne_nil _ _)))))
  future h := by
    rw [show (t.panic n).blockingFuture = none from hf] at h
    cases h
  stopped pc' hpc' := by cases hpc'
  proper pc' hpc' := by cases hpc'
  decided := hd

theorem Awake.handlerReturns (h : s.Awake) (hh : s.holder = some pc) {r : HandlerResult}
    (hs : s.handlerReturns cfg r pc = some s') : s'.Awake := by
  have hd := h.decided
  have hf : s.blockingFuture = none := by
    refine h.noFuture hh ?_
    cases pc <;> first | rfl | cases hs
  have hend : ∀ k, ((s.setDestroyed cfg).drop k).Awake :=
    fun _ => awake_drop (t := s.setDestroyed cfg) .destroyed hd rfl (by decide) (by decide)
  cases pc with
  | inControl ev n =>
    have hset : ((s.settle cfg ev).goto (.control (n + 1))).Awake := by
      cases ev with
      | start => exact awake_goto (t := s.send cfg .started) hf hd rfl (fun h => by cases h) trivial
      | stop => exact awake_goto (t := s.setPassive cfg) hf hd rfl (fun h => by cases h) trivial
      | kill => exact awake_goto (t := s.setDestroyed cfg) hf hd rfl (fun h => by cases h) trivial
      | poll tag => exact awake_goto hf hd rfl (fun h => by cases h) trivial
    cases r <;> obtain rfl := Option.some.inj hs
    case ok => exact hset
    case benign => exact hset
    case blockOn =>
      exact awake_goto (t := s.setFlag .blocking) hf hd rfl
        (fun _ => not_runnable_of_flag .blocking rfl (by decide) (by decide)) trivial
    case shutdown =>
      split
      · exact hend _
      · exact awake_goto (t := s.markDestroyed.emit .onKill) hf hd rfl (fun h => by cases h) trivial
    case recoverable =>
      exact awake_drop (t := (s.setFlag .faulty).send cfg .faulty) .faulty hd rfl (by decide) (by decide)
    case unrecoverable => exact hend _
  | inTimer n => obtain rfl := Option.some.inj hs; exact awake_checkAndHandleBlocking hf hd rfl rfl (by trivial) r
  | inMessage n => obtain rfl := Option.some.inj hs; exact awake_checkAndHandleBlocking hf hd rfl rfl (by trivial) r
  | inMoreMessage n =>
    obtain rfl := Option.some.inj hs; exact awake_checkAndHandleBlocking hf hd rfl rfl (by trivial) r
  | inPort n l =>
    cases r <;> obtain rfl := Option.some.inj hs
    case ok => exact awake_goto hf hd rfl (fun h => by cases h) trivial
    all_goals exact awake_checkAndHandleBlocking (s := { s with skip := l.index }) hf hd rfl rfl (by trivial) _
  | inShutdown n =>
    cases r <;> obtain rfl := Option.some.inj hs
    case blockOn => exact awake_panic hf hd
    all_goals exact hend _
  | _ => cases hs

theorem Awake.polled (h : s.Awake) (hh : s.holder = some pc) {r : Option HandlerResult}
    (hs : State.polled cfg s r pc = some s') : s'.Awake := by
  have hd := h.decided
  have hf : s.blockingFuture = none := by
    refine h.noFuture hh ?_
    cases pc <;> first | rfl | cases hs
  have hun : ∀ t pc', pc'.busy = true → pc'.blocked = false → pc'.Proper → ((s.unblock cfg t).goto pc').Awake := by
    intro t pc' hb hbl hp
    have hk : ∀ u : State, pc'.blocked = true → ¬ u.Runnable := fun u h => by rw [hbl] at h; cases h
    cases t with
    | active => exact awake_goto (t := s.setFlag .active) hf hd hb (hk _) hp
    | started => exact awake_goto (t := (s.setFlag .active).send cfg .started) hf hd hb (hk _) hp
    | passive => exact awake_goto (t := s.setPassive cfg) hf hd hb (hk _) hp
    | destroyed => exact awake_goto (t := s.setDestroyed cfg) hf hd hb (hk _) hp
  cases polls_of_polled hs with
  | pending hp =>
    cases hp with
    | start => exact awake_returning (t := { s with blockingFuture := some _ }) hd (h.stopped _ hh rfl) (by decide)
    | blocking n =>
      have hr := h.stopped _ hh rfl
      exact awake_at (t := { s with blockingFuture := some _ }) (fun _ => ⟨hr, rfl⟩) hd (fun h => absurd h hr)
        (fun _ => hr) trivial
  | completed hp => cases hp <;> exact hun _ _ rfl rfl trivial
  | shutdown => exact awake_goto (t := s.markDestroyed.emit .onKill) hf hd rfl (fun h => by cases h) trivial
  | recoverable => exact awake_drop (t := (s.setFlag .faulty).send cfg .faulty) .faulty hd rfl (by decide) (by decide)
  | unrecoverable => exact awake_drop (t := s.setDestroyed cfg) .destroyed hd rfl (by decide) (by decide)
  | failed => exact awake_goto hf hd rfl (fun h => by cases h) trivial

/-! ## All steps -/

/-- An enqueuer that finds no work is the one to schedule the component. -/
theorem Awake.increment {item : Item} {d : SchedulingDecision} {word : Lifecycle} (h : s.Awake)
    (hw : s.word.incrementWork = some (d, word)) :
    State.Awake { s with word, enqueuers := .pushing item d :: s.enqueuers } := by
  unfold Lifecycle.incrementWork at hw
  split at hw
  swap
  · cases hw
  obtain ⟨rfl, rfl⟩ := Prod.mk.inj (Option.some.inj hw)
  refine ⟨fun h1 _ => ?_, h.future, h.stopped, h.proper, h.decided⟩
  by_cases h0 : s.word.count = 0
  · have hd : s.word.intoSchedulingDecision = .schedule := by
      unfold Lifecycle.intoSchedulingDecision
      rcases h1 with h1 | h1
      · rw [show s.word.flag = .active from h1]; exact if_pos h0
      · rw [show s.word.flag = .passive from h1]; exact if_pos h0
    exact .inr (.inr (.inr (.inr (.inr (.inr ⟨_, List.mem_cons_self .., hd⟩)))))
  · rcases h.attended h1 (Nat.pos_of_ne_zero h0) with hb | hq | hq | hq | hq | hq | ⟨e, he, hde⟩
    · exact .inl hb
    · exact .inr (.inl hq)
    · exact .inr (.inr (.inl hq))
    · exact .inr (.inr (.inr (.inl hq)))
    · exact .inr (.inr (.inr (.inr (.inl hq))))
    · exact .inr (.inr (.inr (.inr (.inr (.inl hq)))))
    · exact .inr (.inr (.inr (.inr (.inr (.inr ⟨e, List.mem_cons_of_mem _ he, hde⟩)))))

/-- The item of an enqueuer is pushed: the decision is still held. -/
theorem Awake.push {k : Nat} {item : Item} {d : SchedulingDecision} (h : s.Awake)
    (hk : s.enqueuers[k]? = some (.pushing item d)) :
    (State.pushItem { s with enqueuers := s.enqueuers.set k (.pushed d) } item).Awake := by
  have hlt : k < s.enqueuers.length := (List.getElem?_eq_some_iff.mp hk).1
  have hmem : (∃ e ∈ s.enqueuers, e.decision = .schedule) →
      ∃ e ∈ s.enqueuers.set k (.pushed d), e.decision = .schedule := by
    rintro ⟨e, he, hd⟩
    by_cases hde : e = .pushing item d
    · subst hde
      exact ⟨.pushed d, List.mem_set hlt _, hd⟩
    · have hrest := mem_eraseIdx_of_ne he hk hde
      rw [List.eraseIdx_eq_take_drop_succ] at hrest
      refine ⟨e, ?_, hd⟩
      rw [List.set_eq_take_append_cons_drop, if_pos hlt, List.mem_append, List.mem_cons]
      rcases List.mem_append.mp hrest with hl | hr
      · exact .inl hl
      · exact .inr (.inr hr)
  have hres : s.Responsible →
      (State.pushItem { s with enqueuers := s.enqueuers.set k (.pushed d) } item).Responsible := by
    unfold Responsible
    cases item <;> exact Or.imp_right (Or.imp_right (Or.imp_right (Or.imp_right (Or.imp_right hmem))))
  cases item <;> exact h.frame rfl rfl rfl rfl hres

theorem Awake.step {a : Action} (h : s.Awake) (hs : s.step cfg a = some s') : s'.Awake := by
  obtain ⟨-, hd⟩ := does_of_step hs
  cases hd with
  | increment _ hw => exact h.increment hw
  | overflow => exact h.frame rfl rfl rfl rfl id
  | push hk _ => exact h.push hk
  | @finishEnqueue k d hk =>
    refine h.frame rfl rfl rfl rfl ?_
    by_cases hd : d = .schedule
    · exact fun _ => .inl (by rw [if_pos hd]; exact Nat.succ_pos _)
    · rw [if_neg hd]
      refine Or.imp_right (Or.imp_right (Or.imp_right (Or.imp_right (Or.imp_right ?_))))
      rintro ⟨e, he, hde⟩
      exact ⟨e, mem_eraseIdx_of_ne he hk (fun hne => hd (by rw [← hde, hne]; rfl)), hde⟩
  | wake => exact h.frame rfl rfl rfl rfl (fun _ => .inl (Nat.succ_pos _))
  | dispatch _ => exact h.frame rfl rfl rfl rfl (fun _ => .inr (.inl (Nat.succ_pos _)))
  | loadEnded _ hf =>
    refine h.others rfl rfl rfl (fun d hd' => (List.mem_cons.mp hd').symm) (fun hr => ?_)
    rcases hf with hf | hf
    · exact absurd hr (not_runnable_of_flag _ hf (by decide) (by decide))
    · exact absurd hr (not_runnable_of_flag _ hf (by decide) (by decide))
  | load _ => exact h.frame rfl rfl rfl rfl (fun _ => .inr (.inr (.inl (Nat.succ_pos _))))
  | acquirePoisoned _ _ _ =>
    exact h.frame rfl rfl rfl rfl (fun _ => .inr (.inr (.inr (.inl (List.cons_ne_nil _ _)))))
  | acquire _ hh _ =>
    exact awake_at (t := { s with locking := s.locking - 1 }) (fun hs => ⟨(h.future hs).1, rfl⟩) h.decided
      (fun _ _ => .inl rfl) (fun h => by cases h) trivial
  | exec hh hs => exact h.execStep hh hs
  | returns hh hs => exact h.handlerReturns hh hs
  | polled hh hs => exact h.polled hh hs
  | @panics pc hh hu =>
    refine awake_panic (h.noFuture hh ?_) h.decided
    cases pc <;> first | rfl | cases hu
  | faulted _ =>
    have hr : ¬ State.Runnable (s.setFlag .faulty) := not_runnable_of_flag .faulty rfl (by decide) (by decide)
    refine ⟨fun h1 => absurd h1 hr, fun hs => ⟨hr, (h.future hs).2⟩, fun _ _ _ => hr, h.proper, fun d hd' => ?_⟩
    rcases List.mem_cons.mp hd' with rfl | hd'
    · decide
    · exact h.decided d hd'
  | actSchedule _ =>
    exact h.others rfl rfl rfl (fun d hd' => .inl (List.mem_of_mem_eraseIdx hd'))
      (fun _ _ => .inl (Nat.succ_pos _))
  | actResume _ =>
    exact h.others rfl rfl rfl (fun d hd' => .inl (List.mem_of_mem_eraseIdx hd'))
      (fun _ _ => .inr (.inl (Nat.succ_pos _)))
  | actNothing hk hd =>
    refine h.others rfl rfl rfl (fun d hd' => .inl (List.mem_of_mem_eraseIdx hd')) (fun _ => ?_)
    refine Or.imp_right (Or.imp_right (Or.imp_right (Or.imp_right (Or.imp_left ?_))))
    rintro ⟨d', hd', hr⟩
    exact ⟨d', mem_eraseIdx_of_ne hd' hk (fun he => hd (he ▸ hr)), hr⟩
  | setHandles _ => exact h.frame rfl rfl rfl rfl id

/-! ## Queued work is executed -/

/-- An executor has been handed the component and has not returned. -/
def Executing (s : State) : Prop :=
  0 < s.starting ∨ 0 < s.locking ∨ s.holder ≠ none ∨ s.panicked ≠ []

/-- Somebody has decided that the component is to run and not acted on it. -/
def DecisionHeld (s : State) : Prop :=
  (∃ e ∈ s.enqueuers, e.decision.Runs) ∨ ∃ d ∈ s.decided, d.Runs

theorem Responsible.attended (h : s.Responsible) : 0 < s.queued ∨ s.Executing ∨ s.DecisionHeld := by
  rcases h with hq | hq | hq | hq | hq | ⟨e, he, hd⟩
  · exact .inl hq
  · exact .inr (.inl (.inl hq))
  · exact .inr (.inl (.inr (.inl hq)))
  · exact .inr (.inl (.inr (.inr (.inr hq))))
  · exact .inr (.inr (.inr hq))
  · exact .inr (.inr (.inl ⟨e, he, .inl hd⟩))

end State

variable {cfg : Config} {s : State} {nPorts : Nat}

theorem awake_initial (nPorts : Nat) : (initial nPorts).Awake :=
  ⟨fun _ h0 => absurd h0 (Nat.lt_irrefl 0), (fun hs => by cases hs), (fun pc hpc => by cases hpc),
    (fun pc hpc => by cases hpc), fun d hd => by cases hd⟩

/-- In every reachable state a component that can run and has work is queued,
or executing, or somebody holds a decision to run it; and no execution ever
returns that the component was already scheduled. -/
theorem no_lost_wakeup (h : Reach (State.step cfg) (fun _ _ => True) (initial nPorts) s) :
    (s.Runnable → 0 < s.word.count → 0 < s.queued ∨ s.Executing ∨ s.DecisionHeld) ∧
      s.holder ≠ some (.returning .alreadyScheduled) ∧ .alreadyScheduled ∉ s.decided := by
  have hinv : s.Awake := Reach.invariant State.Awake (awake_initial nPorts) (fun h _ hs => h.step hs) h
  refine ⟨fun h1 h2 => ?_, fun hh => hinv.proper _ hh rfl, fun hd => hinv.decided _ hd rfl⟩
  rcases hinv.attended h1 h2 with ⟨pc, hpc, -⟩ | hres
  · exact .inr (.inl (.inr (.inr (.inl (by rw [hpc]; exact Option.some_ne_none _)))))
  · exact hres.attended

/-- A message arrives while an execution that found no work is on its way out:
its enqueuer holds the decision to schedule the component. -/
theorem no_lost_wakeup_late_message :
    let run : List Action := [.increment (.control .start), .push 0, .finishEnqueue 0, .dispatch, .load, .acquire,
      .exec, .exec, .exec, .returns .ok, .exec, .exec, .exec, .exec, .exec, .exec, .exec, .exec, .exec,
      .increment (.message 7)]
    ∃ h : (runActions (State.step ⟨10, 5, true⟩) (initial 0) run).isSome,
      (Option.get _ h).holder = some (.returning .noWork) ∧ (Option.get _ h).Runnable ∧
        0 < (Option.get _ h).word.count ∧
        (0 < (Option.get _ h).queued ∨ (Option.get _ h).Executing ∨ (Option.get _ h).DecisionHeld) := by
  refine ⟨by decide, by decide, .inl (by decide), by decide, ?_⟩
  exact (no_lost_wakeup (Reach.of_run _ (by decide) (runMeets_true _ _))).1 (.inl (by decide)) (by decide)

end Kompact.Component
