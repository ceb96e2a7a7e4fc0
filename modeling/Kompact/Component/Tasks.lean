import Kompact.Component.Mailbox

/-!
# Tasks that do not block

`spawn_local` keeps a future with the component and wakes it once. Whoever
wakes it later enqueues a control event with its tag, and the executor polls
the future when it comes to the event; when it is complete it is removed.

A wake is due until a poll of the future begins.

* `Requested`: a future whose wake is due has its event in the control queue, or
  the event is still to be pushed, or the executor has just taken it;
* `wakes_polled`: in every run no future is polled once it is complete, and none
  is left with a wake due when all is at rest and the component can run.
-/

namespace Kompact.Component

open State

/-- What happened to a future. -/
inductive TaskObs where
  | spawned (tag : Nat)
  | woken (tag : Nat)
  | polled (tag : Nat)
  | completed (tag : Nat)
  deriving DecidableEq, Repr

/-- A component with its futures that do not block. -/
structure Tasks where
  state : State
  nonBlockingFutures : List Nat
  log : List TaskObs
  deriving DecidableEq, Repr

inductive TaskAction where
  /-- Anything that has nothing to do with the futures. -/
  | component (a : Action)
  | spawnLocal (tag : Nat)
  | wake (tag : Nat)
  /-- `run_nonblocking_task` returns; `none` is a pending future, or one that is not there. -/
  | runTask (r : Option HandlerResult)
  deriving DecidableEq, Repr

namespace Tasks

def initial (nPorts : Nat) : Tasks := ⟨Component.initial nPorts, [], []⟩

/-- The future that the executor begins to poll. -/
def polls (t : Tasks) : Action → List TaskObs
  | .exec =>
    match t.state.holder with
    | some (.enter (.poll tag) _) => if tag ∈ t.nonBlockingFutures then [.polled tag] else []
    | _ => []
  | _ => []

/-- An action of the component that is not one of the futures'. -/
def isOther (t : Tasks) : Action → Bool
  | .increment (.control (.poll _)) => false
  | .returns _ =>
    match t.state.holder with
    | some (.inControl (.poll _) _) => false
    | _ => true
  | _ => true

/-- The definition can be used: a handler runs, or nobody has the lock. -/
def accessible (t : Tasks) : Bool := t.state.holder.all Pc.runsUserCode

/-- One step. Tags are unique. -/
def step (cfg : Config) (t : Tasks) : TaskAction → Option Tasks
  | .component a =>
    if t.isOther a then
      (t.state.step cfg a).map fun state => ⟨state, t.nonBlockingFutures, t.log ++ t.polls a⟩
    else none
  | .spawnLocal tag =>
    if t.accessible ∧ .spawned tag ∉ t.log then
      (t.state.step cfg (.increment (.control (.poll tag)))).map fun state =>
        ⟨state, tag :: t.nonBlockingFutures, t.log ++ [.spawned tag, .woken tag]⟩
    else none
  | .wake tag =>
    if .spawned tag ∈ t.log then
      (t.state.step cfg (.increment (.control (.poll tag)))).map fun state =>
        ⟨state, t.nonBlockingFutures, t.log ++ [.woken tag]⟩
    else none
  | .runTask r =>
    match t.state.holder with
    | some (.inControl (.poll tag) _) =>
      match r with
      | none => (t.state.step cfg (.returns .ok)).map fun state => { t with state }
      | some r =>
        if tag ∈ t.nonBlockingFutures then
          (t.state.step cfg (.returns r)).map fun state =>
            ⟨state, t.nonBlockingFutures.erase tag, t.log ++ [.completed tag]⟩
        else none
    | _ => none

end Tasks

/-- A wake of the future after the last poll of it began. -/
def WakeDue (tag : Nat) (log : List TaskObs) : Prop :=
  ∃ before after, log = before ++ .woken tag :: after ∧ .polled tag ∉ after

/-- The event of a future is on its way to the executor, or just taken. -/
def State.Requested (s : State) (tag : Nat) : Prop :=
  .control (.poll tag) ∈ s.queueOf .control ∨ .control (.poll tag) ∈ s.pendingItems ∨
    ∃ n, s.holder = some (.enter (.poll tag) n)

namespace State

variable {cfg : Config} {s s' : State} {tag : Nat}

/-- Only the executor leaves the place where a control event was taken. -/
theorem holder_enter {a : Action} {ev : ControlEvent} {n : Nat} (ha : a ≠ .exec)
    (hh : s.holder = some (.enter ev n)) (h : s.step cfg a = some s') : s'.holder = some (.enter ev n) := by
  cases (does_of_step h).2 with
  | exec hh' hrun => exact absurd rfl ha
  | returns hh' hrun =>
    obtain rfl := Option.some.inj (hh.symm.trans hh')
    cases hrun
  | polled hh' hrun =>
    obtain rfl := Option.some.inj (hh.symm.trans hh')
    cases hrun
  | acquirePoisoned hl hh' hp => rw [hh] at hh'; cases hh'
  | acquire hl hh' hp => rw [hh] at hh'; cases hh'
  | panics hh' hu =>
    obtain rfl := Option.some.inj (hh.symm.trans hh')
    cases hu
  | @push k item d hk hacc => cases item <;> exact hh
  | _ => exact hh

/-- What the executor takes from the control queue it enters next. -/
theorem enter_of_pops {pc : Pc} {ev : ControlEvent} (hm : .control ev ∈ s.pops cfg pc)
    (h : s.execStep cfg pc = some s') : ∃ n, s'.holder = some (.enter ev n) := by
  have hother : ∀ q, q ≠ .control → .control ev ∉ (s.queueOf q).take 1 := by
    intro q hq hmem
    have hmem := List.mem_of_mem_take hmem
    cases q with
    | control => exact hq rfl
    | message | timeout | port i =>
      obtain ⟨x, -, hx⟩ := List.mem_map.mp hmem
      cases hx
  cases pc with
  | control n =>
    rw [pops, queueOf] at hm
    simp only [execStep] at h
    split at h
    · rename_i hq
      rw [hq] at hm
      cases hm
    · rename_i ev' ctrlQueue hq
      rw [hq] at hm
      obtain rfl : ev = ev' := Item.control.inj (List.mem_singleton.mp hm)
      obtain rfl := Option.some.inj h
      exact ⟨n, rfl⟩
  | timers n | messages n | moreMessages n =>
    rw [pops] at hm
    split at hm
    · exact absurd hm (hother _ (by decide))
    · cases hm
  | ports n l =>
    rw [pops] at hm
    split at hm
    · cases hm
    · exact absurd hm (hother _ fun he => by cases he)
  | _ => cases hm

theorem queueOf_push {k : Nat} {item : Item} {d : SchedulingDecision} (ha : s.Accepts item) (q : Source) :
    (pushItem { s with enqueuers := s.enqueuers.set k (.pushed d) } item).queueOf q =
      s.queueOf q ++ [item].filter (·.source = q) :=
  queueOf_pushItem (s := { s with enqueuers := s.enqueuers.set k (.pushed d) }) ha q

theorem Requested.push {k : Nat} (h : s.Requested tag) (hs : s.step cfg (.push k) = some s') :
    s'.Requested tag := by
  obtain ⟨item, d, hk, hacc, rfl⟩ := step_push hs
  obtain ⟨before, after, hb, haft⟩ := pendingItems_set hk
  have hpend :
      (pushItem { s with enqueuers := s.enqueuers.set k (.pushed d) } item).pendingItems = before ++ after := by
    rw [← haft]
    cases item <;> rfl
  rcases h with hq | hp | ⟨n, hn⟩
  · refine .inl ?_
    rw [queueOf_push hacc]
    exact List.mem_append_left _ hq
  · rw [hb] at hp
    by_cases hitem : item = .control (.poll tag)
    · refine .inl ?_
      rw [queueOf_push hacc, hitem]
      exact List.mem_append_right _ (List.mem_singleton_self _)
    · refine .inr (.inl ?_)
      rw [hpend]
      rcases List.mem_append.mp hp with hm | hm
      · exact List.mem_append_left _ hm
      · exact List.mem_append_right _ ((List.mem_cons.mp hm).resolve_left (Ne.symm hitem))
  · exact .inr (.inr ⟨n, holder_enter (by nofun) hn hs⟩)

theorem Requested.exec (h : s.Requested tag) (hs : s.step cfg .exec = some s')
    (he : ∀ n, s.holder ≠ some (.enter (.poll tag) n)) : s'.Requested tag := by
  obtain ⟨pc, hh, hrun⟩ := step_exec hs
  rcases h with hq | hp | ⟨n, hn⟩
  · rw [(gives_execStep hrun).queues .control] at hq
    rcases List.mem_append.mp hq with hm | hm
    · exact .inr (.inr (enter_of_pops (List.mem_of_mem_filter hm) hrun))
    · exact .inl hm
  · rw [pendingItems, ← enqueuers_execStep hrun] at hp
    exact .inr (.inl hp)
  · exact absurd hn (he n)

theorem Requested.other {a : Action} (h : s.Requested tag) (hp : ∀ k, a ≠ .push k) (he : a ≠ .exec)
    (hs : s.step cfg a = some s') : s'.Requested tag := by
  rcases h with hq | hpend | ⟨n, hn⟩
  · rw [(gives_other hp he hs).queues .control] at hq
    exact .inl hq
  · have hnone : s.pushes a = [] := by
      cases a with
      | push k => exact absurd rfl (hp k)
      | _ => rfl
    cases hnone ▸ pendingStep_of_step hs with
    | more items hi hitems =>
      refine .inr (.inl ?_)
      rw [hitems]
      exact List.mem_append_right _ hpend
  · exact .inr (.inr ⟨n, holder_enter he hn hs⟩)

/-- A step keeps the request, unless it enters the control event. -/
theorem Requested.step {a : Action} (h : s.Requested tag) (hs : s.step cfg a = some s')
    (he : a = .exec → ∀ n, s.holder ≠ some (.enter (.poll tag) n)) : s'.Requested tag := by
  cases a with
  | push k => exact h.push hs
  | exec => exact h.exec hs (he rfl)
  | _ => exact h.other (by nofun) (by nofun) hs

/-- Who wakes a future requests a poll of it, where the process does not abort. -/
theorem requested_of_wake (h : s.step cfg (.increment (.control (.poll tag))) = some s') (hc : s'.crashed = none) :
    s'.Requested tag := by
  rcases pendingStep_increment h with ⟨hp, -⟩ | ⟨-, hcr⟩
  · refine .inr (.inl ?_)
    rw [hp]
    exact List.mem_cons_self ..
  · exact absurd hc hcr

end State

/-! ## Runs -/

theorem wakeDue_append {tag : Nat} {log l : List TaskObs} (hw : .woken tag ∉ l) (h : WakeDue tag (log ++ l)) :
    WakeDue tag log ∧ .polled tag ∉ l := by
  obtain ⟨before, after, heq, hp⟩ := h
  rcases List.append_eq_append_iff.mp heq with ⟨mid, hmid, hl⟩ | ⟨mid, hmid, hl⟩
  · refine absurd ?_ hw
    rw [hl]
    exact List.mem_append_right _ (List.mem_cons_self ..)
  · cases mid with
    | nil =>
      refine absurd ?_ hw
      rw [show l = .woken tag :: after from hl.symm]
      exact List.mem_cons_self ..
    | cons x mid =>
      obtain ⟨rfl, rfl⟩ := List.cons.inj hl
      exact ⟨⟨before, mid, hmid, fun hm => hp (List.mem_append_left _ hm)⟩, fun hm => hp (List.mem_append_right _ hm)⟩

/-- A future is not polled once it is complete. -/
def Finished (tag : Nat) (log : List TaskObs) : Prop :=
  ∀ before after, log = before ++ .polled tag :: after → .completed tag ∉ before

theorem Finished.append {tag : Nat} {log l : List TaskObs} (h : Finished tag log)
    (hl : .polled tag ∈ l → l = [.polled tag] ∧ .completed tag ∉ log) : Finished tag (log ++ l) := by
  intro before after heq
  rcases List.append_eq_append_iff.mp heq with ⟨mid, hmid, hl'⟩ | ⟨mid, hmid, hl'⟩
  · obtain ⟨hone, hnot⟩ := hl (by rw [hl']; exact List.mem_append_right _ (List.mem_cons_self ..))
    cases mid with
    | nil =>
      rw [hmid, List.append_nil]
      exact hnot
    | cons x mid =>
      have hlen := congrArg List.length (hl'.symm.trans hone)
      simp at hlen
  · cases mid with
    | nil =>
      obtain ⟨-, hnot⟩ := hl (by rw [show l = .polled tag :: after from hl'.symm]; exact List.mem_cons_self ..)
      rw [List.append_nil] at hmid
      rwa [← hmid]
    | cons x mid =>
      obtain ⟨rfl, -⟩ := List.cons.inj hl'
      exact h before mid hmid

namespace Tasks

variable {cfg : Config} {nPorts : Nat} {t t' : Tasks} {tag : Nat}

/-- A future whose wake is due has been requested; the futures that are kept are those that were
spawned and are not complete. -/
structure Holds (cfg : Config) (nPorts : Nat) (t : Tasks) : Prop where
  ran : Reach (State.step cfg) (fun _ _ => True) (Component.initial nPorts) t.state
  requested : t.state.crashed = none → ∀ tag ∈ t.nonBlockingFutures, WakeDue tag t.log → t.state.Requested tag
  kept : ∀ tag, tag ∈ t.nonBlockingFutures ↔ .spawned tag ∈ t.log ∧ .completed tag ∉ t.log
  nodup : t.nonBlockingFutures.Nodup
  known : ∀ tag, .completed tag ∈ t.log → .spawned tag ∈ t.log
  ended : ∀ tag, Finished tag t.log

theorem holds_initial : (initial nPorts).Holds cfg nPorts where
  ran := .init
  requested _ tag ht := by cases ht
  kept tag := by simp [initial]
  nodup := List.nodup_nil
  known tag h := by cases h
  ended tag before after h := by cases before <;> cases h

/-- The requests of the futures whose wake was due before. -/
theorem Holds.requested_step {a : Action} {s : State} {l : List TaskObs} (h : t.Holds cfg nPorts)
    (hs : t.state.step cfg a = some s) (ht : tag ∈ t.nonBlockingFutures) (hw : .woken tag ∉ l)
    (hd : WakeDue tag (t.log ++ l))
    (he : a = .exec → ∀ n, t.state.holder = some (.enter (.poll tag) n) → .polled tag ∈ l) : s.Requested tag := by
  obtain ⟨hdue, hpolled⟩ := wakeDue_append hw hd
  have hreq := h.requested (does_of_step hs).1 tag ht hdue
  exact hreq.step hs fun ha n hn => hpolled (he ha n hn)

theorem Holds.component {a : Action} {s : State} (h : t.Holds cfg nPorts) (hs : t.state.step cfg a = some s) :
    Holds cfg nPorts ⟨s, t.nonBlockingFutures, t.log ++ t.polls a⟩ := by
  have hpolls : t.polls a = [] ∨ ∃ tag ∈ t.nonBlockingFutures, t.polls a = [.polled tag] := by
    cases a with
    | exec =>
      simp only [polls]
      split
      · split
        · exact .inr ⟨_, ‹_›, rfl⟩
        · exact .inl rfl
      · exact .inl rfl
    | _ => exact .inl rfl
  refine ⟨h.ran.step trivial hs, fun _ tag ht hd => ?_, fun tag => ?_, h.nodup, fun tag hc => ?_, fun tag => ?_⟩
  · refine h.requested_step hs ht (fun hw => ?_) hd fun ha n hn => ?_
    · rcases hpolls with hp | ⟨x, -, hp⟩
      · rw [hp] at hw
        cases hw
      · rw [hp] at hw
        cases List.mem_singleton.mp hw
    · subst ha
      simp only [polls, hn, if_pos ht]
      exact List.mem_singleton_self _
  · rw [h.kept tag]
    rcases hpolls with hp | ⟨x, -, hp⟩
    · simp [hp]
    · simp [hp]
  · rcases hpolls with hp | ⟨x, -, hp⟩
    · simp only [hp, List.append_nil] at hc ⊢
      exact h.known tag hc
    · simp only [hp, List.mem_append, List.mem_singleton, reduceCtorEq, or_false] at hc ⊢
      exact h.known tag hc
  · refine (h.ended tag).append fun hp' => ?_
    rcases hpolls with hp | ⟨x, hx, hp⟩
    · rw [hp] at hp'
      cases hp'
    · rw [hp] at hp' ⊢
      obtain rfl := TaskObs.polled.inj (List.mem_singleton.mp hp')
      exact ⟨rfl, ((h.kept _).mp hx).2⟩

theorem Holds.spawnLocal {s : State} (h : t.Holds cfg nPorts) (hnew : .spawned tag ∉ t.log)
    (hs : t.state.step cfg (.increment (.control (.poll tag))) = some s) :
    Holds cfg nPorts ⟨s, tag :: t.nonBlockingFutures, t.log ++ [.spawned tag, .woken tag]⟩ := by
  refine ⟨h.ran.step trivial hs, fun hc tag' ht hd => ?_, fun tag' => ?_, ?_, fun tag' hc => ?_, fun tag' => ?_⟩
  · by_cases heq : tag' = tag
    · subst heq
      exact requested_of_wake hs hc
    · refine h.requested_step hs ((List.mem_cons.mp ht).resolve_left heq) ?_ hd (by nofun)
      simp [heq]
  · have hnot : .completed tag ∉ t.log := fun hc => hnew (h.known tag hc)
    by_cases heq : tag' = tag
    · subst heq
      simp [hnot]
    · simp [heq, h.kept tag']
  · exact List.nodup_cons.mpr ⟨fun hm => hnew ((h.kept tag).mp hm).1, h.nodup⟩
  · simp only [List.mem_append, List.mem_cons, List.not_mem_nil, reduceCtorEq, or_false] at hc ⊢
    exact .inl (h.known tag' hc)
  · exact (h.ended tag').append fun hp => by simp at hp

theorem Holds.wake {s : State} (h : t.Holds cfg nPorts)
    (hs : t.state.step cfg (.increment (.control (.poll tag))) = some s) :
    Holds cfg nPorts ⟨s, t.nonBlockingFutures, t.log ++ [.woken tag]⟩ := by
  refine ⟨h.ran.step trivial hs, fun hc tag' ht hd => ?_, fun tag' => ?_, h.nodup, fun tag' hc => ?_, fun tag' => ?_⟩
  · by_cases heq : tag' = tag
    · subst heq
      exact requested_of_wake hs hc
    · refine h.requested_step hs ht ?_ hd (by nofun)
      simp [heq]
  · simp [h.kept tag']
  · simp only [List.mem_append, List.mem_singleton, reduceCtorEq, or_false] at hc ⊢
    exact h.known tag' hc
  · exact (h.ended tag').append fun hp => by simp at hp

/-- The future is pending. -/
theorem Holds.pending {s : State} {r : HandlerResult} (h : t.Holds cfg nPorts)
    (hs : t.state.step cfg (.returns r) = some s) : Holds cfg nPorts { t with state := s } := by
  refine ⟨h.ran.step trivial hs, fun _ tag ht hd => ?_, h.kept, h.nodup, h.known, h.ended⟩
  exact h.requested_step hs ht List.not_mem_nil (by rwa [List.append_nil]) (by nofun)

/-- The future is removed. -/
theorem Holds.completed {s : State} {r : HandlerResult} (h : t.Holds cfg nPorts)
    (ht : tag ∈ t.nonBlockingFutures) (hs : t.state.step cfg (.returns r) = some s) :
    Holds cfg nPorts ⟨s, t.nonBlockingFutures.erase tag, t.log ++ [.completed tag]⟩ := by
  refine ⟨h.ran.step trivial hs, fun _ tag' ht' hd => ?_, fun tag' => ?_, h.nodup.erase tag, fun tag' hc => ?_,
    fun tag' => ?_⟩
  · exact h.requested_step hs (List.mem_of_mem_erase ht') (by simp) hd (by nofun)
  · rw [h.nodup.mem_erase_iff, h.kept tag']
    simp only [List.mem_append, List.mem_singleton, reduceCtorEq, or_false, TaskObs.completed.injEq, not_or]
    tauto
  · simp only [List.mem_append, List.mem_singleton, TaskObs.completed.injEq] at hc ⊢
    rcases hc with hc | rfl
    · exact .inl (h.known tag' hc)
    · exact .inl ((h.kept _).mp ht).1
  · exact (h.ended tag').append fun hp => by simp at hp

theorem Holds.step {a : TaskAction} (h : t.Holds cfg nPorts) (hs : t.step cfg a = some t') : t'.Holds cfg nPorts := by
  cases a with
  | component a =>
    simp only [Tasks.step] at hs
    split at hs
    · obtain ⟨s, hstep, rfl⟩ := Option.map_eq_some_iff.mp hs
      exact h.component hstep
    · cases hs
  | spawnLocal tag =>
    simp only [Tasks.step] at hs
    split at hs
    · rename_i hnew
      obtain ⟨s, hstep, rfl⟩ := Option.map_eq_some_iff.mp hs
      exact h.spawnLocal hnew.2 hstep
    · cases hs
  | wake tag =>
    simp only [Tasks.step] at hs
    split at hs
    · obtain ⟨s, hstep, rfl⟩ := Option.map_eq_some_iff.mp hs
      exact h.wake hstep
    · cases hs
  | runTask r =>
    simp only [Tasks.step] at hs
    split at hs
    swap
    · cases hs
    cases r with
    | none =>
      obtain ⟨s, hstep, rfl⟩ := Option.map_eq_some_iff.mp hs
      exact h.pending hstep
    | some r =>
      simp only at hs
      split at hs
      · rename_i ht
        obtain ⟨s, hstep, rfl⟩ := Option.map_eq_some_iff.mp hs
        exact h.completed ht hstep
      · cases hs

end Tasks

variable {cfg : Config} {nPorts : Nat} {t : Tasks}

/-- In every run, whoever wakes the futures and whenever, also while they are polled: the futures
that are kept are those that were spawned and are not complete, none of them is polled once it is
complete, and when all is at rest and the component can run, a poll began after the last wake of
each. -/
theorem wakes_polled (h : Reach (Tasks.step cfg) (fun _ _ => True) (.initial nPorts) t) :
    (∀ tag, tag ∈ t.nonBlockingFutures ↔ .spawned tag ∈ t.log ∧ .completed tag ∉ t.log) ∧
      (∀ tag before after, t.log = before ++ .polled tag :: after → .completed tag ∉ before) ∧
      (t.state.AtRest → t.state.Runnable → t.state.crashed = none →
        ∀ tag ∈ t.nonBlockingFutures, ∀ before after, t.log = before ++ .woken tag :: after → .polled tag ∈ after) := by
  have hi : t.Holds cfg nPorts := h.invariant (Tasks.Holds cfg nPorts) Tasks.holds_initial fun hi _ hs => hi.step hs
  refine ⟨hi.kept, hi.ended, fun hrest hrun hc tag ht before after hlog => ?_⟩
  by_contra hnot
  rcases hi.requested hc tag ht ⟨before, after, hlog, hnot⟩ with hq | hp | ⟨n, hn⟩
  · rw [State.drained hi.ran hrest hrun] at hq
    cases hq
  · rw [State.pendingItems, hrest.enqueuers] at hp
    cases hp
  · rw [hrest.holder] at hn
    cases hn

/-- A future is woken again while it is polled, and a second one completes. -/
def wakeWhilePolled : List TaskAction :=
  [.spawnLocal 7, .component (.push 0), .component (.finishEnqueue 0), .component .dispatch, .component .load,
    .component .acquire, .component .exec, .component .exec, .component .exec, .wake 7, .spawnLocal 8, .runTask none,
    .component (.push 0), .component (.push 1), .component (.finishEnqueue 0), .component (.finishEnqueue 0),
    .component .exec, .component .exec, .runTask (some .ok), .component .exec, .component .exec, .runTask none,
    .component .exec, .component .exec, .component .exec, .component .exec, .component (.act 0)]

theorem wakes_polled_twice :
    ∃ h : (runActions (Tasks.step ⟨10, 5, true⟩) (.initial 0) wakeWhilePolled).isSome,
      (Option.get _ h).nonBlockingFutures = [7] ∧ (Option.get _ h).log.count (.woken 7) = 2 ∧
      ∀ before after, (Option.get _ h).log = before ++ .woken 7 :: after → .polled 7 ∈ after := by
  have hreach : Reach (Tasks.step ⟨10, 5, true⟩) (fun _ _ => True) (.initial 0) _ :=
    Reach.of_run wakeWhilePolled (by decide) (runMeets_true _ _)
  obtain ⟨-, -, hpolled⟩ := wakes_polled hreach
  exact ⟨by decide, by decide, by decide, hpolled (by decide) (.inr (by decide)) (by decide) 7 (by decide)⟩

end Kompact.Component
