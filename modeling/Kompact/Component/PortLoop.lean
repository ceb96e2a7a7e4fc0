import Kompact.Component.DerivedExecute

/-!
# The ports in the executor

The executor goes through the code that the macro generates step by step
(`State.portStep`), so that others can act in between. Where nobody does, it
handles the events that `execute` handles, leaves the others on the queues,
and gives what `execute` returns to `check_and_handle_blocking!`
(`execute_simulated`).

A loop of the executor that `Mirrors` the variables of `execute` does so again
behind the code for one port (`portHandleSkip_simulated`), and by the rule for
the loops behind each round.
-/

namespace Kompact.Component

/-- An environment in which nothing arrives. -/
def Environment.quiet (handle : Ports Nat → Nat → Nat → HandlerResult) : Environment Nat where
  arrives _ _ := []
  handle := handle

@[simp] theorem arrive_quiet (handle : Ports Nat → Nat → Nat → HandlerResult) (p : Ports Nat) :
    p.arrive (.quiet handle) = p := by
  simp [Ports.arrive, Environment.quiet]

/-- The handlers that ran. -/
def handled (trace : List (PortStep Nat)) : List Obs :=
  trace.filterMap fun
    | .handle i _ _ => some (.port i)
    | _ => none

/-- A state of the executor with the ports `p`, and the handlers that ran since `s₀`. -/
structure Mirrors (s₀ : State) (p : Ports Nat) (s : State) : Prop where
  crashed : s.crashed = none
  length : s.portQueues.length = s₀.portQueues.length
  queues : ∀ i < s₀.portQueues.length, s.portQueues[i]? = some (p.queue i)
  log : s.log = s₀.log ++ handled p.trace

section

variable (cfg : Config) (s₀ : State) (n rem : Nat)

/-- The executor is in a round, at the port `index`. -/
structure InRound (first : Bool) (index : Nat) (v : Vars Nat) (s : State) : Prop extends Mirrors s₀ v.ports s where
  reach : Reach (State.step cfg) (fun _ _ => True) s₀ s
  holder : s.holder = some (.ports n ⟨rem, v.count, first, index, v.doneWork⟩)
  skip : s.skip = s₀.skip

/-- The executor has left the loop with what `execute` returns. -/
def LeftWith (out : ExecuteResult × Ports Nat) : Prop :=
  ∃ s, Mirrors s₀ out.2 s ∧ s.skip = out.1.skip ∧ Reach (State.step cfg) (fun _ _ => True) s₀
    (s.checkAndHandleBlocking cfg (n + out.1.count) (.moreMessages (n + out.1.count)) out.1.outcome)

end

section

variable {cfg : Config} {s₀ s : State} {n rem index : Nat} {first : Bool} {v : Vars Nat}
  {handle : Ports Nat → Nat → Nat → HandlerResult}

theorem Mirrors.goto {p : Ports Nat} (h : Mirrors s₀ p s) (pc : Pc) : Mirrors s₀ p (s.goto pc) :=
  ⟨h.crashed, h.length, h.queues, h.log⟩

theorem Mirrors.setSkip {p : Ports Nat} (h : Mirrors s₀ p s) (skip : Nat) : Mirrors s₀ p { s with skip } :=
  ⟨h.crashed, h.length, h.queues, h.log⟩

/-- The executor takes the next step of the loop. -/
theorem InRound.exec (h : InRound cfg s₀ n rem first index v s) (s' : State)
    (hs : s.portStep n ⟨rem, v.count, first, index, v.doneWork⟩ = s') :
    Reach (State.step cfg) (fun _ _ => True) s₀ s' := by
  refine h.reach.step (a := .exec) trivial ?_
  simp [State.step, h.crashed, h.holder, State.execStep, hs]

/-- The executor with an event dequeued from port `index`, whose handler runs. -/
def State.serve (s : State) (index : Nat) (queue : List Nat) : State :=
  { s with portQueues := s.portQueues.set index queue }.emit (.port index)

/-- The state when the handler of the event returns. -/
theorem InRound.serve (h : InRound cfg s₀ n rem first index v s) (hi : index < s₀.portQueues.length)
    (hskip : ¬ (first = true ∧ index < s.skip)) (hquota : ¬ rem ≤ v.count) {event : Nat} {queue : List Nat}
    (hq : v.ports.queue index = event :: queue) (res : HandlerResult) (s' : State)
    (hs : ((s.serve index queue).goto (.inPort n ⟨rem, v.count, first, index, v.doneWork⟩)).handlerReturns cfg res
      (.inPort n ⟨rem, v.count, first, index, v.doneWork⟩) = some s') :
    Reach (State.step cfg) (fun _ _ => True) s₀ s' := by
  refine (h.exec ((s.serve index queue).goto (.inPort n ⟨rem, v.count, first, index, v.doneWork⟩)) ?_).step
    (a := .returns res) trivial ?_
  · rw [State.portStep, h.queues index hi, hq]
    exact (if_neg hskip).trans (if_neg hquota)
  · simpa [State.step, State.goto, State.serve, State.emit, h.crashed] using hs

theorem Mirrors.serve {p : Ports Nat} (h : Mirrors s₀ p s) (hi : index < s₀.portQueues.length) (event : Nat)
    (queue : List Nat) (res : HandlerResult) :
    Mirrors s₀ (p.took (Function.update p.queue index queue) (.served index event res)) (s.serve index queue) where
  crashed := h.crashed
  length := by simp [State.serve, State.emit, h.length]
  queues j hj := by
    by_cases hij : index = j
    · subst hij
      simp [State.serve, State.emit, Ports.took, h.length, hi]
    · simp [State.serve, State.emit, Ports.took, hij, h.queues j hj, Function.update_of_ne (Ne.symm hij)]
  log := by simp [State.serve, State.emit, Ports.took, Turn.steps, handled, h.log]

/-- The code for one port. -/
theorem portHandleSkip_simulated (hi : index < s₀.portQueues.length)
    (h : ∃ s, InRound cfg s₀ n rem first index v s) :
    Ends (fun v => ∃ s, InRound cfg s₀ n rem first (index + 1) v s) (LeftWith cfg s₀ n)
      (portHandleSkip (.quiet handle) rem (if first then s₀.skip else 0) index v) := by
  obtain ⟨s, h⟩ := h
  have hskips : (if first then s₀.skip else 0) ≤ index ↔ ¬ (first = true ∧ index < s.skip) := by
    rw [h.skip]
    cases first <;> simp
  unfold portHandleSkip portHandle
  by_cases hskip : first = true ∧ index < s.skip
  · rw [if_neg (fun hle => hskips.mp hle hskip)]
    have hstep := h.exec (s.goto (.ports n ⟨rem, v.count, first, index + 1, v.doneWork⟩))
      (by rw [State.portStep, h.queues index hi]; exact if_pos hskip)
    exact ⟨_, h.toMirrors.goto _, hstep, rfl, h.skip⟩
  rw [if_pos (hskips.mpr hskip)]
  by_cases hquota : rem ≤ v.count
  · rw [if_pos hquota]
    have hstep := h.exec ({ s with skip := index }.goto (.moreMessages (n + v.count)))
      (by rw [State.portStep, h.queues index hi]; exact (if_neg hskip).trans (if_pos hquota))
    exact ⟨_, h.toMirrors.setSkip index, rfl, hstep⟩
  rw [if_neg hquota, arrive_quiet]
  cases hq : v.ports.queue index with
  | nil =>
    simp only [Ports.dequeue, hq]
    have hstep := h.exec (s.goto (.ports n ⟨rem, v.count, first, index + 1, v.doneWork⟩))
      (by rw [State.portStep, h.queues index hi, hq]; exact (if_neg hskip).trans (if_neg hquota))
    have hmirrors : Mirrors s₀ { v.ports with trace := v.ports.trace ++ [.empty index] } s :=
      { h.toMirrors with log := by simpa [handled] using h.log }
    exact ⟨_, hmirrors.goto _, hstep, rfl, h.skip⟩
  | cons event queue =>
    simp only [Ports.dequeue, Ports.handle, hq, List.append_assoc]
    -- the handler returns what the environment says
    generalize (Environment.quiet handle).handle _ index event = res
    have hreturns := h.serve hi hskip hquota hq res
    have hmirrors := h.toMirrors.serve hi event queue res
    have hstops (r : ExecuteResult) (hr : r.outcome = res) (hne : res ≠ .ok) (hcount : r.count = v.count + 1)
        (hskip : r.skip = index) : LeftWith cfg s₀ n (r, v.ports.took (Function.update v.ports.queue index queue)
          (.served index event res)) := by
      refine ⟨{ s.serve index queue with skip := index }, hmirrors.setSkip index, hskip.symm, hreturns _ ?_⟩
      rw [hr, hcount]
      cases res with
      | ok => exact absurd rfl hne
      | _ => rfl
    cases res with
    | ok => exact ⟨_, hmirrors.goto _, hreturns _ rfl, rfl, h.skip⟩
    | blockOn => exact hstops _ rfl (by decide) rfl rfl
    | shutdown => exact hstops _ rfl (by decide) rfl rfl
    | benign => exact hstops _ rfl (by decide) rfl rfl
    | recoverable => exact hstops _ rfl (by decide) rfl rfl
    | unrecoverable => exact hstops _ rfl (by decide) rfl rfl

theorem portHandlesSkip_simulated (handle : Ports Nat → Nat → Nat → HandlerResult)
    (h : ∃ s, InRound cfg s₀ n rem first 0 v s) :
    Ends (fun v => ∃ s, InRound cfg s₀ n rem first s₀.portQueues.length v s) (LeftWith cfg s₀ n)
      (portHandlesSkip (.quiet handle) s₀.portQueues.length rem (if first then s₀.skip else 0) v) :=
  ends_foldlM (I := fun i v => ∃ s, InRound cfg s₀ n rem first i v s) _
    (fun _ hi _ h => portHandleSkip_simulated hi h) h

/-- Behind a round with work the next one starts. -/
theorem InRound.again (h : InRound cfg s₀ n rem first index v s) (hend : s₀.portQueues.length ≤ index)
    (hw : v.doneWork = true) :
    InRound cfg s₀ n rem false 0 { v with doneWork := false } (s.goto (.ports n ⟨rem, v.count, false, 0, false⟩)) := by
  refine ⟨h.toMirrors.goto _, h.exec _ ?_, rfl, h.skip⟩
  rw [State.portStep, List.getElem?_eq_none (h.length ▸ hend)]
  exact if_pos hw

/-- Behind one without the loop ends. -/
theorem InRound.ends (h : InRound cfg s₀ n rem first index v s) (hend : s₀.portQueues.length ≤ index)
    (hw : v.doneWork = false) : LeftWith cfg s₀ n (.new false v.count 0, v.ports) := by
  refine ⟨{ s with skip := 0 }, h.toMirrors.setSkip 0, rfl, h.exec _ ?_⟩
  rw [State.portStep, List.getElem?_eq_none (h.length ▸ hend)]
  exact if_neg (by simp [hw])

theorem whileDoneWork_simulated {fuel : Nat} {out : ExecuteResult × Ports Nat}
    (h : ∃ s, InRound cfg s₀ n rem first s₀.portQueues.length v s)
    (hout : whileDoneWork (.quiet handle) s₀.portQueues.length rem fuel v = some out) : LeftWith cfg s₀ n out := by
  induction fuel generalizing first v with
  | zero => cases hout
  | succ fuel ih =>
    obtain ⟨s, h⟩ := h
    rw [whileDoneWork] at hout
    cases hw : v.doneWork with
    | false =>
      rw [hw] at hout
      obtain rfl := Option.some.inj hout
      exact h.ends (Nat.le_refl _) hw
    | true =>
      rw [hw, if_pos rfl, portHandles_eq] at hout
      have hround := portHandlesSkip_simulated handle ⟨_, h.again (Nat.le_refl _) hw⟩
      simp only [Bool.false_eq_true, if_false] at hround
      generalize portHandlesSkip _ _ _ _ _ = round at hround hout
      cases round with
      | error r =>
        obtain rfl := Option.some.inj hout
        exact hround
      | ok v' => exact ih hround hout

end

/-- From the start of the loop over the ports, with any quota, `skip` and handlers, the executor
comes to where it leaves the loop with what `execute` returns. -/
theorem execute_simulated (cfg : Config) {s : State} {n rem : Nat} (handle : Ports Nat → Nat → Nat → HandlerResult)
    (hc : s.crashed = none) (hp : s.holder = some (.ports n ⟨rem, 0, true, 0, true⟩)) :
    ∃ out, execute (.quiet handle) s.portQueues.length rem s.skip (Ports.new fun i => s.portQueues.getD i []) =
      some out ∧ LeftWith cfg s n out := by
  obtain ⟨out, hout, -⟩ := execute_did (.quiet handle) s.portQueues.length rem s.skip
    fun i => s.portQueues.getD i []
  refine ⟨out, hout, ?_⟩
  have hstart : InRound cfg s n rem true 0
      { ports := Ports.new fun i => s.portQueues.getD i [], count := 0, doneWork := true } s :=
    ⟨⟨hc, rfl, fun i hi => by simp [Ports.new, hi], by simp [Ports.new, handled]⟩, .init, hp, rfl⟩
  unfold execute at hout
  split at hout
  · rename_i hn
    obtain rfl := Option.some.inj hout
    exact (hstart.again (Nat.le_of_eq hn) rfl).ends (Nat.le_of_eq hn) rfl
  · have hround := portHandlesSkip_simulated handle ⟨s, hstart⟩
    simp only [if_true] at hround
    generalize portHandlesSkip _ _ _ _ _ = round at hround hout
    cases round with
    | error r =>
      obtain rfl := Option.some.inj hout
      exact hround
    | ok v => exact whileDoneWork_simulated hround hout

end Kompact.Component
