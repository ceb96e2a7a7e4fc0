import Kompact.Component.Execute
import Kompact.Framework.RoundRobin
import Mathlib.Data.List.DropRight
import Mathlib.Logic.Function.Basic

/-!
# The derived `execute`

The method `execute` that the derive macro generates for the ports of a
component: a block of code for each port, once from port `skip` on and then
round after round while there was work, with early returns in every block.

Others put events onto the queues while it runs, and handlers return what
they like. An `Environment` decides both from all that has happened at the
ports, so that a statement about every environment is one about every
interleaving. `Ports.trace` records what happened: a queue that was found
empty, an event that was dequeued, a handler that was called. The counters
stay below `max_events`, so that natural numbers stand for them.

`execute_exact` says what one call did, as a sequence of turns: that events
go to the handler of their port at once and in order, what the result says
about it, and that the turns go round the ports in a circle from `skip` on.
`executeAll_fair_iff` says when a sequence of calls treats the ports fairly.
A handler that blocks or fails leaves `skip` at its own port, which is then
served again before the others.
-/

namespace Kompact.Component

inductive HandlerError where
  | benign
  | recoverable
  | unrecoverable
  deriving DecidableEq, Repr

/-- What `execute` returns. -/
structure ExecuteResult where
  blocking : Bool
  shutdown : Bool
  error : Option HandlerError
  count : Nat
  skip : Nat
  deriving DecidableEq, Repr

namespace ExecuteResult

def new (blocking : Bool) (count skip : Nat) : ExecuteResult :=
  { blocking, shutdown := false, error := none, count, skip }

/-- `ExecuteResult::shutdown`. -/
def newShutdown (count skip : Nat) : ExecuteResult :=
  { blocking := false, shutdown := true, error := none, count, skip }

/-- `ExecuteResult::error`. -/
def newError (error : HandlerError) (count skip : Nat) : ExecuteResult :=
  { blocking := false, shutdown := false, error := some error, count, skip }

/-- What the last handler returned, as far as the result tells. -/
def outcome (r : ExecuteResult) : HandlerResult :=
  if r.blocking then .blockOn
  else if r.shutdown then .shutdown
  else
    match r.error with
    | none => .ok
    | some .benign => .benign
    | some .recoverable => .recoverable
    | some .unrecoverable => .unrecoverable

end ExecuteResult

/-- What happens at the ports. -/
inductive PortStep (E : Type) where
  | empty (i : Nat)
  | dequeue (i : Nat) (event : E)
  | handle (i : Nat) (event : E) (res : HandlerResult)
  deriving DecidableEq, Repr

/-- The queues of the ports, what others have put onto them, and what has happened. -/
structure Ports (E : Type) where
  queue : Nat → List E
  arrived : Nat → List E
  trace : List (PortStep E)

/-- What is put onto the queues before the next look at one of them, and what
the handlers return. -/
structure Environment (E : Type) where
  arrives : Ports E → Nat → List E
  handle : Ports E → Nat → E → HandlerResult

variable {E : Type}

namespace Ports

def new (queue : Nat → List E) : Ports E := { queue, arrived := fun _ => [], trace := [] }

def arrive (env : Environment E) (p : Ports E) : Ports E :=
  { p with
    queue := fun i => p.queue i ++ env.arrives p i
    arrived := fun i => p.arrived i ++ env.arrives p i }

def dequeue (p : Ports E) (i : Nat) : Option E × Ports E :=
  match p.queue i with
  | [] => (none, { p with trace := p.trace ++ [.empty i] })
  | event :: queue =>
    (some event, { p with queue := Function.update p.queue i queue, trace := p.trace ++ [.dequeue i event] })

def handle (env : Environment E) (p : Ports E) (i : Nat) (event : E) : HandlerResult × Ports E :=
  let res := env.handle p i event
  (res, { p with trace := p.trace ++ [.handle i event res] })

end Ports

/-- The variables of `execute`, and the ports. -/
structure Vars (E : Type) where
  ports : Ports E
  count : Nat
  doneWork : Bool

/-- The code for port `i`; an early return is an error. -/
def portHandle (env : Environment E) (maxEvents i : Nat) (v : Vars E) :
    Except (ExecuteResult × Ports E) (Vars E) :=
  if maxEvents ≤ v.count then .error (.new false v.count i, v.ports)
  else
    match (v.ports.arrive env).dequeue i with
    | (none, ports) => .ok { v with ports }
    | (some event, ports) =>
      let (res, ports) := ports.handle env i event
      let count := v.count + 1
      match res with
      | .ok => .ok { ports, count, doneWork := true }
      | .blockOn => .error (.new true count i, ports)
      | .shutdown => .error (.newShutdown count i, ports)
      | .benign => .error (.newError .benign count i, ports)
      | .recoverable => .error (.newError .recoverable count i, ports)
      | .unrecoverable => .error (.newError .unrecoverable count i, ports)

def portHandleSkip (env : Environment E) (maxEvents skip i : Nat) (v : Vars E) :
    Except (ExecuteResult × Ports E) (Vars E) :=
  if skip ≤ i then portHandle env maxEvents i v else .ok v

/-- The code for all `n` ports. -/
def portHandles (env : Environment E) (n maxEvents : Nat) (v : Vars E) :
    Except (ExecuteResult × Ports E) (Vars E) :=
  (List.range n).foldlM (fun v i => portHandle env maxEvents i v) v

def portHandlesSkip (env : Environment E) (n maxEvents skip : Nat) (v : Vars E) :
    Except (ExecuteResult × Ports E) (Vars E) :=
  (List.range n).foldlM (fun v i => portHandleSkip env maxEvents skip i v) v

/-- `while done_work`, for at most `fuel` tests of the condition. -/
def whileDoneWork (env : Environment E) (n maxEvents : Nat) : Nat → Vars E → Option (ExecuteResult × Ports E)
  | 0, _ => none
  | fuel + 1, v =>
    if v.doneWork then
      match portHandles env n maxEvents { v with doneWork := false } with
      | .ok v => whileDoneWork env n maxEvents fuel v
      | .error r => some r
    else some (.new false v.count 0, v.ports)

def execute (env : Environment E) (n maxEvents skip : Nat) (ports : Ports E) :
    Option (ExecuteResult × Ports E) :=
  if n = 0 then some (.new false 0 0, ports)
  else
    -- might skip queues that have work
    match portHandlesSkip env n maxEvents skip { ports, count := 0, doneWork := true } with
    | .ok v => whileDoneWork env n maxEvents (maxEvents + 2) v
    | .error r => some r

/-! ## Turns -/

/-- A look at the queue of a port, with what it led to. -/
inductive Turn (E : Type) where
  | empty (i : Nat)
  | served (i : Nat) (event : E) (res : HandlerResult)
  deriving DecidableEq, Repr

namespace Turn

def steps : Turn E → List (PortStep E)
  | empty i => [.empty i]
  | served i event res => [.dequeue i event, .handle i event res]

def isEmpty : Turn E → Bool
  | empty _ => true
  | served _ _ _ => false

def result : Turn E → HandlerResult
  | empty _ => .ok
  | served _ _ res => res

/-- The turn as one in a circle: a handler that is not done with `Ok` stays. -/
def move : Turn E → RoundRobin.Turn
  | empty i => (i, true)
  | served i _ res => (i, decide (res = .ok))

end Turn

/-- The events dequeued from port `i`, in order. -/
def dequeuedFrom (i : Nat) (trace : List (PortStep E)) : List E :=
  trace.filterMap fun
    | .dequeue j event => if j = i then some event else none
    | _ => none

/-- The number of events dequeued. -/
def dequeued (trace : List (PortStep E)) : Nat :=
  trace.countP fun
    | .dequeue _ _ => true
    | _ => false

/-- The port to look at first. -/
def startAt (n skip : Nat) : Nat := if skip < n then skip else 0

/-- What one call did at the ports, with its `turns`. -/
structure Exact (n maxEvents skip : Nat) (queue : Nat → List E) (r : ExecuteResult) (p : Ports E)
    (turns : List (Turn E)) : Prop where
  /-- An event goes to the handler of its port, once and before anything else happens. -/
  trace : p.trace = turns.flatMap Turn.steps
  count : r.count = dequeued p.trace
  le : r.count ≤ maxEvents
  /-- Events leave a queue in the order in which they were put onto it. -/
  fifo (i : Nat) : queue i ++ p.arrived i = dequeuedFrom i p.trace ++ p.queue i
  /-- Nothing is dequeued after a result other than `Ok`. -/
  stops : ∀ t ∈ turns.dropLast, t.result = .ok
  outcome : r.outcome = (turns.getLast?.map Turn.result).getD .ok
  /-- A call that ends with its quota unused found all queues empty since the last event. -/
  idle : r.blocking = false → r.shutdown = false → r.error = none → r.count < maxEvents →
    ∀ i < n, Turn.empty i ∈ turns.rtakeWhile Turn.isEmpty
  /-- The ports take turns in a circle, and `skip` is where it goes on. -/
  circle : RoundRobin.Follows n (startAt n skip) (turns.map Turn.move) (startAt n r.skip)

/-! ## One block of code -/

/-- The ports after a turn that leaves `queue`. -/
def Ports.took (p : Ports E) (queue : Nat → List E) (t : Turn E) : Ports E :=
  { p with queue, trace := p.trace ++ t.steps }

/-- What the code for a port can do. -/
inductive PortHandles (env : Environment E) (maxEvents i : Nat) (v : Vars E) :
    Except (ExecuteResult × Ports E) (Vars E) → Prop
  | quota (h : maxEvents ≤ v.count) : PortHandles env maxEvents i v (.error (.new false v.count i, v.ports))
  | empty (h : v.count < maxEvents) :
      PortHandles env maxEvents i v (.ok { v with
        ports := (v.ports.arrive env).took (v.ports.arrive env).queue (.empty i) })
  | done {event : E} {queue : List E} (h : v.count < maxEvents)
      (hq : (v.ports.arrive env).queue i = event :: queue) :
      PortHandles env maxEvents i v (.ok {
        ports := (v.ports.arrive env).took (Function.update (v.ports.arrive env).queue i queue)
          (.served i event .ok)
        count := v.count + 1
        doneWork := true })
  | stopped {event : E} {queue : List E} {res : HandlerResult} {r : ExecuteResult} (h : v.count < maxEvents)
      (hq : (v.ports.arrive env).queue i = event :: queue) (hres : res ≠ .ok) (hr : r.outcome = res)
      (hcount : r.count = v.count + 1) (hskip : r.skip = i) :
      PortHandles env maxEvents i v (.error (r, (v.ports.arrive env).took
        (Function.update (v.ports.arrive env).queue i queue) (.served i event res)))

theorem portHandle_cases (env : Environment E) (maxEvents i : Nat) (v : Vars E) :
    PortHandles env maxEvents i v (portHandle env maxEvents i v) := by
  unfold portHandle
  split
  · exact .quota ‹_›
  rename_i hlt
  have hlt : v.count < maxEvents := Nat.lt_of_not_le hlt
  cases hq : (v.ports.arrive env).queue i with
  | nil =>
    simp only [Ports.dequeue, hq]
    exact .empty hlt
  | cons event queue =>
    simp only [Ports.dequeue, Ports.handle, hq, List.append_assoc]
    generalize env.handle _ i event = res
    cases res with
    | ok => exact .done hlt hq
    | blockOn => exact .stopped hlt hq (by decide) rfl rfl rfl
    | shutdown => exact .stopped hlt hq (by decide) rfl rfl rfl
    | benign => exact .stopped hlt hq (by decide) rfl rfl rfl
    | recoverable => exact .stopped hlt hq (by decide) rfl rfl rfl
    | unrecoverable => exact .stopped hlt hq (by decide) rfl rfl rfl

/-! ## Invariant -/

section Invariant

variable {env : Environment E} {n maxEvents skip start i : Nat} {queue : Nat → List E} {v : Vars E}
  {turns : List (Turn E)}

/-- Events have left the queues in order. -/
def InOrder (queue : Nat → List E) (p : Ports E) : Prop :=
  ∀ i, queue i ++ p.arrived i = dequeuedFrom i p.trace ++ p.queue i

@[simp] theorem dequeuedFrom_append (i : Nat) (s t : List (PortStep E)) :
    dequeuedFrom i (s ++ t) = dequeuedFrom i s ++ dequeuedFrom i t := List.filterMap_append

@[simp] theorem dequeued_append (s t : List (PortStep E)) : dequeued (s ++ t) = dequeued s + dequeued t :=
  List.countP_append

@[simp] theorem dequeuedFrom_empty (i j : Nat) : dequeuedFrom i (Turn.empty j : Turn E).steps = [] := rfl

@[simp] theorem dequeuedFrom_served (i j : Nat) (event : E) (res : HandlerResult) :
    dequeuedFrom i (Turn.served j event res).steps = if j = i then [event] else [] := by
  by_cases h : j = i <;> simp [dequeuedFrom, Turn.steps, h]

@[simp] theorem dequeued_empty (i : Nat) : dequeued (Turn.empty i : Turn E).steps = 0 := rfl

@[simp] theorem dequeued_served (i : Nat) (event : E) (res : HandlerResult) :
    dequeued (Turn.served i event res).steps = 1 := rfl

theorem inOrder_new : InOrder queue (Ports.new queue) := fun i => by simp [Ports.new, dequeuedFrom]

theorem InOrder.arrive (h : InOrder queue v.ports) : InOrder queue (v.ports.arrive env) := by
  intro i
  simp only [Ports.arrive]
  rw [← List.append_assoc, h i, List.append_assoc]

theorem InOrder.tookNone {p : Ports E} (h : InOrder queue p) : InOrder queue (p.took p.queue (.empty i)) := by
  intro j
  simpa [Ports.took] using h j

theorem InOrder.took {p : Ports E} {event : E} {rest : List E} {res : HandlerResult} (h : InOrder queue p)
    (hq : p.queue i = event :: rest) :
    InOrder queue (p.took (Function.update p.queue i rest) (.served i event res)) := by
  intro j
  by_cases hij : i = j
  · subst hij
    simp [Ports.took, h i, hq]
  · simp [Ports.took, h j, hij, Function.update_of_ne (Ne.symm hij)]

/-- What holds of the variables before the code for port `i`, in a round that
looks at the ports from `start` on; with work done in it the count is `base` at
least. -/
structure At (n maxEvents skip : Nat) (queue : Nat → List E) (start base i : Nat) (turns : List (Turn E))
    (v : Vars E) : Prop where
  trace : v.ports.trace = turns.flatMap Turn.steps
  count : v.count = dequeued v.ports.trace
  le : v.count ≤ maxEvents
  fifo : InOrder queue v.ports
  ok : ∀ t ∈ turns, t.result = .ok
  circle : RoundRobin.Follows n (startAt n skip) (turns.map Turn.move) (startAt n (max i start))
  idle : v.doneWork = false → start = 0 ∧ ∀ j < i, Turn.empty j ∈ turns.rtakeWhile Turn.isEmpty
  low : base ≤ v.count + 1
  work : v.doneWork = true → base ≤ v.count

/-- After a look at port `i` the next one is behind it. -/
theorem next_move {t : RoundRobin.Turn} (hs : start ≤ i) (hi : i < n) (ht : t = (i, true)) :
    t.1 = startAt n (max i start) ∧ startAt n (max (i + 1) start) = t.next n := by
  subst ht
  rw [Nat.max_eq_left hs, Nat.max_eq_left (Nat.le_succ_of_le hs)]
  exact ⟨(if_pos hi).symm, rfl⟩

theorem At.empty {base : Nat} (h : At n maxEvents skip queue start base i turns v) (hs : start ≤ i) (hi : i < n) :
    At n maxEvents skip queue start base (i + 1) (turns ++ [.empty i]) { v with
      ports := (v.ports.arrive env).took (v.ports.arrive env).queue (.empty i) } := by
  obtain ⟨hmove, hnext⟩ := next_move hs hi rfl
  refine ⟨by simp [Ports.took, Ports.arrive, h.trace], by simp [Ports.took, Ports.arrive, h.count], h.le,
    h.fifo.arrive.tookNone, ?_, ?_, ?_, h.low, h.work⟩
  · simpa [or_imp, forall_and, Turn.result] using h.ok
  · rw [List.map_append, hnext]
    exact RoundRobin.follows_concat.mpr ⟨hmove ▸ h.circle, rfl⟩
  · intro hw
    refine ⟨(h.idle hw).1, fun j hj => ?_⟩
    rw [List.rtakeWhile_concat_pos _ _ _ rfl, List.mem_append, List.mem_singleton]
    rcases Nat.lt_succ_iff_lt_or_eq.mp hj with hj | rfl
    · exact .inl ((h.idle hw).2 j hj)
    · exact .inr rfl

theorem At.done {base : Nat} {event : E} {rest : List E} (h : At n maxEvents skip queue start base i turns v)
    (hs : start ≤ i) (hi : i < n) (hlt : v.count < maxEvents)
    (hq : (v.ports.arrive env).queue i = event :: rest) :
    At n maxEvents skip queue start base (i + 1) (turns ++ [.served i event .ok]) {
      ports := (v.ports.arrive env).took (Function.update (v.ports.arrive env).queue i rest)
        (.served i event .ok)
      count := v.count + 1
      doneWork := true } := by
  obtain ⟨hmove, hnext⟩ := next_move hs hi rfl
  refine ⟨by simp [Ports.took, Ports.arrive, h.trace], by simp [Ports.took, Ports.arrive, h.count], hlt,
    h.fifo.arrive.took hq, ?_, ?_, (fun hw => nomatch hw),
    Nat.le_succ_of_le h.low, fun _ => h.low⟩
  · simpa [or_imp, forall_and, Turn.result] using h.ok
  · rw [List.map_append, hnext]
    exact RoundRobin.follows_concat.mpr ⟨hmove ▸ h.circle, rfl⟩

/-- A call that ends with `next` as the next port and nothing amiss. -/
theorem At.exact {base : Nat} (next : Nat) (h : At n maxEvents skip queue start base i turns v)
    (hi : startAt n (max i start) = startAt n next)
    (hidle : v.count < maxEvents → ∀ j < n, Turn.empty j ∈ turns.rtakeWhile Turn.isEmpty) :
    Exact n maxEvents skip queue (.new false v.count next) v.ports turns where
  trace := h.trace
  count := h.count
  le := h.le
  fifo := h.fifo
  stops t ht := h.ok t (List.mem_of_mem_dropLast ht)
  outcome := by
    cases hlast : turns.getLast? with
    | none => rfl
    | some t => exact (h.ok t (List.mem_of_getLast? hlast)).symm
  idle _ _ _ := hidle
  circle := hi ▸ h.circle

/-- A call that ends with what a handler returned. -/
theorem At.stopped {base : Nat} {event : E} {rest : List E} {res : HandlerResult} {r : ExecuteResult}
    (h : At n maxEvents skip queue start base i turns v) (hs : start ≤ i) (hi : i < n)
    (hlt : v.count < maxEvents) (hq : (v.ports.arrive env).queue i = event :: rest) (hres : res ≠ .ok)
    (hr : r.outcome = res) (hcount : r.count = v.count + 1) (hskip : r.skip = i) :
    Exact n maxEvents skip queue r ((v.ports.arrive env).took
      (Function.update (v.ports.arrive env).queue i rest) (.served i event res))
      (turns ++ [.served i event res]) where
  trace := by simp [Ports.took, Ports.arrive, h.trace]
  count := by simp [Ports.took, Ports.arrive, hcount, h.count]
  le := hcount ▸ hlt
  fifo := h.fifo.arrive.took hq
  stops := by simpa using h.ok
  outcome := by simpa [Turn.result] using hr
  idle hb hsh he := by
    refine absurd hr ?_
    simpa [ExecuteResult.outcome, hb, hsh, he] using hres.symm
  circle := by
    rw [List.map_append]
    refine RoundRobin.follows_concat.mpr ⟨?_, ?_⟩
    · simpa [Turn.move, startAt, hi, Nat.max_eq_left hs] using h.circle
    · simp [RoundRobin.Turn.next, Turn.move, hres, hskip, startAt, hi]

end Invariant

/-! ## The loops -/

/-- What holds after code that may return early. -/
def Ends {V R : Type} (I : V → Prop) (P : R → Prop) : Except R V → Prop
  | .ok v => I v
  | .error r => P r

/-- A loop with early returns: each pass leads from what holds before it to
what holds before the next one, or returns. -/
theorem ends_foldlM {V R : Type} {f : V → Nat → Except R V} {I : Nat → V → Prop} {P : R → Prop} {v : V} (n : Nat)
    (hstep : ∀ i < n, ∀ v, I i v → Ends (I (i + 1)) P (f v i)) (h : I 0 v) :
    Ends (I n) P ((List.range n).foldlM f v) := by
  induction n with
  | zero => exact h
  | succ n ih =>
    rw [List.range_succ, List.foldlM_append]
    have hn := ih fun i hi => hstep i (Nat.lt_succ_of_lt hi)
    cases hf : (List.range n).foldlM f v with
    | error r =>
      rw [hf] at hn
      exact hn
    | ok v =>
      rw [hf] at hn
      change Ends (I (n + 1)) P ([n].foldlM f v)
      rw [List.foldlM_cons]
      simp only [List.foldlM_nil, bind_pure]
      exact hstep n (Nat.lt_succ_self n) v hn

section Loops

variable {env : Environment E} {n maxEvents skip : Nat} {queue : Nat → List E}

/-- What holds of a call that returned. -/
abbrev Did (n maxEvents skip : Nat) (queue : Nat → List E) (out : ExecuteResult × Ports E) : Prop :=
  ∃ turns, Exact n maxEvents skip queue out.1 out.2 turns

theorem portHandleSkip_ends {start base i : Nat} {v : Vars E} (hi : i < n)
    (h : ∃ turns, At n maxEvents skip queue start base i turns v) :
    Ends (fun v => ∃ turns, At n maxEvents skip queue start base (i + 1) turns v)
      (Did n maxEvents skip queue) (portHandleSkip env maxEvents start i v) := by
  obtain ⟨turns, h⟩ := h
  unfold portHandleSkip
  split
  · rename_i hs
    have hcases := portHandle_cases env maxEvents i v
    generalize portHandle env maxEvents i v = out at hcases
    cases hcases with
    | quota hle =>
      exact ⟨turns, h.exact i (by rw [Nat.max_eq_left hs]) fun hlt => absurd hlt (Nat.not_lt.mpr hle)⟩
    | empty hlt => exact ⟨_, h.empty hs hi⟩
    | done hlt hq => exact ⟨_, h.done hs hi hlt hq⟩
    | stopped hlt hq hres hr hcount hskip => exact ⟨_, h.stopped hs hi hlt hq hres hr hcount hskip⟩
  · rename_i hs
    have hle : i + 1 ≤ start := Nat.lt_of_not_le hs
    refine ⟨turns, { h with circle := ?_, idle := fun hw => ?_ }⟩
    · have hcircle := h.circle
      rwa [Nat.max_eq_right (Nat.le_of_succ_le hle), ← Nat.max_eq_right hle] at hcircle
    · exact absurd ((h.idle hw).1 ▸ Nat.zero_le i) hs

theorem portHandlesSkip_ends (env : Environment E) {start base : Nat} {v : Vars E}
    (h : ∃ turns, At n maxEvents skip queue start base 0 turns v) :
    Ends (fun v => ∃ turns, At n maxEvents skip queue start base n turns v)
      (Did n maxEvents skip queue) (portHandlesSkip env n maxEvents start v) :=
  ends_foldlM (I := fun i v => ∃ turns, At n maxEvents skip queue start base i turns v) n
    (fun _ hi _ h => portHandleSkip_ends hi h) h

/-- The rounds of the loop are rounds from the first port on. -/
theorem portHandles_eq (v : Vars E) : portHandles env n maxEvents v = portHandlesSkip env n maxEvents 0 v := by
  simp [portHandles, portHandlesSkip, portHandleSkip]

theorem startAt_max {start : Nat} : startAt n (max n start) = 0 :=
  if_neg (Nat.not_lt.mpr (Nat.le_max_left n start))

theorem startAt_zero : startAt n 0 = 0 := by
  unfold startAt
  split <;> rfl

/-- Where a round has ended the next one can start. -/
theorem At.again {start base : Nat} {v : Vars E} {turns : List (Turn E)}
    (h : At n maxEvents skip queue start base n turns v) :
    At n maxEvents skip queue 0 (v.count + 1) 0 turns { v with doneWork := false } where
  trace := h.trace
  count := h.count
  le := h.le
  fifo := h.fifo
  ok := h.ok
  circle := by
    have hcircle := h.circle
    rwa [startAt_max, ← startAt_zero (n := n)] at hcircle
  idle _ := ⟨rfl, fun j hj => absurd hj (Nat.not_lt_zero j)⟩
  low := Nat.le_refl _
  work hw := nomatch hw

/-- Every round but the last handles an event, so that the loop ends. -/
theorem whileDoneWork_did {start base fuel : Nat} {v : Vars E} {turns : List (Turn E)}
    (h : At n maxEvents skip queue start base n turns v)
    (hfuel : (if v.doneWork then maxEvents - v.count + 2 else 1) ≤ fuel) :
    ∃ out, whileDoneWork env n maxEvents fuel v = some out ∧ Did n maxEvents skip queue out := by
  induction fuel generalizing start base v turns with
  | zero => split at hfuel <;> omega
  | succ fuel ih =>
    unfold whileDoneWork
    cases hw : v.doneWork with
    | false =>
      exact ⟨_, rfl, turns, h.exact 0 (by rw [startAt_max, startAt_zero]) fun _ => (h.idle hw).2⟩
    | true =>
      rw [hw, if_pos rfl] at hfuel
      have hpass := portHandlesSkip_ends env ⟨turns, h.again⟩
      rw [← portHandles_eq] at hpass
      rw [if_pos rfl]
      generalize portHandles env n maxEvents { v with doneWork := false } = out at hpass
      cases out with
      | error r => exact ⟨r, rfl, hpass⟩
      | ok v' =>
        obtain ⟨turns', h'⟩ := hpass
        refine ih h' ?_
        have hle := h'.le
        split
        · have hwork := h'.work ‹_›
          omega
        · omega

/-- The variables at the start of a call. -/
theorem at_start (n maxEvents skip : Nat) (queue : Nat → List E) : At n maxEvents skip queue skip 0 0 []
    { ports := Ports.new queue, count := 0, doneWork := true } where
  trace := rfl
  count := rfl
  le := Nat.zero_le _
  fifo := inOrder_new
  ok := by simp
  circle := by simp [RoundRobin.Follows]
  idle hw := nomatch hw
  low := Nat.zero_le _
  work _ := Nat.zero_le _

/-- A call returns, and what it did is exact. -/
theorem execute_did (env : Environment E) (n maxEvents skip : Nat) (queue : Nat → List E) :
    ∃ out, execute env n maxEvents skip (Ports.new queue) = some out ∧ Did n maxEvents skip queue out := by
  unfold execute
  split
  · rename_i hn
    subst hn
    exact ⟨_, rfl, [], (at_start 0 maxEvents skip queue).exact 0 (by simp [startAt]) fun _ j hj => absurd hj (Nat.not_lt_zero j)⟩
  · have hpass := portHandlesSkip_ends env ⟨[], at_start n maxEvents skip queue⟩
    generalize portHandlesSkip env n maxEvents skip _ = out at hpass
    cases out with
    | error r => exact ⟨r, rfl, hpass⟩
    | ok v =>
      obtain ⟨turns, h⟩ := hpass
      refine whileDoneWork_did h ?_
      split <;> omega

end Loops

/-- A call returns, whatever the queues, the quota, `skip` and the handlers,
and did what `Exact` says. -/
theorem execute_exact (env : Environment E) (n maxEvents skip : Nat) (queue : Nat → List E) :
    ∃ r p turns, execute env n maxEvents skip (Ports.new queue) = some (r, p) ∧
      Exact n maxEvents skip queue r p turns := by
  obtain ⟨⟨r, p⟩, hout, turns, h⟩ := execute_did env n maxEvents skip queue
  exact ⟨r, p, turns, hout, h⟩

/-! ## Fairness -/

/-- What a sequence of calls left, and what happened in all of them. -/
structure Calls (E : Type) where
  skip : Nat
  queue : Nat → List E
  trace : List (PortStep E)

/-- Calls with the given quotas, each with the `skip` that the last one returned. -/
def executeAll (n : Nat) : List (Environment E × Nat) → Nat → (Nat → List E) → Option (Calls E)
  | [], skip, queue => some { skip, queue, trace := [] }
  | (env, maxEvents) :: calls, skip, queue => do
    let (r, p) ← execute env n maxEvents skip (Ports.new queue)
    let rest ← executeAll n calls r.skip p.queue
    some { rest with trace := p.trace ++ rest.trace }

/-- At every moment the numbers of events taken from two ports differ by one at most. -/
def Fair (n : Nat) (trace : List (PortStep E)) : Prop :=
  ∀ us, us <+: trace → ∀ i < n, ∀ j < n, (dequeuedFrom i us).length ≤ (dequeuedFrom j us).length + 1

/-- What the handlers returned, in order. -/
def results (trace : List (PortStep E)) : List HandlerResult :=
  trace.filterMap fun
    | .handle _ _ res => some res
    | _ => none

/-- A handler that is not done with `Ok` has completed a round of the `n`
ports, or was the last. -/
def Steady (n : Nat) (rs : List HandlerResult) : Prop :=
  ∀ k res, rs.dropLast[k]? = some res → res ≠ .ok → n ∣ k + 1

section Fairness

variable {n skip : Nat} {queue : Nat → List E} {calls : List (Environment E × Nat)} {turns : List (Turn E)}

/-- The calls together take turns in a circle. -/
theorem executeAll_circle (n : Nat) (calls : List (Environment E × Nat)) (skip : Nat) (queue : Nat → List E) :
    ∃ (out : Calls E) (turns : List (Turn E)), executeAll n calls skip queue = some out ∧
      out.trace = turns.flatMap Turn.steps ∧
      RoundRobin.Follows n (startAt n skip) (turns.map Turn.move) (startAt n out.skip) := by
  induction calls generalizing skip queue with
  | nil => exact ⟨_, [], rfl, rfl, rfl⟩
  | cons call calls ih =>
    obtain ⟨env, maxEvents⟩ := call
    obtain ⟨⟨r, p⟩, hout, turns, h⟩ := execute_did env n maxEvents skip queue
    obtain ⟨rest, turns', hrest, htrace, hcircle⟩ := ih r.skip p.queue
    refine ⟨{ rest with trace := p.trace ++ rest.trace }, turns ++ turns', ?_, ?_, ?_⟩
    · simp [executeAll, hout, hrest]
    · rw [List.flatMap_append, ← h.trace, ← htrace]
    · rw [List.map_append]
      exact RoundRobin.follows_append.mpr ⟨_, h.circle, hcircle⟩

/-- Without ports nothing happens. -/
theorem executeAll_zero {out : Calls E} (h : executeAll 0 calls skip queue = some out) : out.trace = [] := by
  induction calls generalizing skip queue out with
  | nil =>
    obtain rfl := Option.some.inj h
    rfl
  | cons call calls ih =>
    simp only [executeAll, execute, if_true, Option.bind_eq_bind, Option.bind_some, Option.bind_eq_some_iff,
      Option.some.injEq] at h
    obtain ⟨rest, hrest, rfl⟩ := h
    simpa [Ports.new] using ih hrest

/-- The turns of a trace in which no queue is found empty. -/
def Busy (turns : List (Turn E)) : Prop := ∀ t ∈ turns, t.isEmpty = false

theorem busy_of_trace (h : ∀ i, .empty i ∉ turns.flatMap Turn.steps) : Busy turns := by
  intro t ht
  cases t with
  | empty i => exact absurd (List.mem_flatMap.mpr ⟨_, ht, List.mem_singleton_self _⟩) (h i)
  | served i event res => rfl

theorem Busy.results (h : Busy turns) : results (turns.flatMap Turn.steps) = turns.map Turn.result := by
  induction turns with
  | nil => rfl
  | cons t turns ih =>
    obtain ⟨ht, hts⟩ := List.forall_mem_cons.mp h
    cases t with
    | empty i => cases ht
    | served i event res => exact congrArg (res :: ·) (ih hts)

theorem Busy.taken (h : Busy turns) (i : Nat) :
    (dequeuedFrom i (turns.flatMap Turn.steps)).length = RoundRobin.served (turns.map Turn.move) i := by
  induction turns with
  | nil => rfl
  | cons t turns ih =>
    obtain ⟨ht, hts⟩ := List.forall_mem_cons.mp h
    cases t with
    | empty i => cases ht
    | served j event res =>
      have hserved : RoundRobin.served ((Turn.served j event res).move :: turns.map Turn.move) i =
          RoundRobin.served (turns.map Turn.move) i + if j = i then 1 else 0 := by
        simp [RoundRobin.served, Turn.move, List.countP_cons]
      rw [List.flatMap_cons, dequeuedFrom_append, List.length_append, ih hts, List.map_cons, hserved,
        dequeuedFrom_served]
      split <;> simp [Nat.add_comm]

/-- What was taken at a moment is what was taken after some of the turns. -/
theorem Busy.moment (h : Busy turns) {us : List (PortStep E)} (hus : us <+: turns.flatMap Turn.steps) :
    ∃ vs, vs <+: turns ∧ ∀ i, dequeuedFrom i us = dequeuedFrom i (vs.flatMap Turn.steps) := by
  induction turns generalizing us with
  | nil =>
    rw [List.prefix_nil.mp hus]
    exact ⟨[], List.nil_prefix, fun _ => rfl⟩
  | cons t turns ih =>
    obtain ⟨ht, hts⟩ := List.forall_mem_cons.mp h
    cases t with
    | empty i => cases ht
    | served j event res =>
      rcases List.prefix_cons_iff.mp hus with rfl | ⟨us₁, rfl, hus₁⟩
      · exact ⟨[], List.nil_prefix, fun _ => rfl⟩
      rcases List.prefix_cons_iff.mp hus₁ with rfl | ⟨us₂, rfl, hus₂⟩
      · exact ⟨[.served j event res], (List.prefix_append [_] turns), fun i => rfl⟩
      obtain ⟨vs, hvs, heq⟩ := ih hts hus₂
      refine ⟨.served j event res :: vs, List.prefix_cons_inj _ |>.mpr hvs, fun i => ?_⟩
      rw [List.flatMap_cons, dequeuedFrom_append, ← heq i, ← dequeuedFrom_append]
      rfl

theorem Busy.of_prefix {vs : List (Turn E)} (h : Busy turns) (hvs : vs <+: turns) : Busy vs :=
  fun t ht => h t (hvs.subset ht)

/-- Fairness at every moment is fairness after every turn. -/
theorem Busy.fair_iff (h : Busy turns) :
    Fair n (turns.flatMap Turn.steps) ↔ ∀ us, us <+: turns.map Turn.move → RoundRobin.Fair n us := by
  constructor
  · intro hf us hus i hi j hj
    obtain ⟨vs, hvs, rfl⟩ := List.prefix_map_iff.mp hus
    rw [← (h.of_prefix hvs).taken, ← (h.of_prefix hvs).taken]
    exact hf _ (hvs.flatMap Turn.steps) i hi j hj
  · intro hf us hus i hi j hj
    obtain ⟨vs, hvs, heq⟩ := h.moment hus
    rw [heq i, heq j, (h.of_prefix hvs).taken, (h.of_prefix hvs).taken]
    exact hf _ (hvs.map Turn.move) i hi j hj

theorem Turn.move_snd (t : Turn E) : t.move.2 = decide (t.result = .ok) := by
  cases t with
  | empty i => rfl
  | served i event res => rfl

theorem steady_iff : RoundRobin.Steady n (turns.map Turn.move) ↔ Steady n (turns.map Turn.result) := by
  unfold RoundRobin.Steady RoundRobin.Settled Steady
  simp only [← List.map_dropLast, List.getElem?_map, Option.map_eq_some_iff, forall_exists_index, and_imp]
  constructor
  · rintro h k res t ht rfl hres
    exact h k t.move t ht rfl (by simpa [t.move_snd] using hres)
  · rintro h k m t ht rfl hm
    exact h k t.result t ht rfl (by simpa [t.move_snd] using hm)

end Fairness

/-- Over calls that never find a queue empty, the ports are treated fairly just
when every handler that is not done with `Ok` completes a round, or is the last. -/
theorem executeAll_fair_iff (n : Nat) (calls : List (Environment E × Nat)) (skip : Nat) (queue : Nat → List E) :
    ∃ out, executeAll n calls skip queue = some out ∧
      ((∀ i, .empty i ∉ out.trace) → (Fair n out.trace ↔ Steady n (results out.trace))) := by
  obtain ⟨out, turns, hout, htrace, hcircle⟩ := executeAll_circle n calls skip queue
  refine ⟨out, hout, fun hbusy => ?_⟩
  rcases Nat.eq_zero_or_pos n with rfl | hn
  · rw [executeAll_zero hout]
    exact iff_of_true (fun us _ i hi => absurd hi (Nat.not_lt_zero i)) (fun k res h => by simp [results] at h)
  rw [htrace] at hbusy ⊢
  have hturns := busy_of_trace hbusy
  have hstart : startAt n skip < n := by
    unfold startAt
    split <;> assumption
  rw [hturns.fair_iff, hturns.results, ← steady_iff]
  exact RoundRobin.fair_iff_steady hcircle hstart

/-- Handlers that all return `res` at port 0 and `Ok` elsewhere, and nothing arrives. -/
def firstReturns (res : HandlerResult) : Environment Unit where
  arrives _ _ := []
  handle _ i _ := if i = 0 then res else .ok

/-- Two calls with handlers that return `Ok`. -/
theorem executeAll_fair_iff_ok :
    ∃ out, executeAll 2 [(firstReturns .ok, 3), (firstReturns .ok, 1)] 0 (fun _ => [(), (), ()]) = some out ∧
      (Fair 2 out.trace ↔ Steady 2 (results out.trace)) := by
  obtain ⟨out, hout, h⟩ := executeAll_fair_iff 2 [(firstReturns .ok, 3), (firstReturns .ok, 1)] 0
    (fun _ => [(), (), ()])
  have htrace : (executeAll 2 [(firstReturns .ok, 3), (firstReturns .ok, 1)] 0 (fun _ => [(), (), ()])).map
      Calls.trace = some [.dequeue 0 (), .handle 0 () .ok, .dequeue 1 (), .handle 1 () .ok,
        .dequeue 0 (), .handle 0 () .ok, .dequeue 1 (), .handle 1 () .ok] := rfl
  rw [hout] at htrace
  refine ⟨out, hout, h fun i => ?_⟩
  rw [Option.some.inj htrace]
  simp

/-- A port whose handler fails is served twice before the other one is served at all. -/
theorem executeAll_unfair :
    ∃ out, executeAll 2 [(firstReturns .benign, 1), (firstReturns .benign, 1)] 0 (fun _ => [(), (), ()]) = some out ∧
      (∀ i, .empty i ∉ out.trace) ∧ (∀ i < 2, out.queue i ≠ []) ∧ ¬ Fair 2 out.trace := by
  have htrace : (executeAll 2 [(firstReturns .benign, 1), (firstReturns .benign, 1)] 0 (fun _ => [(), (), ()])).map
      Calls.trace = some [.dequeue 0 (), .handle 0 () .benign, .dequeue 0 (), .handle 0 () .benign] := rfl
  obtain ⟨out, hout, htrace⟩ := Option.map_eq_some_iff.mp htrace
  have hqueue : out.queue 0 = [()] ∧ out.queue 1 = [(), (), ()] := by
    obtain rfl := Option.some.inj hout
    exact ⟨rfl, rfl⟩
  refine ⟨out, hout, by simp [htrace], ?_, fun hfair => ?_⟩
  · intro i hi
    rcases Nat.lt_succ_iff_lt_or_eq.mp hi with h | rfl
    · rw [Nat.lt_one_iff.mp h, hqueue.1]
      simp
    · rw [hqueue.2]
      simp
  · have htwo := hfair out.trace (List.prefix_refl _) 0 (by decide) 1 (by decide)
    rw [htrace] at htwo
    simp [dequeuedFrom] at htwo

end Kompact.Component
