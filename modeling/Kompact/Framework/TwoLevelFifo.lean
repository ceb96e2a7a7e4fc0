import Mathlib.Data.List.Induction
import Mathlib.Data.List.ReduceOption
import Mathlib.Data.List.Perm.Basic

/-!
# A queue with two levels

Two first-in first-out lanes, of which the second is served only while the
first is empty. Each lane keeps what left it, in order, with what became of it,
so that everything that ever arrived is what left followed by what is waiting
(`Lane.arrived`). What was returned is what was taken from the two lanes
(`TwoLevel.accounted`).
-/

namespace Kompact

/-- What became of an item that left a lane. -/
inductive Fate where
  | taken
  | discarded
  deriving DecidableEq, Repr

/-- A first-in first-out queue, with the items that left it in order. -/
structure Lane (α : Type) where
  left : List (Fate × α)
  waiting : List α

namespace Lane

variable {α : Type}

def empty : Lane α := ⟨[], []⟩

def put (lane : Lane α) (x : α) : Lane α := { lane with waiting := lane.waiting ++ [x] }

/-- Take the oldest item. -/
def take (lane : Lane α) : Lane α :=
  match lane.waiting with
  | x :: rest => ⟨lane.left ++ [(.taken, x)], rest⟩
  | [] => lane

def discard (lane : Lane α) : Lane α := ⟨lane.left ++ lane.waiting.map fun x => (.discarded, x), []⟩

/-- Everything that arrived, in order: what left, and what is waiting. -/
def arrived (lane : Lane α) : List α := lane.left.map Prod.snd ++ lane.waiting

def taken (lane : Lane α) : List α := (lane.left.filter fun p => p.1 = .taken).map Prod.snd

@[simp] theorem arrived_put (lane : Lane α) (x : α) : (lane.put x).arrived = lane.arrived ++ [x] := by
  simp [arrived, put]

@[simp] theorem arrived_take (lane : Lane α) : lane.take.arrived = lane.arrived := by
  unfold take
  split
  · rename_i x rest h
    simp [arrived, h]
  · rfl

@[simp] theorem arrived_discard (lane : Lane α) : lane.discard.arrived = lane.arrived := by
  simp [arrived, discard, Function.comp_def]

@[simp] theorem waiting_take (lane : Lane α) : lane.take.waiting = lane.waiting.tail := by
  unfold take
  split
  · rename_i x rest h
    rw [h]; rfl
  · rename_i h
    rw [h]; rfl

@[simp] theorem taken_put (lane : Lane α) (x : α) : (lane.put x).taken = lane.taken := rfl

@[simp] theorem taken_take (lane : Lane α) : lane.take.taken = lane.taken ++ lane.waiting.head?.toList := by
  unfold take
  split
  · rename_i x rest h
    simp [taken, h]
  · rename_i h
    simp [h]

@[simp] theorem taken_discard (lane : Lane α) : lane.discard.taken = lane.taken := by
  simp [taken, discard, List.filter_map, Function.comp_def]

end Lane

/-- Two lanes, and what was returned in turn. -/
structure TwoLevel (α : Type) where
  priority : Lane α
  normal : Lane α
  returned : List (Option α)

inductive TwoLevelOp (α : Type) where
  | put (x : α)
  | putPriority (x : α)
  | pop
  | discard

namespace TwoLevelOp

variable {α : Type}

/-- What the operation puts into the normal lane. -/
def normalPut : TwoLevelOp α → Option α
  | .put x => some x
  | _ => none

def priorityPut : TwoLevelOp α → Option α
  | .putPriority x => some x
  | _ => none

end TwoLevelOp

namespace TwoLevel

variable {α : Type}

def empty : TwoLevel α := ⟨.empty, .empty, []⟩

/-- The oldest item of the priority lane, or else of the other one. -/
def oldest (t : TwoLevel α) : Option α := t.priority.waiting.head?.or t.normal.waiting.head?

def step (t : TwoLevel α) : TwoLevelOp α → TwoLevel α
  | .put x => { t with normal := t.normal.put x }
  | .putPriority x => { t with priority := t.priority.put x }
  | .pop =>
    let returned := t.returned ++ [t.oldest]
    if t.priority.waiting.isEmpty then { t with normal := t.normal.take, returned }
    else { t with priority := t.priority.take, returned }
  | .discard => { t with priority := t.priority.discard, normal := t.normal.discard }

theorem step_pop_nil {t : TwoLevel α} (h : t.priority.waiting = []) :
    t.step .pop = { t with normal := t.normal.take, returned := t.returned ++ [t.oldest] } := by
  simp [step, h]

theorem step_pop_cons {t : TwoLevel α} {x : α} {rest : List α} (h : t.priority.waiting = x :: rest) :
    t.step .pop = { t with priority := t.priority.take, returned := t.returned ++ [t.oldest] } := by
  simp [step, h]

def run (ops : List (TwoLevelOp α)) : TwoLevel α := ops.foldl step empty

@[simp] theorem run_concat (ops : List (TwoLevelOp α)) (op : TwoLevelOp α) : run (ops ++ [op]) = (run ops).step op := by
  simp [run]

theorem arrived_step (t : TwoLevel α) (op : TwoLevelOp α) :
    (t.step op).normal.arrived = t.normal.arrived ++ op.normalPut.toList ∧
      (t.step op).priority.arrived = t.priority.arrived ++ op.priorityPut.toList := by
  cases op with
  | pop =>
    cases hp : t.priority.waiting with
    | nil => simp [step_pop_nil hp, TwoLevelOp.normalPut, TwoLevelOp.priorityPut]
    | cons x rest => simp [step_pop_cons hp, TwoLevelOp.normalPut, TwoLevelOp.priorityPut]
  | _ => simp [step, TwoLevelOp.normalPut, TwoLevelOp.priorityPut]

/-- Nothing is lost: what was put in a lane is what left it, in order, and what is waiting there. -/
theorem arrived_run (ops : List (TwoLevelOp α)) :
    (run ops).normal.arrived = ops.filterMap TwoLevelOp.normalPut ∧
      (run ops).priority.arrived = ops.filterMap TwoLevelOp.priorityPut := by
  induction ops using List.reverseRecOn with
  | nil => exact ⟨rfl, rfl⟩
  | append_singleton ops op ih =>
    obtain ⟨hnormal, hpriority⟩ := arrived_step (run ops) op
    rw [run_concat, hnormal, hpriority, ih.1, ih.2, List.filterMap_append, List.filterMap_append]
    refine ⟨congrArg _ ?_, congrArg _ ?_⟩
    · cases h : op.normalPut <;> simp [h]
    · cases h : op.priorityPut <;> simp [h]

/-- Nothing is returned twice: what was returned is what was taken from the lanes. -/
theorem accounted (ops : List (TwoLevelOp α)) :
    (run ops).returned.reduceOption.Perm ((run ops).priority.taken ++ (run ops).normal.taken) := by
  induction ops using List.reverseRecOn with
  | nil => exact .nil
  | append_singleton ops op ih =>
    rw [run_concat]
    cases op with
    | pop =>
      cases hp : (run ops).priority.waiting with
      | nil =>
        rw [step_pop_nil hp]
        simp only [oldest, hp, List.head?_nil, Option.none_or, List.reduceOption_append, Lane.taken_take,
          ← List.append_assoc]
        cases (run ops).normal.waiting.head? with
        | none => simpa using ih
        | some x => exact ih.append_right [x]
      | cons x rest =>
        rw [step_pop_cons hp]
        simp only [oldest, hp, List.head?_cons, Option.some_or, List.reduceOption_append, Lane.taken_take,
          Option.toList_some, List.append_assoc]
        refine (ih.append_right [x]).trans ?_
        rw [List.append_assoc]
        exact List.perm_append_comm.append_left _
    | _ => simpa [step] using ih

end TwoLevel

end Kompact
