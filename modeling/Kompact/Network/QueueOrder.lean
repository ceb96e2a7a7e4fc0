import Kompact.Framework.TwoLevelFifo
import Kompact.Network.QueueManager

/-!
# The order of the queued messages

For every address the two maps of queues are a queue with two levels, whatever
is done for other addresses in between (`Refines`): what is taken for an
address is what `TwoLevel` returns for the operations on this address alone.
-/

namespace Kompact.QueueManager

variable {α : Type} {q : QueueManager α} {a dst : SocketAddr}

inductive Op (α : Type) where
  | enqueueData (data : α) (dst : SocketAddr)
  | enqueuePriorityData (data : α) (dst : SocketAddr)
  | popData (dst : SocketAddr)
  | dropQueue (addr : SocketAddr)

namespace Op

def addr : Op α → SocketAddr
  | .enqueueData _ dst => dst
  | .enqueuePriorityData _ dst => dst
  | .popData dst => dst
  | .dropQueue addr => addr

/-- What the operation is for its own address. -/
def onQueue : Op α → TwoLevelOp α
  | .enqueueData data _ => .put data
  | .enqueuePriorityData data _ => .putPriority data
  | .popData _ => .pop
  | .dropQueue _ => .discard

end Op

/-- The queues, and what `pop_data` returned for each address in turn. -/
structure History (α : Type) where
  queues : QueueManager α
  popped : SocketAddr → List (Option α)

def History.step (h : History α) : Op α → History α
  | .enqueueData data dst => { h with queues := h.queues.enqueueData data dst }
  | .enqueuePriorityData data dst => { h with queues := h.queues.enqueuePriorityData data dst }
  | .popData dst =>
    let (res, queues) := h.queues.popData dst
    ⟨queues, Function.update h.popped dst (h.popped dst ++ [res])⟩
  | .dropQueue addr => { h with queues := h.queues.dropQueue addr }

def run (ops : List (Op α)) : History α := ops.foldl History.step ⟨new, fun _ => []⟩

theorem run_concat (ops : List (Op α)) (op : Op α) : run (ops ++ [op]) = (run ops).step op := by
  simp [run]

/-- The operations on one address. -/
def opsOn (a : SocketAddr) (ops : List (Op α)) : List (TwoLevelOp α) := (ops.filter fun op => op.addr = a).map Op.onQueue

theorem opsOn_concat (ops : List (Op α)) (op : Op α) :
    opsOn a (ops ++ [op]) = opsOn a ops ++ if op.addr = a then [op.onQueue] else [] := by
  unfold opsOn
  rw [List.filter_append, List.map_append]
  by_cases h : op.addr = a <;> simp [h]

/-- The queues of an address are the lanes of `t`, and so is what was taken for it. -/
structure Refines (h : History α) (a : SocketAddr) (t : TwoLevel α) : Prop where
  priority : h.queues.priorityQueue.lookupD a [] = t.priority.waiting
  normal : h.queues.inner.lookupD a [] = t.normal.waiting
  popped : h.popped a = t.returned

/-- What is taken for an address, by its two queues. -/
theorem popData_queues (q : QueueManager α) (dst : SocketAddr) :
    (q.popData dst).1 = (q.priorityQueue.lookupD dst []).head?.or (q.inner.lookupD dst []).head? ∧
      (q.popData dst).2.priorityQueue.lookupD dst [] = (q.priorityQueue.lookupD dst []).tail ∧
      (q.popData dst).2.inner.lookupD dst [] =
        if (q.priorityQueue.lookupD dst []).isEmpty then (q.inner.lookupD dst []).tail else q.inner.lookupD dst [] := by
  obtain ⟨hp, hp'⟩ := popFrom_spec q.priorityQueue dst
  obtain ⟨hi, hi'⟩ := popFrom_spec q.inner dst
  have hp' := hp' dst
  have hi' := hi' dst
  rw [if_pos rfl] at hp' hi'
  unfold popData
  rcases hpop : popFrom q.priorityQueue dst with ⟨_ | x, priorityQueue⟩
  · rw [hpop] at hp hp'
    have hnil : q.priorityQueue.lookupD dst [] = [] := List.head?_eq_none_iff.mp hp.symm
    rw [hnil]
    rw [hnil] at hp'
    exact ⟨hi, hp', hi'⟩
  · rw [hpop] at hp hp'
    obtain ⟨rest, hrest⟩ := List.head?_eq_some_iff.mp hp.symm
    rw [hrest]
    rw [hrest] at hp'
    exact ⟨rfl, hp', rfl⟩

/-- An operation on another address changes nothing. -/
theorem refines_other {h : History α} {t : TwoLevel α} (hr : Refines h a t) {op : Op α} (hop : op.addr ≠ a) :
    Refines (h.step op) a t := by
  obtain ⟨hpriority, hnormal, hpopped⟩ := hr
  cases op with
  | enqueueData data dst =>
    refine ⟨hpriority, ?_, hpopped⟩
    exact (AssocMap.lookupD_insert ..).trans ((if_neg (Ne.symm hop)).trans hnormal)
  | enqueuePriorityData data dst =>
    refine ⟨?_, hnormal, hpopped⟩
    exact (AssocMap.lookupD_insert ..).trans ((if_neg (Ne.symm hop)).trans hpriority)
  | popData dst =>
    obtain ⟨hp, hi⟩ := popData_others (q := h.queues) (Ne.symm hop)
    exact ⟨hp.trans hpriority, hi.trans hnormal, (Function.update_of_ne (Ne.symm hop) _ _).trans hpopped⟩
  | dropQueue addr =>
    refine ⟨?_, ?_, hpopped⟩
    · exact (AssocMap.lookupD_erase ..).trans ((if_neg (Ne.symm hop)).trans hpriority)
    · exact (AssocMap.lookupD_erase ..).trans ((if_neg (Ne.symm hop)).trans hnormal)

/-- An operation on the address is the one on its two lanes. -/
theorem refines_own {h : History α} {t : TwoLevel α} (op : Op α) (hr : Refines h op.addr t) :
    Refines (h.step op) op.addr (t.step op.onQueue) := by
  obtain ⟨hpriority, hnormal, hpopped⟩ := hr
  cases op with
  | enqueueData data dst =>
    refine ⟨hpriority, ?_, hpopped⟩
    refine (AssocMap.lookupD_insert ..).trans ((if_pos rfl).trans ?_)
    exact congrArg (· ++ [data]) hnormal
  | enqueuePriorityData data dst =>
    refine ⟨?_, hnormal, hpopped⟩
    refine (AssocMap.lookupD_insert ..).trans ((if_pos rfl).trans ?_)
    exact congrArg (· ++ [data]) hpriority
  | popData dst =>
    obtain ⟨hres, hp, hi⟩ := popData_queues h.queues dst
    rw [show (Op.popData dst : Op α).addr = dst from rfl] at hpriority hnormal hpopped
    rw [hpriority, hnormal] at hres hi
    rw [hpriority] at hp
    have hreturned : ((h.step (.popData dst)).popped dst) = t.returned ++ [t.oldest] := by
      refine (Function.update_self ..).trans ?_
      show h.popped dst ++ [(h.queues.popData dst).1] = _
      rw [hpopped, hres]
      rfl
    show Refines _ dst (t.step .pop)
    cases hw : t.priority.waiting with
    | nil =>
      rw [hw] at hp hi
      rw [TwoLevel.step_pop_nil hw]
      exact ⟨hp.trans hw.symm, hi.trans (Lane.waiting_take _).symm, hreturned⟩
    | cons x rest =>
      rw [TwoLevel.step_pop_cons hw]
      rw [hw] at hi
      exact ⟨hp.trans (Lane.waiting_take _).symm, hi, hreturned⟩
  | dropQueue addr =>
    refine ⟨?_, ?_, hpopped⟩
    · exact (AssocMap.lookupD_erase ..).trans (if_pos rfl)
    · exact (AssocMap.lookupD_erase ..).trans (if_pos rfl)

theorem refines_run (ops : List (Op α)) (a : SocketAddr) : Refines (run ops) a (TwoLevel.run (opsOn a ops)) := by
  induction ops using List.reverseRecOn with
  | nil => exact ⟨rfl, rfl, rfl⟩
  | append_singleton ops op ih =>
    rw [run_concat, opsOn_concat]
    by_cases hop : op.addr = a
    · subst hop
      rw [if_pos rfl, TwoLevel.run_concat]
      exact refines_own op ih
    · rw [if_neg hop, List.append_nil]
      exact refines_other ih hop

/-- After any operations, for every address: the next message taken is the oldest of its priority
queue, or else of the other one, and there is one if `has_data` says so. What was enqueued in either
queue is what left it, each once and in order, and what is waiting; what was returned is what was
taken. All this depends only on the operations on this address. -/
theorem queues_fifo (ops : List (Op α)) (a : SocketAddr) :
    let t := TwoLevel.run (opsOn a ops)
    ((run ops).queues.popData a).1 = t.oldest ∧
      ((run ops).queues.hasData a = true ↔ ((run ops).queues.popData a).1.isSome = true) ∧
      t.priority.left.map Prod.snd ++ t.priority.waiting = (opsOn a ops).filterMap TwoLevelOp.priorityPut ∧
      t.normal.left.map Prod.snd ++ t.normal.waiting = (opsOn a ops).filterMap TwoLevelOp.normalPut ∧
      (run ops).popped a = t.returned ∧
      ((run ops).popped a).reduceOption.Perm (t.priority.taken ++ t.normal.taken) := by
  intro t
  obtain ⟨hpriority, hnormal, hpopped⟩ := refines_run ops a
  obtain ⟨harrived, harrivedPriority⟩ := TwoLevel.arrived_run (opsOn a ops)
  refine ⟨?_, ?_, harrivedPriority, harrived, hpopped, hpopped ▸ TwoLevel.accounted (opsOn a ops)⟩
  · rw [(popData_queues _ a).1, hpriority, hnormal]
    rfl
  · rw [hasData_iff, (popData_spec _ a).1, List.isSome_head?]

end Kompact.QueueManager
