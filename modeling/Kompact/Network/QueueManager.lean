import Kompact.Framework.AssocMap
import Kompact.Net.Address

/-!
# The queues of the dispatcher

Messages that wait for a connection, one queue for each address, and the
priority queues for those that were handed back by the network thread. A
message is taken from the priority queue first; `data` is what is queued for
an address in that order.

`popData_spec` says what is taken, and `drain_spec` that the loops which take
messages until there are none get all of them.
-/

namespace Kompact

structure QueueManager (α : Type) where
  inner : AssocMap SocketAddr (List α)
  priorityQueue : AssocMap SocketAddr (List α)

namespace QueueManager

variable {α : Type}

def new : QueueManager α := ⟨∅, ∅⟩

/-- Append to the queue of the address. -/
def enqueueData (q : QueueManager α) (data : α) (dst : SocketAddr) : QueueManager α :=
  { q with inner := q.inner.insert dst (q.inner.lookupD dst [] ++ [data]) }

/-- Append to the priority queue of the address. -/
def enqueuePriorityData (q : QueueManager α) (data : α) (dst : SocketAddr) : QueueManager α :=
  { q with priorityQueue := q.priorityQueue.insert dst (q.priorityQueue.lookupD dst [] ++ [data]) }

/-- Take the next element of one map of queues; an empty queue is removed. -/
def popFrom (m : AssocMap SocketAddr (List α)) (dst : SocketAddr) : Option α × AssocMap SocketAddr (List α) :=
  match m.lookup dst with
  | some (data :: rest) => (some data, m.insert dst rest)
  | some [] => (none, m.erase dst)
  | none => (none, m)

/-- Take the next message for the address. -/
def popData (q : QueueManager α) (dst : SocketAddr) : Option α × QueueManager α :=
  match popFrom q.priorityQueue dst with
  | (some data, priorityQueue) => (some data, { q with priorityQueue })
  | (none, priorityQueue) =>
    match popFrom q.inner dst with
    | (res, inner) => (res, { inner, priorityQueue })

def dropQueue (q : QueueManager α) (addr : SocketAddr) : QueueManager α :=
  ⟨q.inner.erase addr, q.priorityQueue.erase addr⟩

def hasData (q : QueueManager α) (dst : SocketAddr) : Bool :=
  (q.priorityQueue.lookupD dst [] ≠ []) || (q.inner.lookupD dst [] ≠ [])

/-- What is queued for the address, in the order it is taken. -/
def data (q : QueueManager α) (dst : SocketAddr) : List α :=
  q.priorityQueue.lookupD dst [] ++ q.inner.lookupD dst []

/-- `while let Some(data) = pop_data(dst)`: at most `fuel` messages. -/
def drainN (q : QueueManager α) (dst : SocketAddr) : Nat → List α × QueueManager α
  | 0 => ([], q)
  | fuel + 1 =>
    match q.popData dst with
    | (some data, q) =>
      let (rest, q) := q.drainN dst fuel
      (data :: rest, q)
    | (none, q) => ([], q)

/-- Take messages for the address until there are none. -/
def drain (q : QueueManager α) (dst : SocketAddr) : List α × QueueManager α :=
  q.drainN dst ((q.data dst).length + 1)

variable {q : QueueManager α} {a dst : SocketAddr} {x : α}

theorem hasData_iff : q.hasData a = true ↔ q.data a ≠ [] := by
  simp only [hasData, data, Bool.or_eq_true, decide_eq_true_eq, ne_eq, List.append_eq_nil_iff]
  exact not_and_or.symm

theorem data_enqueueData :
    (q.enqueueData x dst).data a = if a = dst then q.data a ++ [x] else q.data a := by
  unfold data enqueueData
  rw [AssocMap.lookupD_insert]
  split
  · subst_vars; rw [List.append_assoc]
  · rfl

theorem data_enqueuePriorityData :
    (q.enqueuePriorityData x dst).data a =
      if a = dst then q.priorityQueue.lookupD a [] ++ [x] ++ q.inner.lookupD a [] else q.data a := by
  unfold data enqueuePriorityData
  rw [AssocMap.lookupD_insert]
  split
  · subst_vars; rfl
  · rfl

theorem data_dropQueue : (q.dropQueue dst).data a = if a = dst then [] else q.data a := by
  unfold data dropQueue
  rw [AssocMap.lookupD_erase, AssocMap.lookupD_erase]
  split <;> rfl

theorem popFrom_spec (m : AssocMap SocketAddr (List α)) (dst : SocketAddr) :
    (popFrom m dst).1 = (m.lookupD dst []).head? ∧
      ∀ a, (popFrom m dst).2.lookupD a [] = if a = dst then (m.lookupD dst []).tail else m.lookupD a [] := by
  have hd : m.lookupD dst [] = (m.lookup dst).getD [] := rfl
  unfold popFrom
  split
  · rename_i data rest h
    rw [hd, h]
    exact ⟨rfl, fun a => AssocMap.lookupD_insert m a dst rest []⟩
  · rename_i h
    rw [hd, h]
    exact ⟨rfl, fun a => AssocMap.lookupD_erase m a dst []⟩
  · rename_i h
    rw [hd, h]
    refine ⟨rfl, fun a => ?_⟩
    split
    · subst_vars; rw [hd, h]; rfl
    · rfl

/-- The first message queued for the address is taken, and nothing else. -/
theorem popData_spec (q : QueueManager α) (dst : SocketAddr) :
    (q.popData dst).1 = (q.data dst).head? ∧
      ∀ a, (q.popData dst).2.data a = if a = dst then (q.data dst).tail else q.data a := by
  obtain ⟨hp, hp'⟩ := popFrom_spec q.priorityQueue dst
  obtain ⟨hi, hi'⟩ := popFrom_spec q.inner dst
  unfold popData
  rcases hpop : popFrom q.priorityQueue dst with ⟨_ | x, priorityQueue⟩
  · rcases hpop' : popFrom q.inner dst with ⟨res, inner⟩
    rw [hpop] at hp hp'
    rw [hpop'] at hi hi'
    have hnil : q.priorityQueue.lookupD dst [] = [] := List.head?_eq_none_iff.mp hp.symm
    refine ⟨?_, fun a => ?_⟩
    · simp only [data, hnil, List.nil_append]
      exact hi
    · simp only [data, hp', hi', hnil, List.nil_append, List.tail_nil]
      split <;> rfl
  · rw [hpop] at hp hp'
    obtain ⟨rest, hrest⟩ : ∃ rest, q.priorityQueue.lookupD dst [] = x :: rest := by
      rcases hq : q.priorityQueue.lookupD dst [] with _ | ⟨y, rest⟩
      · rw [hq] at hp; cases hp
      · rw [hq] at hp
        obtain rfl := Option.some.inj hp
        exact ⟨rest, rfl⟩
    refine ⟨?_, fun a => ?_⟩
    · simp only [data, hrest, List.cons_append, List.head?_cons]
    · simp only [data, hp', hrest]
      split
      · subst_vars; rfl
      · rfl

/-- The two queues of another address are left alone. -/
theorem popData_others (h : a ≠ dst) : (q.popData dst).2.priorityQueue.lookupD a [] = q.priorityQueue.lookupD a [] ∧
    (q.popData dst).2.inner.lookupD a [] = q.inner.lookupD a [] := by
  have hp := (popFrom_spec q.priorityQueue dst).2 a
  have hi := (popFrom_spec q.inner dst).2 a
  rw [if_neg h] at hp hi
  unfold popData
  rcases hpop : popFrom q.priorityQueue dst with ⟨_ | x, priorityQueue⟩
  · rw [hpop] at hp
    exact ⟨hp, hi⟩
  · rw [hpop] at hp
    exact ⟨hp, rfl⟩

theorem drainN_spec (q : QueueManager α) (dst : SocketAddr) (fuel : Nat) (h : (q.data dst).length < fuel) :
    (q.drainN dst fuel).1 = q.data dst ∧
      ∀ a, (q.drainN dst fuel).2.data a = if a = dst then [] else q.data a := by
  induction fuel generalizing q with
  | zero => omega
  | succ fuel ih =>
    obtain ⟨h1, h2⟩ := popData_spec q dst
    rcases hpop : q.popData dst with ⟨_ | x, q'⟩
    · rw [hpop] at h1 h2
      have hnil : q.data dst = [] := List.head?_eq_none_iff.mp h1.symm
      simp only [drainN, hpop]
      refine ⟨hnil.symm, fun a => ?_⟩
      rw [h2 a]
      split
      · rw [hnil]; rfl
      · rfl
    · rw [hpop] at h1 h2
      obtain ⟨rest, hrest⟩ : ∃ rest, q.data dst = x :: rest := by
        rcases hq : q.data dst with _ | ⟨y, rest⟩
        · rw [hq] at h1; cases h1
        · rw [hq] at h1
          obtain rfl := Option.some.inj h1
          exact ⟨rest, rfl⟩
      have hq' : q'.data dst = rest := by rw [h2 dst, if_pos rfl, hrest]; rfl
      obtain ⟨ih1, ih2⟩ := ih q' (by rw [hq']; rw [hrest] at h; simpa using h)
      simp only [drainN, hpop]
      refine ⟨by rw [ih1, hq', hrest], fun a => ?_⟩
      rw [ih2 a]
      split
      · rfl
      · rename_i hne
        rw [h2 a, if_neg hne]

theorem drainN_others (h : a ≠ dst) (fuel : Nat) (q : QueueManager α) :
    (q.drainN dst fuel).2.priorityQueue.lookupD a [] = q.priorityQueue.lookupD a [] ∧
      (q.drainN dst fuel).2.inner.lookupD a [] = q.inner.lookupD a [] := by
  induction fuel generalizing q with
  | zero => exact ⟨rfl, rfl⟩
  | succ fuel ih =>
    have hpop := popData_others (q := q) h
    unfold drainN
    split
    · rename_i x q' hq
      rw [hq] at hpop
      exact ⟨(ih q').1.trans hpop.1, (ih q').2.trans hpop.2⟩
    · rename_i q' hq
      rw [hq] at hpop
      exact hpop

/-- Draining takes all messages for the address, and no others. -/
theorem drain_spec (q : QueueManager α) (dst : SocketAddr) :
    (q.drain dst).1 = q.data dst ∧ ∀ a, (q.drain dst).2.data a = if a = dst then [] else q.data a :=
  drainN_spec q dst _ (Nat.lt_succ_self _)

theorem drain_others (h : a ≠ dst) : (q.drain dst).2.priorityQueue.lookupD a [] = q.priorityQueue.lookupD a [] ∧
    (q.drain dst).2.inner.lookupD a [] = q.inner.lookupD a [] :=
  drainN_others h _ q

end QueueManager

end Kompact
