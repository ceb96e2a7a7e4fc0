import Kompact.Dispatch.PathTrie

/-!
# Iterating over the values of a trie

The iterator walks down the trie with a stack of the children left to visit at
each level. The order of a node's children is that of a hash map
(`HashOrder`), and any order gives the values of the trie, each as often as it
is stored (`collect_values`).
-/

namespace Kompact

/-- An order in which the children of a node are iterated. -/
structure HashOrder (V : Type) where
  iter : List (Utf8 × PathTrie V) → List (Utf8 × PathTrie V)
  perm : ∀ children, (iter children).Perm children

namespace PathTrie

variable {V : Type}

mutual

/-- More than the number of steps that the iterator takes below a node. -/
def weight : PathTrie V → Nat
  | .node _ children => 2 + weightBelow children

def weightBelow : List (Utf8 × PathTrie V) → Nat
  | [] => 0
  | (_, child) :: rest => child.weight + weightBelow rest

end

theorem weight_eq (trie : PathTrie V) : trie.weight = 2 + weightBelow trie.children := by
  cases trie
  rw [weight, children_node]

theorem weightBelow_eq (children : List (Utf8 × PathTrie V)) :
    weightBelow children = (children.map fun p => p.2.weight).sum := by
  induction children with
  | nil => rfl
  | cons p children ih => rw [weightBelow, ih, List.map_cons, List.sum_cons]

theorem weightBelow_iter (order : HashOrder V) (children : List (Utf8 × PathTrie V)) :
    weightBelow (order.iter children) = weightBelow children := by
  rw [weightBelow_eq, weightBelow_eq]
  exact ((order.perm children).map _).sum_nat

/-- The steps left with a stack. -/
def stackWeight (stack : List (List (Utf8 × PathTrie V))) : Nat := (stack.map fun below => 1 + weightBelow below).sum

@[simp] theorem stackWeight_cons (below : List (Utf8 × PathTrie V)) (stack : List (List (Utf8 × PathTrie V))) :
    stackWeight (below :: stack) = 1 + weightBelow below + stackWeight stack := by
  simp [stackWeight]

/-- Going down to a child is a step. -/
theorem stackWeight_child (order : HashOrder V) (fragment : Utf8) (child : PathTrie V)
    (rest : List (Utf8 × PathTrie V)) (stack : List (List (Utf8 × PathTrie V))) :
    stackWeight (order.iter child.children :: rest :: stack) < stackWeight (((fragment, child) :: rest) :: stack) := by
  simp only [stackWeight_cons, weightBelow_iter, weightBelow, weight_eq child]
  omega

end PathTrie

/-- The iterator; `stack` from its top. -/
structure Values (V : Type) where
  root : PathTrie V
  rootVisited : Bool
  stack : List (List (Utf8 × PathTrie V))

namespace Values

open PathTrie

variable {V : Type} (order : HashOrder V)

/-- `PathTrie::values` -/
def ofRoot (root : PathTrie V) : Values V := ⟨root, false, []⟩

/-- The loop of `next`: the value that it returns with the stack then. -/
def loop : List (List (Utf8 × PathTrie V)) → Option (V × List (List (Utf8 × PathTrie V)))
  | [] => none
  | [] :: stack => loop stack
  | ((_, child) :: rest) :: stack =>
    match child.value with
    | some value => some (value, order.iter child.children :: rest :: stack)
    | none => loop (order.iter child.children :: rest :: stack)
termination_by stack => stackWeight stack
decreasing_by
  · simp
  · exact stackWeight_child order _ child rest stack

/-- The value that comes next, with the iterator after it. -/
def next (iterator : Values V) : Option (V × Values V) :=
  if iterator.rootVisited then
    (loop order iterator.stack).map fun (value, stack) => (value, ⟨iterator.root, true, stack⟩)
  else
    let stack := order.iter iterator.root.children :: iterator.stack
    match iterator.root.value with
    | some rootVal => some (rootVal, ⟨iterator.root, true, stack⟩)
    | none => (loop order stack).map fun (value, stack) => (value, ⟨iterator.root, true, stack⟩)

/-- What the stack leads to. -/
def pending (stack : List (List (Utf8 × PathTrie V))) : List V := stack.flatMap valuesBelow

@[simp] theorem pending_cons (below : List (Utf8 × PathTrie V)) (stack : List (List (Utf8 × PathTrie V))) :
    pending (below :: stack) = valuesBelow below ++ pending stack := rfl

theorem valuesBelow_iter (children : List (Utf8 × PathTrie V)) :
    (valuesBelow (order.iter children)).Perm (valuesBelow children) := by
  rw [valuesBelow_eq, valuesBelow_eq]
  exact (order.perm children).flatMap_right _

theorem values_eq (trie : PathTrie V) : trie.values = trie.value.toList ++ valuesBelow trie.children := by
  cases trie
  rw [values, value_node, children_node]

/-- Going down to a child leaves its value and the others. -/
theorem pending_child (fragment : Utf8) (child : PathTrie V) (rest : List (Utf8 × PathTrie V))
    (stack : List (List (Utf8 × PathTrie V))) :
    (pending (((fragment, child) :: rest) :: stack)).Perm
      (child.value.toList ++ pending (order.iter child.children :: rest :: stack)) := by
  simp only [pending_cons, valuesBelow, values_eq child, List.append_assoc]
  exact ((valuesBelow_iter order child.children).symm.append_right _).append_left _

/-- The loop returns one of the values left, or none when there are none. -/
theorem loop_spec (stack : List (List (Utf8 × PathTrie V))) :
    match loop order stack with
    | none => pending stack = []
    | some (value, stack') => (pending stack).Perm (value :: pending stack') ∧ stackWeight stack' < stackWeight stack := by
  fun_induction loop order stack with
  | case1 => rfl
  | case2 stack ih =>
    have hpending : pending ([] :: stack) = pending stack := rfl
    have hweight : stackWeight stack < stackWeight ([] :: stack) := by simp
    rw [hpending]
    split at ih
    · exact ih
    · exact ⟨ih.1, ih.2.trans hweight⟩
  | case3 fragment child rest stack value hvalue =>
    refine ⟨?_, stackWeight_child order fragment child rest stack⟩
    have hperm := pending_child order fragment child rest stack
    rw [hvalue] at hperm
    exact hperm
  | case4 fragment child rest stack hvalue ih =>
    have hperm := pending_child order fragment child rest stack
    rw [hvalue] at hperm
    have hweight := stackWeight_child order fragment child rest stack
    split at ih
    · rw [ih] at hperm
      exact hperm.eq_nil
    · exact ⟨hperm.trans ih.1, ih.2.trans hweight⟩

/-- How much is left to iterate over. -/
def left (iterator : Values V) : List V :=
  (if iterator.rootVisited then [] else iterator.root.values) ++ pending iterator.stack

def leftWeight (iterator : Values V) : Nat :=
  (if iterator.rootVisited then 0 else iterator.root.weight) + stackWeight iterator.stack

@[simp] theorem left_visited (root : PathTrie V) (stack : List (List (Utf8 × PathTrie V))) :
    left ⟨root, true, stack⟩ = pending stack := rfl

@[simp] theorem left_fresh (root : PathTrie V) (stack : List (List (Utf8 × PathTrie V))) :
    left ⟨root, false, stack⟩ = root.values ++ pending stack := rfl

@[simp] theorem leftWeight_visited (root : PathTrie V) (stack : List (List (Utf8 × PathTrie V))) :
    leftWeight ⟨root, true, stack⟩ = stackWeight stack := Nat.zero_add _

@[simp] theorem leftWeight_fresh (root : PathTrie V) (stack : List (List (Utf8 × PathTrie V))) :
    leftWeight ⟨root, false, stack⟩ = root.weight + stackWeight stack := rfl

/-- The loop, as a step of an iterator that has visited the root. -/
def resume (root : PathTrie V) (stack : List (List (Utf8 × PathTrie V))) : Option (V × Values V) :=
  (loop order stack).map fun (value, stack) => (value, ⟨root, true, stack⟩)

theorem resume_spec (root : PathTrie V) (stack : List (List (Utf8 × PathTrie V))) :
    match resume order root stack with
    | none => pending stack = []
    | some (value, iterator) =>
      (pending stack).Perm (value :: iterator.left) ∧ iterator.leftWeight < stackWeight stack := by
  have hloop := loop_spec order stack
  unfold resume
  cases hl : loop order stack with
  | none =>
    rw [hl] at hloop
    exact hloop
  | some result =>
    rw [hl] at hloop
    exact ⟨hloop.1, Nat.lt_of_le_of_lt (Nat.le_of_eq (leftWeight_visited _ _)) hloop.2⟩

theorem next_visited (root : PathTrie V) (stack : List (List (Utf8 × PathTrie V))) :
    next order ⟨root, true, stack⟩ = resume order root stack := rfl

theorem next_fresh (root : PathTrie V) (stack : List (List (Utf8 × PathTrie V))) :
    next order ⟨root, false, stack⟩ =
      match root.value with
      | some rootVal => some (rootVal, ⟨root, true, order.iter root.children :: stack⟩)
      | none => resume order root (order.iter root.children :: stack) := rfl

theorem next_spec (iterator : Values V) :
    match next order iterator with
    | none => iterator.left = []
    | some (value, iterator') =>
      iterator.left.Perm (value :: iterator'.left) ∧ iterator'.leftWeight < iterator.leftWeight := by
  obtain ⟨root, visited, stack⟩ := iterator
  cases visited with
  | true =>
    rw [next_visited, left_visited, leftWeight_visited]
    exact resume_spec order root stack
  | false =>
    -- the children of the root are pushed before anything is returned
    have hperm : (root.values ++ pending stack).Perm
        (root.value.toList ++ pending (order.iter root.children :: stack)) := by
      rw [values_eq root, pending_cons, List.append_assoc]
      exact ((valuesBelow_iter order root.children).symm.append_right _).append_left _
    have hweight : stackWeight (order.iter root.children :: stack) < root.weight + stackWeight stack := by
      rw [stackWeight_cons, weightBelow_iter, weight_eq root]
      omega
    rw [next_fresh, left_fresh, leftWeight_fresh]
    cases hv : root.value with
    | some rootVal =>
      rw [hv] at hperm
      exact ⟨hperm, Nat.lt_of_le_of_lt (Nat.le_of_eq (leftWeight_visited _ _)) hweight⟩
    | none =>
      have hresume := resume_spec order root (order.iter root.children :: stack)
      rw [hv] at hperm
      simp only
      split at hresume
      · rw [hresume] at hperm
        exact hperm.eq_nil
      · exact ⟨hperm.trans hresume.1, hresume.2.trans hweight⟩

theorem next_of_some {iterator iterator' : Values V} {value : V} (h : next order iterator = some (value, iterator')) :
    iterator.left.Perm (value :: iterator'.left) ∧ iterator'.leftWeight < iterator.leftWeight := by
  have hnext := next_spec order iterator
  rw [h] at hnext
  exact hnext

/-- All values that the iterator returns. -/
def collect (iterator : Values V) : List V :=
  match h : next order iterator with
  | none => []
  | some (value, iterator') =>
    have := (next_of_some order h).2
    value :: iterator'.collect
termination_by iterator.leftWeight

theorem collect_left (iterator : Values V) : (iterator.collect order).Perm iterator.left := by
  fun_induction collect order iterator with
  | case1 iterator h =>
    have hnext := next_spec order iterator
    rw [h] at hnext
    exact .of_eq hnext.symm
  | case2 iterator value iterator' h hlt ih => exact (ih.cons value).trans (next_of_some order h).1.symm

/-- The iterator returns each value of the trie as often as it is stored, in
whichever order. -/
theorem collect_values (trie : PathTrie V) : ((ofRoot trie).collect order).Perm trie.values := by
  have h := collect_left order (ofRoot trie)
  simpa [left, ofRoot, pending] using h

end Values

end Kompact
