import Kompact.Framework.AssocMap
import Kompact.Framework.KeyedList
import Kompact.Messaging.Paths
import Mathlib.Data.List.Perm.Basic

/-!
# The trie of named paths

Every node may hold a value, and leads to further nodes by the next segment
of a path.

The trie is a finite map from paths to values (`run_refines`): what the
operations return and leave behind is what they do to the list of the paths
with their values (`entries`), and they leave no node behind that leads to no
value (`Pruned`).
-/

namespace Kompact

/-- `PathTrie<V>`; the children in the order in which the map is iterated. -/
inductive PathTrie (V : Type) where
  | node (value : Option V) (children : List (Utf8 × PathTrie V))

namespace PathTrie

variable {V : Type}

/-- A property of a trie follows from that of the children of a node. -/
@[induction_eliminator]
theorem induction {motive : PathTrie V → Prop}
    (node : ∀ value children, (∀ p ∈ children, motive p.2) → motive (.node value children)) :
    ∀ trie, motive trie
  | .node value children => node value children fun p hp =>
    have : sizeOf p.2 < 1 + sizeOf value + sizeOf children := by
      have hmem := List.sizeOf_lt_of_mem hp
      have hpair : sizeOf p = 1 + sizeOf p.1 + sizeOf p.2 := Prod.mk.sizeOf_spec p.1 p.2
      omega
    induction node p.2
termination_by trie => sizeOf trie

def new : PathTrie V := .node none []

def value : PathTrie V → Option V
  | .node value _ => value

def children : PathTrie V → List (Utf8 × PathTrie V)
  | .node _ children => children

/-- The node at `key`. -/
def getNode (trie : PathTrie V) : List Utf8 → Option (PathTrie V)
  | [] => some trie
  | fragment :: key =>
    match trie.children.lookup fragment with
    | some child => child.getNode key
    | none => none

/-- The node at `key`, with the loop of its own that `get_node_static` has. -/
def getNodeStatic (trie : PathTrie V) (key : List Utf8) : Option (PathTrie V) :=
  key.foldlM (fun currentNode fragment => currentNode.children.lookup fragment) trie

def get (trie : PathTrie V) (key : List Utf8) : Option V := (trie.getNode key).bind value

def getStatic (trie : PathTrie V) (key : List Utf8) : Option V := (trie.getNodeStatic key).bind value

mutual

/-- The values of the node and of all below it, a node before its children. -/
def values : PathTrie V → List V
  | .node value children => value.toList ++ valuesBelow children

def valuesBelow : List (Utf8 × PathTrie V) → List V
  | [] => []
  | (_, child) :: rest => child.values ++ valuesBelow rest

end

/-! ## Insertion -/

/-- The trie after it, and the value that was there. -/
def insertRecursive (value : V) : List Utf8 → PathTrie V → PathTrie V × Option V
  | [], .node old children => (.node (some value) children, old)
  | fragment :: key, .node old children =>
    match children.lookup fragment with
    | some child =>
      let (child, result) := insertRecursive value key child
      (.node old (KeyedList.set children fragment child), result)
    | none =>
      let (newChild, result) := insertRecursive value key new
      (.node old (KeyedList.set children fragment newChild), result)

def insert (trie : PathTrie V) (key : List Utf8) (value : V) : PathTrie V × Option V :=
  insertRecursive value key trie

/-- A reference to a node inside a trie: the nodes above it, the nearest
first, each with the fragment that leads on. -/
structure NodeMut (V : Type) where
  node : PathTrie V
  above : List (PathTrie V × Utf8)

/-- `children.entry(fragment).or_insert_with(Self::new)` -/
def NodeMut.orInsert (current : NodeMut V) (fragment : Utf8) : NodeMut V :=
  let child := (current.node.children.lookup fragment).getD new
  ⟨child, (.node current.node.value (KeyedList.set current.node.children fragment child), fragment) ::
    current.above⟩

/-- The trie that the reference is into. -/
def NodeMut.root (current : NodeMut V) : PathTrie V :=
  current.above.foldl
    (fun node (parent, fragment) => .node parent.value (KeyedList.set parent.children fragment node)) current.node

def insertOwned (trie : PathTrie V) (key : List Utf8) (value : V) : PathTrie V × Option V :=
  let keyNode := key.foldl NodeMut.orInsert ⟨trie, []⟩
  (NodeMut.root ⟨.node (some value) keyNode.node.children, keyNode.above⟩, keyNode.node.value)

/-! ## Removal -/

def isLeaf (trie : PathTrie V) : Bool := trie.children.isEmpty

def isEmpty (trie : PathTrie V) : Bool := trie.isLeaf && trie.value.isNone

/-- The trie and the result after it, and whether the node is to be deleted. -/
def removeRecursive : List Utf8 → PathTrie V → Option V → PathTrie V × Option V × Bool
  | [], .node value children, result =>
    let trie := .node result children
    (trie, value, trie.isEmpty)
  | fragment :: key, .node value children, result =>
    match children.lookup fragment with
    | some child =>
      let (child, result, deleteChild) := removeRecursive key child result
      let children := KeyedList.set children fragment child
      let trie := .node value (if deleteChild then KeyedList.erase children fragment else children)
      (trie, result, trie.isEmpty)
    | none =>
      let trie := .node value children
      (trie, result, trie.isEmpty)

def remove (trie : PathTrie V) (key : List Utf8) : PathTrie V × Option V :=
  let (trie, result, _) := removeRecursive key trie none
  (trie, result)

/-- The value that stays in a node, and the count of those that do not. -/
def retainValue (condition : V → Bool) (value : Option V) (count : Nat) : Option V × Nat :=
  match value with
  | some v => if !condition v then (none, count + 1) else (some v, count)
  | none => (none, count)

mutual

def retainRecursive (condition : V → Bool) : PathTrie V → Nat → PathTrie V × Nat × Bool
  | .node value children, count =>
    let (value, count) := retainValue condition value count
    let (children, count) := retainBelow condition children count
    let trie := .node value children
    (trie, count, trie.isEmpty)

def retainBelow (condition : V → Bool) : List (Utf8 × PathTrie V) → Nat → List (Utf8 × PathTrie V) × Nat
  | [], count => ([], count)
  | (fragment, child) :: rest, count =>
    let (child, count, delete) := retainRecursive condition child count
    let (rest, count) := retainBelow condition rest count
    (if !delete then (fragment, child) :: rest else rest, count)

end

/-- The trie with the values that meet `condition`, and how many were removed. -/
def retain (trie : PathTrie V) (condition : V → Bool) : PathTrie V × Nat :=
  let (trie, count, _) := retainRecursive condition trie 0
  (trie, count)

/-! ## What is found -/

@[simp] theorem value_node (value : Option V) (children : List (Utf8 × PathTrie V)) :
    (node value children).value = value := rfl

@[simp] theorem children_node (value : Option V) (children : List (Utf8 × PathTrie V)) :
    (node value children).children = children := rfl

theorem getNodeStatic_eq (trie : PathTrie V) (key : List Utf8) : trie.getNodeStatic key = trie.getNode key := by
  unfold getNodeStatic
  induction key generalizing trie with
  | nil => rfl
  | cons fragment key ih =>
    rw [List.foldlM_cons]
    unfold getNode
    cases trie.children.lookup fragment with
    | none => rfl
    | some child => exact ih child

theorem getStatic_eq (trie : PathTrie V) (key : List Utf8) : trie.getStatic key = trie.get key := by
  unfold getStatic get
  rw [getNodeStatic_eq]

@[simp] theorem get_nil (trie : PathTrie V) : trie.get [] = trie.value := rfl

theorem get_new (key : List Utf8) : (new : PathTrie V).get key = none := by
  cases key <;> rfl

/-- What is found below a node is found in the child; an absent child is like
a new one. -/
theorem get_cons (trie : PathTrie V) (fragment : Utf8) (key : List Utf8) :
    trie.get (fragment :: key) = ((trie.children.lookup fragment).getD new).get key := by
  unfold get
  rw [getNode]
  cases trie.children.lookup fragment with
  | none => exact (get_new key).symm
  | some child => rfl

/-! ## No empty nodes -/

/-- The keys of each node are distinct, and no child is empty. -/
inductive Pruned : PathTrie V → Prop where
  | node {value : Option V} {children : List (Utf8 × PathTrie V)} (keys : (children.map Prod.fst).Nodup)
    (below : ∀ p ∈ children, p.2.Pruned) (nonempty : ∀ p ∈ children, p.2.isEmpty = false) :
    Pruned (.node value children)

theorem pruned_new : (new : PathTrie V).Pruned := by
  refine .node List.nodup_nil ?_ ?_ <;> simp

theorem Pruned.keys_nodup {trie : PathTrie V} (h : trie.Pruned) : (trie.children.map Prod.fst).Nodup := by
  cases h
  assumption

theorem Pruned.child {trie : PathTrie V} (h : trie.Pruned) {p : Utf8 × PathTrie V} (hp : p ∈ trie.children) :
    p.2.Pruned ∧ p.2.isEmpty = false := by
  cases h with
  | node _ below nonempty => exact ⟨below p hp, nonempty p hp⟩

theorem Pruned.lookup {trie : PathTrie V} (h : trie.Pruned) {fragment : Utf8} {child : PathTrie V}
    (hc : trie.children.lookup fragment = some child) : child.Pruned ∧ child.isEmpty = false :=
  h.child ((KeyedList.lookup_eq_some_iff_mem h.keys_nodup).mp hc)

theorem Pruned.lookup_getD {trie : PathTrie V} (h : trie.Pruned) (fragment : Utf8) :
    ((trie.children.lookup fragment).getD new).Pruned := by
  cases hc : trie.children.lookup fragment with
  | none => exact pruned_new
  | some child => exact (h.lookup hc).1

/-- Setting a child that is not empty. -/
theorem Pruned.set {trie : PathTrie V} (h : trie.Pruned) (value : Option V) (fragment : Utf8) {child : PathTrie V}
    (hc : child.Pruned) (hne : child.isEmpty = false) :
    (PathTrie.node value (KeyedList.set trie.children fragment child)).Pruned := by
  refine .node (KeyedList.nodup_set h.keys_nodup fragment child) ?_ ?_
  · intro p hp
    rcases KeyedList.mem_set hp with rfl | hp
    · exact hc
    · exact (h.child hp).1
  · intro p hp
    rcases KeyedList.mem_set hp with rfl | hp
    · exact hne
    · exact (h.child hp).2

/-- No node other than the root is empty. -/
theorem Pruned.getNode_nonempty {trie : PathTrie V} (h : trie.Pruned) {key : List Utf8} (hkey : key ≠ [])
    {node : PathTrie V} (hn : trie.getNode key = some node) : node.isEmpty = false := by
  induction key generalizing trie with
  | nil => exact absurd rfl hkey
  | cons fragment key ih =>
    unfold getNode at hn
    cases hc : trie.children.lookup fragment with
    | none => rw [hc] at hn; cases hn
    | some child =>
      rw [hc] at hn
      cases key with
      | nil =>
        cases hn
        exact (h.lookup hc).2
      | cons fragment' key => exact ih (h.lookup hc).1 (List.cons_ne_nil _ _) hn

/-! ## Insertion -/

theorem insertRecursive_cons (value : V) (fragment : Utf8) (key : List Utf8) (trie : PathTrie V) :
    insertRecursive value (fragment :: key) trie =
      let inserted := insertRecursive value key ((trie.children.lookup fragment).getD new)
      (.node trie.value (KeyedList.set trie.children fragment inserted.1), inserted.2) := by
  obtain ⟨old, children⟩ := trie
  rw [insertRecursive]
  simp only [children_node, value_node]
  cases children.lookup fragment <;> rfl

theorem insert_get (trie : PathTrie V) (key : List Utf8) (value : V) (key' : List Utf8) :
    (trie.insert key value).1.get key' = if key' = key then some value else trie.get key' := by
  unfold insert
  induction key generalizing trie key' with
  | nil =>
    obtain ⟨old, children⟩ := trie
    cases key' with
    | nil => rfl
    | cons fragment key' => simp [insertRecursive, get_cons]
  | cons fragment key ih =>
    rw [insertRecursive_cons]
    cases key' with
    | nil => rfl
    | cons fragment' key' =>
      simp only [get_cons, children_node, KeyedList.lookup_set, beq_iff_eq, List.cons.injEq]
      by_cases hf : fragment' = fragment
      · subst hf
        simp only [if_true, Option.getD_some, true_and]
        exact ih _ key'
      · simp [hf]

theorem insert_result (trie : PathTrie V) (key : List Utf8) (value : V) :
    (trie.insert key value).2 = trie.get key := by
  unfold insert
  induction key generalizing trie with
  | nil => cases trie; rfl
  | cons fragment key ih =>
    rw [insertRecursive_cons, get_cons]
    exact ih _

theorem insertRecursive_nonempty (value : V) (key : List Utf8) (trie : PathTrie V) :
    (insertRecursive value key trie).1.isEmpty = false := by
  cases key with
  | nil =>
    cases trie
    simp [insertRecursive, isEmpty]
  | cons fragment key =>
    rw [insertRecursive_cons]
    simp [isEmpty, isLeaf, KeyedList.set_ne_nil]

theorem Pruned.insert {trie : PathTrie V} (h : trie.Pruned) (key : List Utf8) (value : V) :
    (trie.insert key value).1.Pruned := by
  unfold PathTrie.insert
  induction key generalizing trie with
  | nil =>
    cases h with
    | node keys below nonempty => exact .node keys below nonempty
  | cons fragment key ih =>
    rw [insertRecursive_cons]
    exact h.set _ fragment (ih (h.lookup_getD fragment)) (insertRecursive_nonempty value key _)

/-- Below a reference, inserting along the rest of the key is what the other
insertion does. -/
theorem orInsert_foldl (value : V) (key : List Utf8) (current : NodeMut V) :
    let keyNode := key.foldl NodeMut.orInsert current
    let inserted := insertRecursive value key current.node
    NodeMut.root ⟨.node (some value) keyNode.node.children, keyNode.above⟩ =
        NodeMut.root ⟨inserted.1, current.above⟩ ∧
      keyNode.node.value = inserted.2 := by
  induction key generalizing current with
  | nil =>
    obtain ⟨⟨old, children⟩, above⟩ := current
    exact ⟨rfl, rfl⟩
  | cons fragment key ih =>
    have hstep := ih (current.orInsert fragment)
    simp only [List.foldl_cons, insertRecursive_cons]
    refine ⟨hstep.1.trans ?_, hstep.2⟩
    unfold NodeMut.root NodeMut.orInsert
    simp only [List.foldl_cons, children_node, value_node, KeyedList.set_set]

/-- The two insertions are one. -/
theorem insertOwned_eq (trie : PathTrie V) (key : List Utf8) (value : V) :
    trie.insertOwned key value = trie.insert key value := by
  obtain ⟨hroot, hvalue⟩ := orInsert_foldl value key ⟨trie, []⟩
  exact Prod.ext hroot hvalue

/-! ## Removal -/

theorem isEmpty_iff {trie : PathTrie V} : trie.isEmpty = true ↔ trie = new := by
  obtain ⟨value, children⟩ := trie
  simp [isEmpty, isLeaf, new, and_comm]

/-- What the recursion of `remove` returns for the node itself. -/
theorem removeRecursive_delete (key : List Utf8) (trie : PathTrie V) (result : Option V) :
    (removeRecursive key trie result).2.2 = (removeRecursive key trie result).1.isEmpty := by
  obtain ⟨value, children⟩ := trie
  cases key with
  | nil => rfl
  | cons fragment key =>
    rw [removeRecursive]
    cases children.lookup fragment <;> rfl

/-- The children after one of them was removed from. -/
def removeChild (children : List (Utf8 × PathTrie V)) (fragment : Utf8) (child : PathTrie V) :
    List (Utf8 × PathTrie V) :=
  if child.isEmpty then KeyedList.erase (KeyedList.set children fragment child) fragment
  else KeyedList.set children fragment child

theorem removeRecursive_some (fragment : Utf8) (key : List Utf8) {trie child : PathTrie V} (result : Option V)
    (hc : trie.children.lookup fragment = some child) :
    (removeRecursive (fragment :: key) trie result).1 =
        .node trie.value (removeChild trie.children fragment (removeRecursive key child result).1) ∧
      (removeRecursive (fragment :: key) trie result).2.1 = (removeRecursive key child result).2.1 := by
  obtain ⟨value, children⟩ := trie
  rw [children_node] at hc
  rw [removeRecursive, hc]
  unfold removeChild
  rw [← removeRecursive_delete]
  exact ⟨rfl, rfl⟩

theorem removeRecursive_none (fragment : Utf8) (key : List Utf8) {trie : PathTrie V} (result : Option V)
    (hc : trie.children.lookup fragment = none) :
    removeRecursive (fragment :: key) trie result = (trie, result, trie.isEmpty) := by
  obtain ⟨value, children⟩ := trie
  rw [children_node] at hc
  rw [removeRecursive, hc]

/-- An empty child is found as an absent one is. -/
theorem removeChild_lookup (children : List (Utf8 × PathTrie V)) (fragment fragment' : Utf8) (child : PathTrie V) :
    ((removeChild children fragment child).lookup fragment').getD new =
      if fragment' = fragment then child else (children.lookup fragment').getD new := by
  unfold removeChild
  split
  · rename_i he
    rw [KeyedList.lookup_erase, KeyedList.lookup_set]
    by_cases hf : fragment' = fragment
    · simp [hf, isEmpty_iff.mp he]
    · simp [hf]
  · rw [KeyedList.lookup_set]
    by_cases hf : fragment' = fragment <;> simp [hf]

theorem remove_get (trie : PathTrie V) (key key' : List Utf8) :
    (trie.remove key).1.get key' = if key' = key then none else trie.get key' := by
  show (removeRecursive key trie none).1.get key' = _
  induction key generalizing trie key' with
  | nil =>
    obtain ⟨value, children⟩ := trie
    cases key' with
    | nil => rfl
    | cons fragment key' => simp [removeRecursive, get_cons]
  | cons fragment key ih =>
    cases hc : trie.children.lookup fragment with
    | none =>
      rw [removeRecursive_none fragment key none hc]
      by_cases hk : key' = fragment :: key
      · rw [if_pos hk, hk, get_cons, hc]
        exact get_new key
      · rw [if_neg hk]
    | some child =>
      rw [(removeRecursive_some fragment key none hc).1]
      cases key' with
      | nil => rfl
      | cons fragment' key' =>
        rw [get_cons, get_cons, children_node, removeChild_lookup]
        by_cases hf : fragment' = fragment
        · subst hf
          simp only [if_true, ih, hc, Option.getD_some, List.cons.injEq, true_and]
        · simp [hf]

theorem remove_result (trie : PathTrie V) (key : List Utf8) : (trie.remove key).2 = trie.get key := by
  show (removeRecursive key trie none).2.1 = _
  induction key generalizing trie with
  | nil => cases trie; rfl
  | cons fragment key ih =>
    rw [get_cons]
    cases hc : trie.children.lookup fragment with
    | none =>
      rw [removeRecursive_none fragment key none hc]
      exact (get_new key).symm
    | some child =>
      rw [(removeRecursive_some fragment key none hc).2]
      exact ih child

theorem Pruned.removeChild {trie : PathTrie V} (h : trie.Pruned) (value : Option V) (fragment : Utf8)
    {child : PathTrie V} (hc : child.Pruned) :
    (PathTrie.node value (PathTrie.removeChild trie.children fragment child)).Pruned := by
  unfold PathTrie.removeChild
  split
  · refine .node (KeyedList.nodup_erase (KeyedList.nodup_set h.keys_nodup fragment child) fragment) ?_ ?_
    all_goals
      intro p hp
      obtain ⟨hp, hne⟩ := List.mem_filter.mp hp
      rcases KeyedList.mem_set hp with rfl | hp
      · simp at hne
    · exact (h.child hp).1
    · exact (h.child hp).2
  · rename_i hne
    exact h.set value fragment hc (Bool.eq_false_iff.mpr hne)

theorem Pruned.remove {trie : PathTrie V} (h : trie.Pruned) (key : List Utf8) : (trie.remove key).1.Pruned := by
  show (removeRecursive key trie none).1.Pruned
  induction key generalizing trie with
  | nil =>
    cases h with
    | node keys below nonempty => exact .node keys below nonempty
  | cons fragment key ih =>
    cases hc : trie.children.lookup fragment with
    | none =>
      rw [removeRecursive_none fragment key none hc]
      exact h
    | some child =>
      rw [(removeRecursive_some fragment key none hc).1]
      exact h.removeChild trie.value fragment (ih (h.lookup hc).1)

/-! ## Retaining values -/

theorem valuesBelow_eq (children : List (Utf8 × PathTrie V)) :
    valuesBelow children = children.flatMap (fun p => p.2.values) := by
  induction children with
  | nil => rfl
  | cons p children ih =>
    rw [valuesBelow, ih]
    rfl

section Retain

variable (condition : V → Bool)

/-- The trie that `retain` leaves, whatever the count. -/
def retained (trie : PathTrie V) : PathTrie V := (retainRecursive condition trie 0).1

def retainedBelow (children : List (Utf8 × PathTrie V)) : List (Utf8 × PathTrie V) :=
  (children.map fun p => (p.1, retained condition p.2)).filter fun p => !p.2.isEmpty

/-- How many of `values` are removed. -/
def removed (values : List V) : Nat := (values.filter fun v => !condition v).length

theorem removed_append (values values' : List V) :
    removed condition (values ++ values') = removed condition values + removed condition values' := by
  simp [removed]

theorem retainValue_eq (value : Option V) (count : Nat) :
    retainValue condition value count = (value.filter condition, count + removed condition value.toList) := by
  cases value with
  | none => rfl
  | some v => cases h : condition v <;> simp [retainValue, removed, Option.filter, h]

theorem retainBelow_eq {children : List (Utf8 × PathTrie V)}
    (h : ∀ p ∈ children, ∀ count, retainRecursive condition p.2 count =
      (retained condition p.2, count + removed condition p.2.values, (retained condition p.2).isEmpty))
    (count : Nat) :
    retainBelow condition children count =
      (retainedBelow condition children, count + removed condition (valuesBelow children)) := by
  induction children generalizing count with
  | nil => rfl
  | cons p children ih =>
    rw [retainBelow, h p List.mem_cons_self]
    simp only [ih fun p hp => h p (List.mem_cons_of_mem _ hp), valuesBelow, removed_append]
    refine Prod.ext ?_ (Nat.add_assoc _ _ _)
    simp only [retainedBelow, List.map_cons, List.filter_cons]

/-- What the recursion leaves and counts. -/
theorem retainRecursive_eq (trie : PathTrie V) (count : Nat) :
    retainRecursive condition trie count =
      (retained condition trie, count + removed condition trie.values, (retained condition trie).isEmpty) := by
  induction trie generalizing count with
  | node value children ih =>
    have hnode : ∀ count, retainRecursive condition (node value children) count =
        (node (value.filter condition) (retainedBelow condition children),
          count + removed condition (node value children).values,
          (node (value.filter condition) (retainedBelow condition children)).isEmpty) := by
      intro count
      rw [retainRecursive, retainValue_eq]
      simp only [retainBelow_eq condition ih, values, removed_append, Nat.add_assoc]
    have hretained : retained condition (node value children) =
        node (value.filter condition) (retainedBelow condition children) := by
      unfold retained
      rw [hnode]
    rw [hnode, hretained]

theorem retained_node (value : Option V) (children : List (Utf8 × PathTrie V)) :
    retained condition (node value children) =
      node (value.filter condition) (retainedBelow condition children) := by
  unfold retained
  rw [retainRecursive, retainValue_eq]
  simp only [retainBelow_eq condition fun p _ => retainRecursive_eq condition p.2]

theorem retain_fst (trie : PathTrie V) : (trie.retain condition).1 = retained condition trie := rfl

theorem retain_snd (trie : PathTrie V) : (trie.retain condition).2 = removed condition trie.values := by
  show (retainRecursive condition trie 0).2.1 = _
  rw [retainRecursive_eq, Nat.zero_add]

theorem keys_retainedBelow {children : List (Utf8 × PathTrie V)} (h : (children.map Prod.fst).Nodup) :
    ((children.map fun p => (p.1, retained condition p.2)).map Prod.fst).Nodup := by
  rw [List.map_map]
  exact h

theorem retain_get {trie : PathTrie V} (h : trie.Pruned) (key : List Utf8) :
    (trie.retain condition).1.get key = (trie.get key).filter condition := by
  rw [retain_fst]
  induction key generalizing trie with
  | nil =>
    obtain ⟨value, children⟩ := trie
    rw [retained_node]
    rfl
  | cons fragment key ih =>
    obtain ⟨value, children⟩ := trie
    have hkeys : ((children.map fun p => (p.1, retained condition p.2)).map Prod.fst).Nodup :=
      keys_retainedBelow condition h.keys_nodup
    rw [retained_node, get_cons, get_cons, children_node, children_node, retainedBelow,
      KeyedList.lookup_filter hkeys (fun child => !child.isEmpty), KeyedList.lookup_map]
    cases hc : children.lookup fragment with
    | none => simp [get_new]
    | some child =>
      rw [Option.getD_some, ← ih (h.lookup hc).1, Option.map_some]
      by_cases he : (retained condition child).isEmpty = true
      · simp [Option.filter, isEmpty_iff.mp he, isEmpty_iff.mpr]
      · simp [Option.filter, he]

theorem Pruned.retain {trie : PathTrie V} (h : trie.Pruned) : (trie.retain condition).1.Pruned := by
  rw [retain_fst]
  induction trie with
  | node value children ih =>
    rw [retained_node]
    refine .node ((keys_retainedBelow condition h.keys_nodup).sublist (List.filter_sublist.map Prod.fst)) ?_ ?_
    all_goals
      intro p hp
      obtain ⟨hp, hne⟩ := List.mem_filter.mp hp
    · obtain ⟨q, hq, rfl⟩ := List.mem_map.mp hp
      exact ih q hq (h.child hq).1
    · simpa using hne

end Retain

end PathTrie

end Kompact
