import Kompact.Dispatch.PathTrieValues

/-!
# The trie as a finite map

A run of the operations on a new trie does what it does to a finite map from
paths to values (`run_refines`). The trie and the map agree in what is found
at each path; that their values then are the same, each as often, follows from
the list of the trie's paths with their values (`entries`).
-/

namespace Kompact.PathTrie

variable {V : Type}

/-! ## The entries of a trie -/

mutual

/-- The paths with their values. -/
def entries : PathTrie V → List (List Utf8 × V)
  | .node value children => value.toList.map (fun v => ([], v)) ++ entriesBelow children

def entriesBelow : List (Utf8 × PathTrie V) → List (List Utf8 × V)
  | [] => []
  | (fragment, child) :: rest => child.entries.map (fun e => (fragment :: e.1, e.2)) ++ entriesBelow rest

end

theorem entriesBelow_eq (children : List (Utf8 × PathTrie V)) :
    entriesBelow children = children.flatMap fun p => p.2.entries.map fun e => (p.1 :: e.1, e.2) := by
  induction children with
  | nil => rfl
  | cons p children ih =>
    rw [entriesBelow, ih]
    rfl

theorem entries_values (trie : PathTrie V) : trie.entries.map Prod.snd = trie.values := by
  induction trie with
  | node value children ih =>
    rw [entries, values, entriesBelow_eq, valuesBelow_eq, List.map_append, List.map_flatMap]
    congr 1
    · cases value <;> rfl
    · refine List.flatMap_congr fun p hp => ?_
      rw [List.map_map]
      exact ih p hp

/-- The entries are what is found. -/
theorem Pruned.mem_entries {trie : PathTrie V} (h : trie.Pruned) {key : List Utf8} {v : V} :
    (key, v) ∈ trie.entries ↔ trie.get key = some v := by
  induction trie generalizing key with
  | node value children ih =>
    rw [entries, List.mem_append, entriesBelow_eq, List.mem_flatMap]
    cases key with
    | nil => cases value <;> simp [eq_comm]
    | cons fragment key =>
      rw [get_cons, children_node]
      have hkeys : (children.map Prod.fst).Nodup := h.keys_nodup
      constructor
      · rintro (hmem | ⟨p, hp, hmem⟩)
        · simp at hmem
        · obtain ⟨e, he, heq⟩ := List.mem_map.mp hmem
          cases heq
          rw [(KeyedList.lookup_eq_some_iff_mem hkeys).mpr hp]
          exact (ih p hp (h.child hp).1).mp he
      · intro hget
        cases hc : children.lookup fragment with
        | none =>
          rw [hc, Option.getD_none, get_new] at hget
          cases hget
        | some child =>
          have hp := (KeyedList.lookup_eq_some_iff_mem hkeys).mp hc
          rw [hc, Option.getD_some] at hget
          refine .inr ⟨(fragment, child), hp, List.mem_map.mpr ⟨(key, v), ?_, rfl⟩⟩
          exact (ih _ hp (h.child hp).1).mpr hget

theorem Pruned.nodup_entries {trie : PathTrie V} (h : trie.Pruned) : trie.entries.Nodup := by
  induction trie with
  | node value children ih =>
    rw [entries, entriesBelow_eq]
    refine List.Nodup.append ?_ ?_ ?_
    · cases value <;> simp
    · rw [List.nodup_flatMap]
      refine ⟨fun p hp => (ih p hp (h.child hp).1).map ?_, ?_⟩
      · rintro ⟨key, v⟩ ⟨key', v'⟩ heq
        cases heq
        rfl
      · refine (List.pairwise_map.mp h.keys_nodup).imp fun {p q} hne => ?_
        intro e hp hq
        obtain ⟨a, -, rfl⟩ := List.mem_map.mp hp
        obtain ⟨b, -, hb⟩ := List.mem_map.mp hq
        exact hne (List.cons.inj (congrArg Prod.fst hb)).1.symm
    · intro e hleft hright
      obtain ⟨v, -, rfl⟩ := List.mem_map.mp hleft
      obtain ⟨p, -, hmem⟩ := List.mem_flatMap.mp hright
      obtain ⟨a, -, heq⟩ := List.mem_map.mp hmem
      exact List.cons_ne_nil _ _ (congrArg Prod.fst heq)

/-! ## The finite map -/

/-- The trie holds what the map does. -/
structure Refines (trie : PathTrie V) (map : AssocMap (List Utf8) V) : Prop where
  get : ∀ key, trie.get key = map.lookup key
  getStatic : ∀ key, trie.getStatic key = map.lookup key
  /-- Whatever the order of the children, the iterator gives the values of the
  map, each as often as it is there. -/
  values : ∀ order, ((Values.ofRoot trie).collect order).Perm (map.entries.map Sigma.snd)
  /-- No node other than the root is empty. -/
  nonempty : ∀ key, key ≠ [] → ∀ node, trie.getNode key = some node → node.isEmpty = false

inductive Op (V : Type) where
  | insert (key : List Utf8) (value : V)
  | insertOwned (key : List Utf8) (value : V)
  | remove (key : List Utf8)
  | retain (condition : V → Bool)

/-- What an operation returns: a value that was there, or how many it removed. -/
inductive Returned (V : Type) where
  | value (value : Option V)
  | count (count : Nat)

/-- An operation on the trie. -/
def apply (trie : PathTrie V) : Op V → PathTrie V × Returned V
  | .insert key value => (trie.insert key value).map id .value
  | .insertOwned key value => (trie.insertOwned key value).map id .value
  | .remove key => (trie.remove key).map id .value
  | .retain condition => (trie.retain condition).map id .count

/-- The operation on a finite map. -/
def applyMap (map : AssocMap (List Utf8) V) : Op V → AssocMap (List Utf8) V × Returned V
  | .insert key value => (AList.insert key value map, .value (map.lookup key))
  | .insertOwned key value => (AList.insert key value map, .value (map.lookup key))
  | .remove key => (map.erase key, .value (map.lookup key))
  | .retain condition =>
    (map.filterValues condition, .count (map.entries.filter fun e => !condition e.2).length)

/-- The operations in turn, with what they return. -/
def run {S : Type} (apply : S → Op V → S × Returned V) (s : S) : List (Op V) → S × List (Returned V)
  | [] => (s, [])
  | op :: ops =>
    let (s, returned) := apply s op
    let (s, rest) := run apply s ops
    (s, returned :: rest)

/-- What the operations keep: a pruned trie that agrees with the map. -/
structure Agrees (trie : PathTrie V) (map : AssocMap (List Utf8) V) : Prop where
  pruned : trie.Pruned
  get : ∀ key, trie.get key = map.lookup key

/-- A trie and a map that agree have the same entries. -/
theorem Agrees.entries_perm {trie : PathTrie V} {map : AssocMap (List Utf8) V} (h : Agrees trie map) :
    trie.entries.Perm (map.entries.map fun e => (e.1, e.2)) := by
  have hnodup : (map.entries.map fun e => (e.1, e.2)).Nodup := by
    refine map.nodupKeys.nodup.map ?_
    rintro ⟨a, v⟩ ⟨b, w⟩ heq
    cases heq
    rfl
  rw [List.perm_ext_iff_of_nodup h.pruned.nodup_entries hnodup]
  rintro ⟨key, v⟩
  rw [h.pruned.mem_entries, h.get, ← Option.mem_def, AList.mem_lookup_iff]
  constructor
  · intro hmem
    exact List.mem_map.mpr ⟨_, hmem, rfl⟩
  · intro hmem
    obtain ⟨e, he, heq⟩ := List.mem_map.mp hmem
    cases heq
    exact he

theorem Agrees.values_perm {trie : PathTrie V} {map : AssocMap (List Utf8) V} (h : Agrees trie map) :
    trie.values.Perm (map.entries.map Sigma.snd) := by
  have hperm := h.entries_perm.map Prod.snd
  rw [entries_values, List.map_map] at hperm
  exact hperm

theorem Agrees.refines {trie : PathTrie V} {map : AssocMap (List Utf8) V} (h : Agrees trie map) :
    Refines trie map where
  get := h.get
  getStatic key := (getStatic_eq trie key).trans (h.get key)
  values order := (Values.collect_values order trie).trans h.values_perm
  nonempty _ hkey _ hn := h.pruned.getNode_nonempty hkey hn

theorem agrees_new : Agrees (new : PathTrie V) ∅ := ⟨pruned_new, get_new⟩

theorem Agrees.insert {trie : PathTrie V} {map : AssocMap (List Utf8) V} (h : Agrees trie map) (key : List Utf8)
    (value : V) : Agrees (trie.insert key value).1 (AList.insert key value map) := by
  refine ⟨h.pruned.insert key value, fun key' => ?_⟩
  rw [insert_get, AssocMap.lookup_insert, h.get]

theorem Agrees.remove {trie : PathTrie V} {map : AssocMap (List Utf8) V} (h : Agrees trie map) (key : List Utf8) :
    Agrees (trie.remove key).1 (map.erase key) := by
  refine ⟨h.pruned.remove key, fun key' => ?_⟩
  rw [remove_get, AssocMap.lookup_erase, h.get]

theorem Agrees.retain {trie : PathTrie V} {map : AssocMap (List Utf8) V} (h : Agrees trie map)
    (condition : V → Bool) : Agrees (trie.retain condition).1 (map.filterValues condition) := by
  refine ⟨h.pruned.retain condition, fun key => ?_⟩
  rw [retain_get condition h.pruned, AssocMap.lookup_filterValues, h.get]

theorem Agrees.removed {trie : PathTrie V} {map : AssocMap (List Utf8) V} (h : Agrees trie map)
    (condition : V → Bool) :
    (trie.retain condition).2 = (map.entries.filter fun e => !condition e.2).length := by
  rw [retain_snd]
  unfold PathTrie.removed
  rw [(h.values_perm.filter _).length_eq, List.filter_map, List.length_map]
  rfl

/-- One operation on both. -/
theorem Agrees.apply {trie : PathTrie V} {map : AssocMap (List Utf8) V} (h : Agrees trie map) (op : Op V) :
    Agrees (trie.apply op).1 (applyMap map op).1 ∧ (trie.apply op).2 = (applyMap map op).2 := by
  cases op with
  | insert key value =>
    exact ⟨h.insert key value, congrArg Returned.value ((insert_result trie key value).trans (h.get key))⟩
  | insertOwned key value =>
    have hsame : trie.apply (.insertOwned key value) = trie.apply (.insert key value) :=
      congrArg (Prod.map id Returned.value) (insertOwned_eq trie key value)
    rw [hsame]
    exact ⟨h.insert key value, congrArg Returned.value ((insert_result trie key value).trans (h.get key))⟩
  | remove key => exact ⟨h.remove key, congrArg Returned.value ((remove_result trie key).trans (h.get key))⟩
  | retain condition => exact ⟨h.retain condition, congrArg Returned.count (h.removed condition)⟩

theorem Agrees.run {trie : PathTrie V} {map : AssocMap (List Utf8) V} (h : Agrees trie map) (ops : List (Op V)) :
    Agrees (PathTrie.run PathTrie.apply trie ops).1 (PathTrie.run applyMap map ops).1 ∧
      (PathTrie.run PathTrie.apply trie ops).2 = (PathTrie.run applyMap map ops).2 := by
  induction ops generalizing trie map with
  | nil => exact ⟨h, rfl⟩
  | cons op ops ih =>
    obtain ⟨hagrees, hreturned⟩ := h.apply op
    obtain ⟨hrun, hrest⟩ := ih hagrees
    exact ⟨hrun, congrArg₂ List.cons hreturned hrest⟩

/-- Every run of operations on a new trie refines the run on the empty map:
the operations return the same and leave what they leave there, whichever of
the insertions is used. -/
theorem run_refines (ops : List (Op V)) :
    Refines (run apply (new : PathTrie V) ops).1 (run applyMap ∅ ops).1 ∧
      (run apply (new : PathTrie V) ops).2 = (run applyMap ∅ ops).2 ∧
      ∀ key value, (run apply new ops).1.insertOwned key value = (run apply new ops).1.insert key value := by
  obtain ⟨hagrees, hreturned⟩ := agrees_new.run ops
  exact ⟨hagrees.refines, hreturned, insertOwned_eq _⟩

end Kompact.PathTrie
