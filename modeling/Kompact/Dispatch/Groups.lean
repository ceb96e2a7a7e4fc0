import Kompact.Dispatch.PathTrieMap
import Kompact.Dispatch.Registration

/-!
# Routing groups

A lookup addresses a node of the trie: that of its path, or of the path without
the last segment where that is a marker. What it makes of the node is said by
the entries of the store (`Resolves`): the members of a group are the actors at
the strict extensions of the addressed path, each as often as it is registered
there, in whichever order the children of the nodes are iterated.
`getByNamedPath_resolves` is for every store that operations lead to.
-/

namespace Kompact

namespace PathTrie

variable {V : Type}

theorem Pruned.getNode {trie : PathTrie V} (h : trie.Pruned) {key : List Utf8} {node : PathTrie V}
    (hn : trie.getNode key = some node) : node.Pruned := by
  induction key generalizing trie with
  | nil =>
    obtain rfl := Option.some.inj hn
    exact h
  | cons fragment key ih =>
    rw [PathTrie.getNode] at hn
    cases hc : trie.children.lookup fragment with
    | none => rw [hc] at hn; cases hn
    | some child =>
      rw [hc] at hn
      exact ih (h.lookup hc).1 hn

/-- What is found behind a node is found below it. -/
theorem get_append (trie : PathTrie V) (key key' : List Utf8) :
    trie.get (key ++ key') = (trie.getNode key).bind fun node => node.get key' := by
  induction key generalizing trie with
  | nil => rfl
  | cons fragment key ih =>
    rw [List.cons_append, get_cons, PathTrie.getNode]
    cases trie.children.lookup fragment with
    | none => exact get_new (key ++ key')
    | some child => exact ih child

/-- The entries at a path and below it. -/
def entriesAt (trie : PathTrie V) (key : List Utf8) : List (List Utf8 × V) :=
  trie.entries.filter fun e => key.isPrefixOf e.1

/-- The entries at a path and below it are those of its node. -/
theorem Pruned.entriesAt_perm {trie : PathTrie V} (h : trie.Pruned) {key : List Utf8} {node : PathTrie V}
    (hn : trie.getNode key = some node) :
    (trie.entriesAt key).Perm (node.entries.map fun e => (key ++ e.1, e.2)) := by
  have hnode := h.getNode hn
  have hnodup : (node.entries.map fun e => (key ++ e.1, e.2)).Nodup := by
    refine hnode.nodup_entries.map ?_
    rintro ⟨a, v⟩ ⟨b, w⟩ heq
    obtain ⟨hab, rfl⟩ := Prod.mk.inj heq
    obtain rfl := List.append_cancel_left hab
    rfl
  unfold entriesAt
  rw [List.perm_ext_iff_of_nodup (h.nodup_entries.filter _) hnodup]
  rintro ⟨k, v⟩
  rw [List.mem_filter, h.mem_entries, List.isPrefixOf_iff_prefix, List.mem_map]
  constructor
  · rintro ⟨hget, key', rfl⟩
    rw [get_append, hn] at hget
    exact ⟨(key', v), hnode.mem_entries.mpr hget, rfl⟩
  · rintro ⟨⟨key', w⟩, hmem, heq⟩
    obtain ⟨rfl, rfl⟩ := Prod.mk.inj heq
    refine ⟨?_, List.prefix_append key key'⟩
    rw [get_append, hn]
    exact hnode.mem_entries.mp hmem

end PathTrie

/-- The part of a policy that a marker asks for, or without one the policy. -/
def StorePolicy.part {P : Type} (policy : StorePolicy P) : Option UInt8 → Option P
  | some marker => if marker = broadcastMarker then policy.broadcast else policy.select
  | none => some policy.policy

namespace ActorStore

variable {R P : Type}

/-! ## The stores that operations lead to -/

theorem pruned_apply [DecidableEq R] {store : ActorStore R P} (h : store.nameMap.Pruned) (op : Op R P) :
    (store.apply op).nameMap.Pruned := by
  have hentry : ∀ path (entry : ActorTreeEntry R P), (store.insertEntry path entry).1.nameMap.Pruned := by
    intro path entry
    unfold insertEntry
    rw [PathTrie.insertOwned_eq]
    exact h.insert path entry
  have hvalidated : ∀ path (entry : ActorTreeEntry R P), (store.insertValidated path entry).1.nameMap.Pruned := by
    intro path entry
    unfold insertValidated
    cases validateInsertPath path with
    | error e => exact h
    | ok _ => exact hentry path entry
  cases op with
  | insert path actor =>
    match path with
    | .path (.unique _ _) => exact h
    | .path (.named _ path) => exact hentry path _
    | .alias name => exact hvalidated (parsePath name) _
    | .segments path => exact hvalidated path _
    | .actorId _ => exact h
    | .system => exact h
  | setRoutingPolicy path policy => exact hvalidated path _
  | remove canUpgrade actor => exact h.retain _
  | removeByUuid id => exact h
  | removeByNamedPath path => exact h.remove path
  | cleanup canUpgrade => exact h.retain _

theorem pruned_run [DecidableEq R] (ops : List (Op R P)) : (run ops).nameMap.Pruned := by
  suffices h : ∀ store : ActorStore R P, store.nameMap.Pruned → (ops.foldl apply store).nameMap.Pruned from
    h new PathTrie.pruned_new
  induction ops with
  | nil => exact fun store h => h
  | cons op ops ih => exact fun store h => ih _ (pruned_apply h op)

/-! ## The members of a group -/

/-- The actors at the strict extensions of a path. -/
def refsBelow (store : ActorStore R P) (path : List Utf8) : List R :=
  (store.nameMap.entries.filter fun e => path.isPrefixOf e.1 && e.1 != path).filterMap fun e => e.2.ref?

/-- An actor is below a path as often as it is registered at its extensions. -/
theorem mem_refsBelow {store : ActorStore R P} (h : store.nameMap.Pruned) {path : List Utf8} {aref : R} :
    aref ∈ store.refsBelow path ↔
      ∃ key, path <+: key ∧ key ≠ path ∧ store.nameMap.get key = some (.ref aref) := by
  simp only [refsBelow, List.mem_filterMap, List.mem_filter, Bool.and_eq_true, List.isPrefixOf_iff_prefix, bne_iff_ne]
  constructor
  · rintro ⟨⟨key, entry⟩, ⟨hmem, hprefix, hne⟩, href⟩
    cases entry with
    | policy policy => cases href
    | ref other =>
      obtain rfl := Option.some.inj href
      exact ⟨key, hprefix, hne, h.mem_entries.mp hmem⟩
  · rintro ⟨key, hprefix, hne, hget⟩
    exact ⟨(key, .ref aref), ⟨h.mem_entries.mpr hget, hprefix, hne⟩, rfl⟩

/-- The actors among the values of a node that has none itself are those below
its path. -/
theorem values_refs_perm {store : ActorStore R P} (h : store.nameMap.Pruned) {path : List Utf8}
    {node : PathTrie (ActorTreeEntry R P)} (hn : store.nameMap.getNode path = some node)
    (hvalue : node.value.bind ActorTreeEntry.ref? = none) :
    (node.values.filterMap ActorTreeEntry.ref?).Perm (store.refsBelow path) := by
  have hat := (h.entriesAt_perm hn).filterMap fun e : List Utf8 × ActorTreeEntry R P => e.2.ref?
  have hvalues : (node.entries.map fun e => (path ++ e.1, e.2)).filterMap
      (fun e : List Utf8 × ActorTreeEntry R P => e.2.ref?) = node.values.filterMap ActorTreeEntry.ref? := by
    rw [← PathTrie.entries_values, List.filterMap_map, List.filterMap_map]
    rfl
  -- the entry at the path itself gives no actor
  have hstrict : (store.nameMap.entriesAt path).filterMap (fun e : List Utf8 × ActorTreeEntry R P => e.2.ref?) =
      store.refsBelow path := by
    unfold refsBelow PathTrie.entriesAt
    rw [List.filterMap_filter, List.filterMap_filter]
    refine List.filterMap_congr fun e he => ?_
    by_cases hpath : e.1 = path
    · have hget : store.nameMap.get path = some e.2 := hpath ▸ h.mem_entries.mp he
      have hnone : e.2.ref? = none := by
        have hself : node.value = some e.2 := by
          rw [PathTrie.get, hn] at hget
          exact hget
        rw [hself] at hvalue
        exact hvalue
      simp [hpath, hnone]
    · simp [hpath]
  rw [← hstrict, ← hvalues]
  exact hat.symm

/-- Whatever the order of the children, the iterator gives the same actors. -/
theorem collect_refs_perm (order : HashOrder (ActorTreeEntry R P)) (node : PathTrie (ActorTreeEntry R P)) :
    (((Values.ofRoot node).collect order).filterMap ActorTreeEntry.ref?).Perm
      (node.values.filterMap ActorTreeEntry.ref?) :=
  (Values.collect_values order node).filterMap _

/-! ## Lookups -/

theorem select_ne_broadcast : selectMarker ≠ broadcastMarker := by decide

/-- The path of the node that a lookup addresses, and the marker that asks for
a group. -/
def addressed (path : List Utf8) : List Utf8 × Option UInt8 :=
  match path.getLast? with
  | some (c :: _) => splitMarker path c
  | _ => (path, none)

/-- The policy of a group where none is stored. -/
def defaultPolicy (marker : UInt8) : GroupPolicy P :=
  if marker = broadcastMarker then .defaultBroadcast else .defaultSelect

/-- A path that ends in a marker addresses the path before it. -/
theorem addressed_marked (path : List Utf8) {marker : UInt8} (h : marker = broadcastMarker ∨ marker = selectMarker) :
    addressed (path ++ [[marker]]) = (path, some marker) := by
  unfold addressed
  rw [List.getLast?_concat]
  rcases h with rfl | rfl <;> simp [splitMarker, select_ne_broadcast]

/-- A path that can be inserted is addressed itself. -/
theorem addressed_plain {path : List Utf8} (h : validateInsertPath path = .ok ()) : addressed path = (path, none) := by
  by_cases hne : path = []
  · rw [hne]
    rfl
  · have hunmarked := unmarked_of_insert h hne
    unfold Unmarked at hunmarked
    unfold addressed
    generalize path.getLast? = last at hunmarked ⊢
    rcases last with _ | (_ | ⟨c, cs⟩)
    · rfl
    · rfl
    · exact (if_neg hunmarked.1).trans (if_neg hunmarked.2)

/-- What a lookup is meant to return for the node at `target`. -/
structure Resolves (implicitRoutes : Bool) (store : ActorStore R P) (target : List Utf8) (marker : Option UInt8)
    (result : LookupResult R P) : Prop where
  members : ∀ group, result = .group group → group.members.Perm (store.refsBelow target)
  /-- Whatever the order of the children, the iterator gives these members. -/
  iterated : ∀ group, result = .group group → ∀ order, ∃ node, store.nameMap.getNode target = some node ∧
    (((Values.ofRoot node).collect order).filterMap ActorTreeEntry.ref?).Perm group.members
  absent : store.nameMap.getNode target = none → result = .none
  atRef : ∀ aref, store.nameMap.get target = some (.ref aref) →
    if marker.isNone then result = .ref aref else ∃ e, result = .err e
  atPolicy : ∀ policy, store.nameMap.get target = some (.policy policy) →
    match policy.part marker with
    | some part => ∃ members, result = .group ⟨members, .stored part⟩
    | none => ∃ e, result = .err e
  /-- A node that only leads to others. -/
  inner : ∀ node, store.nameMap.getNode target = some node → node.value = none →
    match marker with
    | some marker =>
      if implicitRoutes then ∃ members, result = .group ⟨members, defaultPolicy marker⟩ else result = .none
    | none => result = .none

theorem addressed_marker (path : List Utf8) :
    ∀ marker ∈ (addressed path).2, marker = broadcastMarker ∨ marker = selectMarker := by
  unfold addressed
  split
  · exact splitMarker_marker path _
  · exact fun _ hm => by cases hm

/-- At a node with an entry. -/
theorem entryResult_eq (path : List Utf8) {marker : Option UInt8} (node : PathTrie (ActorTreeEntry R P))
    (hmarker : ∀ m ∈ marker, m = broadcastMarker ∨ m = selectMarker) :
    (∀ aref, ∃ r, entryResult path marker node (.ref aref) = .ok r ∧
      if marker.isNone then r = .ref aref else ∃ e, r = .err e) ∧
    ∀ policy, ∃ r, entryResult path marker node (.policy policy) = .ok r ∧
      match policy.part marker with
      | some part => r = .group ⟨node.values.filterMap ActorTreeEntry.ref?, .stored part⟩
      | none => ∃ e, r = .err e := by
  cases marker with
  | none => exact ⟨fun aref => ⟨_, rfl, rfl⟩, fun policy => ⟨_, rfl, rfl⟩⟩
  | some m =>
    refine ⟨fun aref => ⟨_, rfl, _, rfl⟩, fun policy => ?_⟩
    rcases hmarker m rfl with rfl | rfl
    · simp only [entryResult, StorePolicy.part, if_true]
      cases policy.broadcast with
      | none => exact ⟨_, rfl, _, rfl⟩
      | some broadcast => exact ⟨_, rfl, rfl⟩
    · simp only [entryResult, StorePolicy.part, select_ne_broadcast, if_false, if_true]
      cases policy.select with
      | none => exact ⟨_, rfl, _, rfl⟩
      | some select => exact ⟨_, rfl, rfl⟩

/-- At a node without one. -/
theorem implicitResult_eq (implicitRoutes : Bool) (marker : Option UInt8) (node : PathTrie (ActorTreeEntry R P)) :
    (∀ m ∈ marker, m = broadcastMarker ∨ m = selectMarker) → ∃ r, implicitResult implicitRoutes marker node = .ok r ∧
      match marker with
      | some m =>
        if implicitRoutes then r = .group ⟨node.values.filterMap ActorTreeEntry.ref?, defaultPolicy m⟩ else r = .none
      | none => r = .none := by
  intro hmarker
  cases marker with
  | none => exact ⟨_, rfl, rfl⟩
  | some m =>
    cases implicitRoutes with
    | false => exact ⟨_, rfl, rfl⟩
    | true => rcases hmarker m rfl with rfl | rfl <;> exact ⟨_, rfl, rfl⟩

section

variable {implicitRoutes : Bool} {store : ActorStore R P} {target : List Utf8} {marker : Option UInt8}
  {node : PathTrie (ActorTreeEntry R P)} {result : LookupResult R P}

theorem get_of_getNode (hn : store.nameMap.getNode target = some node) : store.nameMap.get target = node.value := by
  rw [PathTrie.get, hn]
  rfl

theorem resolves_absent (hn : store.nameMap.getNode target = none) :
    Resolves implicitRoutes store target marker .none := by
  have hget : store.nameMap.get target = none := by
    rw [PathTrie.get, hn]
    rfl
  refine ⟨?_, ?_, fun _ => rfl, ?_, ?_, ?_⟩
  all_goals simp [hget, hn]

/-- The members of a group are the actors among the values of the node. -/
def Collects (node : PathTrie (ActorTreeEntry R P)) (result : LookupResult R P) : Prop :=
  ∀ group, result = .group group → group.members = node.values.filterMap ActorTreeEntry.ref?

/-- They are right where the node stores no actor itself. -/
theorem Collects.perm (hc : Collects node result) (h : store.nameMap.Pruned)
    (hn : store.nameMap.getNode target = some node) (hvalue : node.value.bind ActorTreeEntry.ref? = none) :
    ∀ group, result = .group group → group.members.Perm (store.refsBelow target) := by
  intro group hgroup
  rw [hc group hgroup]
  exact values_refs_perm h hn hvalue

theorem Collects.iterated (hc : Collects node result) (hn : store.nameMap.getNode target = some node) :
    ∀ group, result = .group group → ∀ order, ∃ node, store.nameMap.getNode target = some node ∧
      (((Values.ofRoot node).collect order).filterMap ActorTreeEntry.ref?).Perm group.members := by
  intro group hgroup order
  rw [hc group hgroup]
  exact ⟨node, hn, collect_refs_perm order node⟩

theorem resolves_inner (h : store.nameMap.Pruned) (hn : store.nameMap.getNode target = some node)
    (hv : node.value = none)
    (hresult : match marker with
      | some m =>
        if implicitRoutes then result = .group ⟨node.values.filterMap ActorTreeEntry.ref?, defaultPolicy m⟩
        else result = .none
      | none => result = .none) :
    Resolves implicitRoutes store target marker result := by
  have hget := (get_of_getNode hn).trans hv
  have hc : Collects node result := by
    intro group hgroup
    subst hgroup
    cases marker with
    | none => cases hresult
    | some m =>
      cases implicitRoutes with
      | false => cases hresult
      | true =>
        cases hresult
        rfl
  refine ⟨hc.perm h hn (by rw [hv]; rfl), hc.iterated hn, ?_, ?_, ?_, fun _ _ _ => ?_⟩
  · simp [hn]
  · simp [hget]
  · simp [hget]
  · cases marker with
    | none => exact hresult
    | some m =>
      cases implicitRoutes with
      | false => exact hresult
      | true => exact ⟨_, hresult⟩

theorem resolves_ref (hn : store.nameMap.getNode target = some node) {aref : R} (hv : node.value = some (.ref aref))
    (hresult : if marker.isNone then result = .ref aref else ∃ e, result = .err e) :
    Resolves implicitRoutes store target marker result := by
  have hget := (get_of_getNode hn).trans hv
  have hno : ∀ group, result ≠ .group group := by
    rintro group rfl
    split at hresult
    · cases hresult
    · obtain ⟨e, he⟩ := hresult
      cases he
  refine ⟨fun group hgroup => absurd hgroup (hno group), fun group hgroup => absurd hgroup (hno group), ?_,
    fun other hother => ?_, ?_, ?_⟩
  · simp [hn]
  · rw [hget] at hother
    cases hother
    exact hresult
  · simp [hget]
  · simp [hn, hv]

theorem resolves_policy (h : store.nameMap.Pruned) (hn : store.nameMap.getNode target = some node)
    {policy : StorePolicy P} (hv : node.value = some (.policy policy))
    (hresult : match policy.part marker with
      | some part => result = .group ⟨node.values.filterMap ActorTreeEntry.ref?, .stored part⟩
      | none => ∃ e, result = .err e) :
    Resolves implicitRoutes store target marker result := by
  have hget := (get_of_getNode hn).trans hv
  have hc : Collects node result := by
    intro group hgroup
    subst hgroup
    split at hresult
    · cases hresult
      rfl
    · obtain ⟨e, he⟩ := hresult
      cases he
  refine ⟨hc.perm h hn (by rw [hv]; rfl), hc.iterated hn, ?_, ?_, fun other hother => ?_, ?_⟩
  · simp [hn]
  · simp [hget]
  · rw [hget] at hother
    cases hother
    split at hresult
    · exact ⟨_, hresult⟩
    · exact hresult
  · simp [hn, hv]

end

/-- The lookup once the marker is known returns what it is meant to. -/
theorem markedResult_resolves (implicitRoutes : Bool) {store : ActorStore R P} (h : store.nameMap.Pruned)
    (path : List Utf8) {split : List Utf8 × Option UInt8}
    (hmarker : ∀ m ∈ split.2, m = broadcastMarker ∨ m = selectMarker) :
    ∃ r, markedResult implicitRoutes store path split = .ok r ∧
      Resolves implicitRoutes store split.1 split.2 r := by
  unfold markedResult
  cases hn : store.nameMap.getNode split.1 with
  | none => exact ⟨_, rfl, resolves_absent hn⟩
  | some node =>
    simp only
    cases hv : node.value with
    | none =>
      obtain ⟨r, hr, hspec⟩ := implicitResult_eq implicitRoutes split.2 node hmarker
      exact ⟨r, hr, resolves_inner h hn hv hspec⟩
    | some entry =>
      obtain ⟨hrefs, hpolicies⟩ := entryResult_eq path node hmarker
      cases entry with
      | ref aref =>
        obtain ⟨r, hr, hspec⟩ := hrefs aref
        exact ⟨r, hr, resolves_ref hn hv hspec⟩
      | policy policy =>
        obtain ⟨r, hr, hspec⟩ := hpolicies policy
        exact ⟨r, hr, resolves_policy h hn hv hspec⟩

/-- A single actor is found only where it is stored. -/
theorem Resolves.get_of_ref {implicitRoutes : Bool} {store : ActorStore R P} {target : List Utf8}
    {marker : Option UInt8} {aref : R} (h : Resolves implicitRoutes store target marker (.ref aref)) :
    store.nameMap.get target = some (.ref aref) := by
  cases hn : store.nameMap.getNode target with
  | none => cases h.absent hn
  | some node =>
    have hget := get_of_getNode hn
    cases hv : node.value with
    | none =>
      have hinner := h.inner node hn hv
      split at hinner
      · split at hinner
        · obtain ⟨members, hm⟩ := hinner
          cases hm
        · cases hinner
      · cases hinner
    | some entry =>
      rw [hget, hv]
      rw [hv] at hget
      cases entry with
      | ref other =>
        have href := h.atRef other hget
        split at href
        · cases href
          rfl
        · obtain ⟨e, he⟩ := href
          cases he
      | policy policy =>
        have hpolicy := h.atPolicy policy hget
        split at hpolicy
        · obtain ⟨members, hm⟩ := hpolicy
          cases hm
        · obtain ⟨e, he⟩ := hpolicy
          cases he

/-- What a lookup returns is what it is meant to return for the node that its
path addresses, but the empty path leads to the deadletter box. Only a path
that cannot be looked up panics. -/
theorem lookup_resolves (debug implicitRoutes : Bool) {store : ActorStore R P} (h : store.nameMap.Pruned)
    (path : List Utf8) :
    match store.getByNamedPath debug implicitRoutes path with
    | .ok result =>
      if path = [] then result = .ofOption store.deadletter
      else Resolves implicitRoutes store (addressed path).1 (addressed path).2 result
    | .error _ => ¬ LookupPath path := by
  cases hr : store.getByNamedPath debug implicitRoutes path with
  | error e =>
    intro hpath
    obtain ⟨r, hok⟩ := getByNamedPath_ok debug implicitRoutes store hpath
    rw [hr] at hok
    cases hok
  | ok result =>
    cases hlast : path.getLast? with
    | none =>
      rw [getByNamedPath, hlast] at hr
      simp only [if_pos (List.getLast?_eq_none_iff.mp hlast)]
      exact (Except.ok.inj hr).symm
    | some last =>
      have hne : path ≠ [] := by
        rintro rfl
        cases hlast
      have hdebug : debug = true → LookupPath path := by
        intro hd
        by_contra hno
        rw [getByNamedPath, hlast] at hr
        simp [hd, hno] at hr
      rw [getByNamedPath_concat debug implicitRoutes store hlast hdebug] at hr
      simp only [if_neg hne]
      cases last with
      | nil => cases hr
      | cons c cs =>
        have haddr : addressed path = splitMarker path c := by
          unfold addressed
          rw [hlast]
        obtain ⟨r, hok, hres⟩ := markedResult_resolves implicitRoutes h path (addressed_marker path)
        rw [haddr] at hok hres ⊢
        obtain rfl := Except.ok.inj (hok.symm.trans hr)
        exact hres

/-- A lookup finds the deadletter box or an actor that is stored under a name. -/
theorem found_ref (debug implicitRoutes : Bool) {store : ActorStore R P} (h : store.nameMap.Pruned)
    {path : List Utf8} {aref : R} (hr : store.getByNamedPath debug implicitRoutes path = .ok (.ref aref)) :
    store.deadletter = some aref ∨ ∃ key, store.nameMap.get key = some (.ref aref) := by
  have hspec := lookup_resolves debug implicitRoutes h path
  rw [hr] at hspec
  simp only at hspec
  split at hspec
  · cases hd : store.deadletter with
    | none => rw [hd] at hspec; cases hspec
    | some other => rw [hd] at hspec; cases hspec; exact .inl rfl
  · exact .inr ⟨_, hspec.get_of_ref⟩

/-- The members of a group are stored under names. -/
theorem found_member (debug implicitRoutes : Bool) {store : ActorStore R P} (h : store.nameMap.Pruned)
    {path : List Utf8} {group : RoutingGroup R P}
    (hr : store.getByNamedPath debug implicitRoutes path = .ok (.group group)) {aref : R}
    (hm : aref ∈ group.members) : ∃ key, store.nameMap.get key = some (.ref aref) := by
  have hspec := lookup_resolves debug implicitRoutes h path
  rw [hr] at hspec
  simp only at hspec
  split at hspec
  · cases hd : store.deadletter with
    | none => rw [hd] at hspec; cases hspec
    | some other => rw [hd] at hspec; cases hspec
  · obtain ⟨key, -, -, hget⟩ := (mem_refsBelow h).mp ((hspec.members group rfl).mem_iff.mp hm)
    exact ⟨key, hget⟩

/-- After every run of operations, a lookup returns what it is meant to. -/
theorem getByNamedPath_resolves [DecidableEq R] (debug implicitRoutes : Bool) (ops : List (Op R P))
    (path : List Utf8) :
    match (run ops).getByNamedPath debug implicitRoutes path with
    | .ok result =>
      if path = [] then result = .ofOption (run ops).deadletter
      else Resolves implicitRoutes (run ops) (addressed path).1 (addressed path).2 result
    | .error _ => ¬ LookupPath path :=
  lookup_resolves debug implicitRoutes (pruned_run ops) path

end ActorStore

end Kompact
