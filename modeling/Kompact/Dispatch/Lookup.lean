import Kompact.Dispatch.PathTrie
import Kompact.Framework.AssocMap
import Kompact.Messaging.LookupPaths

/-!
# Looking up actors

Unique paths are looked up by their id, named ones in the trie. A marker at
the start of the last segment asks for the group of the actors below the path.

The first character of the last segment is taken without a check, so a path
whose last segment is empty panics. A path that `validateLookupPath` accepts
does not (`getByActorPath_ok`).
-/

namespace Kompact

/-- A policy, with the parts that it provides for each marker. -/
structure StorePolicy (P : Type) where
  policy : P
  broadcast : Option P
  select : Option P

inductive ActorTreeEntry (R P : Type) where
  | ref (aref : R)
  | policy (policy : StorePolicy P)

def ActorTreeEntry.ref? {R P : Type} : ActorTreeEntry R P → Option R
  | .ref aref => some aref
  | .policy _ => none

/-- The policy of a group: one that is stored, or a default. -/
inductive GroupPolicy (P : Type) where
  | stored (policy : P)
  | defaultBroadcast
  | defaultSelect

structure RoutingGroup (R P : Type) where
  members : List R
  policy : GroupPolicy P

inductive LookupError where
  /-- Expected a routing policy, but found an actor reference. -/
  | actorReference (marker : UInt8) (path : List Utf8)
  /-- Expected a broadcast policy, but found a non-broadcast policy. -/
  | nonBroadcastPolicy (marker : UInt8) (path : List Utf8)
  /-- Expected a select policy, but found a non-select policy. -/
  | nonSelectPolicy (marker : UInt8) (path : List Utf8)
  deriving DecidableEq, Repr

inductive LookupResult (R P : Type) where
  | ref (aref : R)
  | group (group : RoutingGroup R P)
  | none
  | err (e : LookupError)

def LookupResult.ofOption {R P : Type} : Option R → LookupResult R P
  | some aref => .ref aref
  | Option.none => .none

structure ActorStore (R P : Type) where
  uuidMap : AssocMap (BitVec 128) R
  nameMap : PathTrie (ActorTreeEntry R P)
  deadletter : Option R

namespace ActorStore

variable {R P : Type}

/-- The path to look up, and the marker that was taken off it. -/
def splitMarker (path : List Utf8) (c : UInt8) : List Utf8 × Option UInt8 :=
  if c = broadcastMarker then (path.dropLast, some broadcastMarker)
  else if c = selectMarker then (path.dropLast, some selectMarker)
  else (path, none)

/-- What is found at a node that has an entry. -/
def entryResult (path : List Utf8) (marker : Option UInt8) (node : PathTrie (ActorTreeEntry R P)) :
    ActorTreeEntry R P → Panics (LookupResult R P)
  | .ref aref =>
    match marker with
    | some marker => .ok (.err (.actorReference marker path))
    | none => .ok (.ref aref)
  | .policy policy =>
    let children := node.values.filterMap ActorTreeEntry.ref?
    match marker with
    | some marker =>
      if marker = broadcastMarker then
        match policy.broadcast with
        | some broadcast => .ok (.group ⟨children, .stored broadcast⟩)
        | none => .ok (.err (.nonBroadcastPolicy marker path))
      else if marker = selectMarker then
        match policy.select with
        | some select => .ok (.group ⟨children, .stored select⟩)
        | none => .ok (.err (.nonSelectPolicy marker path))
      else .error "Only put marker characters in to marker field!"
    | none => .ok (.group ⟨children, .stored policy.policy⟩)

/-- What is found at a node without an entry. -/
def implicitResult (implicitRoutes : Bool) (marker : Option UInt8) (node : PathTrie (ActorTreeEntry R P)) :
    Panics (LookupResult R P) :=
  match marker with
  | some marker =>
    if implicitRoutes then
      let children := node.values.filterMap ActorTreeEntry.ref?
      if marker = broadcastMarker then .ok (.group ⟨children, .defaultBroadcast⟩)
      else if marker = selectMarker then .ok (.group ⟨children, .defaultSelect⟩)
      else .error "Only put marker characters in to marker field!"
    else .ok .none
  | none => .ok .none

/-- `get_by_named_path`, with or without debug assertions and the feature
`implicit_routes`. -/
def getByNamedPath (debug implicitRoutes : Bool) (store : ActorStore R P) (path : List Utf8) :
    Panics (LookupResult R P) :=
  match path.getLast? with
  | none => .ok (.ofOption store.deadletter)
  | some last =>
    if debug ∧ ¬ LookupPath path then .error "Path contains illegal characters"
    else
      match last.head? with
      | none => .error "Should not be empty"
      | some c =>
        let (lookupPath, marker) := splitMarker path c
        match store.nameMap.getNode lookupPath with
        | some node =>
          match node.value with
          | some entry => entryResult path marker node entry
          | none => implicitResult implicitRoutes marker node
        | none => .ok .none

def getByActorPath (debug implicitRoutes : Bool) (store : ActorStore R P) : ActorPath → Panics (LookupResult R P)
  | .unique _ id => .ok (.ofOption (store.uuidMap.lookup id))
  | .named _ path => store.getByNamedPath debug implicitRoutes path

/-! ## Paths that are looked up without a panic -/

theorem splitMarker_marker (path : List Utf8) (c : UInt8) :
    ∀ marker ∈ (splitMarker path c).2, marker = broadcastMarker ∨ marker = selectMarker := by
  intro marker hm
  unfold splitMarker at hm
  split at hm
  · exact .inl (Option.some.inj hm).symm
  split at hm
  · exact .inr (Option.some.inj hm).symm
  · cases hm

theorem entryResult_ok (path : List Utf8) {marker : Option UInt8} (node : PathTrie (ActorTreeEntry R P))
    (entry : ActorTreeEntry R P) (h : ∀ m ∈ marker, m = broadcastMarker ∨ m = selectMarker) :
    ∃ r, entryResult path marker node entry = .ok r := by
  cases entry with
  | ref aref => cases marker <;> exact ⟨_, rfl⟩
  | policy policy =>
    cases marker with
    | none => exact ⟨_, rfl⟩
    | some m =>
      rcases h m rfl with rfl | rfl
      · show ∃ r, (match policy.broadcast with | some _ => _ | none => _) = Except.ok r
        cases policy.broadcast <;> exact ⟨_, rfl⟩
      · show ∃ r, (match policy.select with | some _ => _ | none => _) = Except.ok r
        cases policy.select <;> exact ⟨_, rfl⟩

theorem implicitResult_ok (implicitRoutes : Bool) {marker : Option UInt8} (node : PathTrie (ActorTreeEntry R P))
    (h : ∀ m ∈ marker, m = broadcastMarker ∨ m = selectMarker) :
    ∃ r, implicitResult implicitRoutes marker node = .ok r := by
  cases marker with
  | none => exact ⟨_, rfl⟩
  | some m =>
    cases implicitRoutes with
    | false => exact ⟨_, rfl⟩
    | true => rcases h m rfl with rfl | rfl <;> exact ⟨_, rfl⟩

/-- A path that can be looked up is looked up without a panic. -/
theorem getByNamedPath_ok (debug implicitRoutes : Bool) (store : ActorStore R P) {path : List Utf8}
    (h : LookupPath path) : ∃ r, store.getByNamedPath debug implicitRoutes path = .ok r := by
  unfold getByNamedPath
  cases hlast : path.getLast? with
  | none => exact ⟨_, rfl⟩
  | some last =>
    simp only [h, not_true_eq_false, and_false, if_false]
    cases last with
    | nil => exact absurd rfl (h.ne_nil _ (List.mem_of_getLast? hlast))
    | cons c cs =>
      have hmarker := splitMarker_marker path c
      simp only [List.head?_cons]
      cases store.nameMap.getNode (splitMarker path c).1 with
      | none => exact ⟨_, rfl⟩
      | some node =>
        simp only
        cases node.value with
        | none => exact implicitResult_ok implicitRoutes node hmarker
        | some entry => exact entryResult_ok path node entry hmarker

end ActorStore

end Kompact
