import Kompact.Dispatch.Lookup
import Kompact.Serialisation.Deserialise

/-!
# Registering actors

An actor is inserted under its id, under a name, or as the deadletter box, and
is then found under the path that the dispatcher makes of what it was
registered with.

Aliases and segments are validated when they are inserted. A named path is
not, and the empty list of segments is valid, so an actor can be stored where
no lookup finds it: at the root of the trie, where the lookup finds the
deadletter box instead, or under a name that ends in a marker.
`insert_registers_iff` says exactly when the actor is found.
-/

namespace Kompact

/-- What an actor can be registered with. -/
inductive PathResolvable where
  | path (actorPath : ActorPath)
  | actorId (id : BitVec 128)
  | alias (name : Utf8)
  | segments (segments : List Utf8)
  | system

namespace PathResolvable

/-- The id that it stands for, if any. -/
def uuid? : PathResolvable → Option (BitVec 128)
  | .path (.unique _ id) => some id
  | .actorId id => some id
  | _ => none

/-- The name that it stands for, if any. -/
def name? : PathResolvable → Option (List Utf8)
  | .path (.named _ keys) => some keys
  | .alias name => some (parsePath name)
  | .segments keys => some keys
  | _ => none

/-- `SystemPath::into_named_with_vec` -/
def intoNamedWithVec (debug : Bool) (systemPath : SystemPath) (path : List Utf8) :
    Panics (Except PathParseError ActorPath) :=
  match validateLookupPath path with
  | .error e => .ok (.error e)
  | .ok _ => do return .ok (← makeNamed debug systemPath path)

/-- `NetworkDispatcher::resolve_path` -/
def resolvePath (debug : Bool) (systemPath : SystemPath) : PathResolvable → Panics (Except PathParseError ActorPath)
  | .path actorPath => .ok (.ok actorPath)
  | .alias name => intoNamedWithVec debug systemPath (parsePath name)
  | .segments keys => intoNamedWithVec debug systemPath keys
  | .actorId id => .ok (.ok (.unique systemPath id))
  | .system => do return .ok (← makeNamed debug systemPath [])

end PathResolvable

/-- The entry that was there before. -/
inductive InsertResult (R P : Type) where
  | ref (aref : R)
  | policy (policy : StorePolicy P)
  | none

def InsertResult.ofEntry {R P : Type} : Option (ActorTreeEntry R P) → InsertResult R P
  | some (.ref aref) => .ref aref
  | some (.policy stored) => .policy stored
  | Option.none => .none

def InsertResult.ofRef {R P : Type} : Option R → InsertResult R P
  | some aref => .ref aref
  | Option.none => .none

namespace ActorStore

variable {R P : Type}

def new : ActorStore R P := ⟨∅, .new, none⟩

/-- `name_map.insert_owned(path, entry)` -/
def insertEntry (store : ActorStore R P) (path : List Utf8) (entry : ActorTreeEntry R P) :
    ActorStore R P × InsertResult R P :=
  let (nameMap, prev) := store.nameMap.insertOwned path entry
  ({ store with nameMap }, .ofEntry prev)

/-- `insert_owned` of a path that is validated before. -/
def insertValidated (store : ActorStore R P) (path : List Utf8) (entry : ActorTreeEntry R P) :
    ActorStore R P × Except PathParseError (InsertResult R P) :=
  match validateInsertPath path with
  | .error e => (store, .error e)
  | .ok _ => (store.insertEntry path entry).map id .ok

/-- `uuid_map.insert(id, actor)` -/
def insertUuid (store : ActorStore R P) (id : BitVec 128) (actor : R) : ActorStore R P × InsertResult R P :=
  ({ store with uuidMap := AList.insert id actor store.uuidMap }, .ofRef (store.uuidMap.lookup id))

def insert (store : ActorStore R P) (actor : R) :
    PathResolvable → ActorStore R P × Except PathParseError (InsertResult R P)
  | .path (.unique _ key) => (store.insertUuid key actor).map id .ok
  | .path (.named _ path) => (store.insertEntry path (.ref actor)).map id .ok
  | .alias name => store.insertValidated (parsePath name) (.ref actor)
  | .segments path => store.insertValidated path (.ref actor)
  | .actorId uuid => (store.insertUuid uuid actor).map id .ok
  | .system => ({ store with deadletter := some actor }, .ok (.ofRef store.deadletter))

def setRoutingPolicy (store : ActorStore R P) (path : List Utf8) (policy : StorePolicy P) :
    ActorStore R P × Except PathParseError (InsertResult R P) :=
  store.insertValidated path (.policy policy)

/-- Whether there is an entry under a name. -/
def containsName (debug : Bool) (store : ActorStore R P) (path : List Utf8) : Panics Bool :=
  if debug ∧ ¬ LookupPath path then .error "Path contains illegal characters"
  else .ok (store.nameMap.get path).isSome

def contains (debug : Bool) (store : ActorStore R P) : PathResolvable → Panics Bool
  | .path (.unique _ id) => .ok (store.uuidMap.lookup id).isSome
  | .path (.named _ path) => store.containsName debug path
  | .alias name => store.containsName debug (parsePath name)
  | .segments path => store.containsName debug path
  | .actorId id => .ok (store.uuidMap.lookup id).isSome
  | .system => .ok store.deadletter.isSome

/-- Remove the entries of `uuid_map` whose actor satisfies `delete`. -/
def removeUuids (store : ActorStore R P) (delete : R → Bool) : ActorStore R P × Nat :=
  let found := (store.uuidMap.entries.filter fun e => delete e.2).map Sigma.fst
  ({ store with uuidMap := found.foldl (fun uuidMap id => uuidMap.erase id) store.uuidMap }, found.length)

/-- Keep the policies of `name_map`, and the actors that satisfy `keep`. -/
def retainNames (store : ActorStore R P) (keep : R → Bool) : ActorStore R P × Nat :=
  let (nameMap, count) := store.nameMap.retain fun entry =>
    match entry with
    | .ref aref => keep aref
    | .policy _ => true
  ({ store with nameMap }, count)

/-- `==` on references: they are to the same component, and it is still there.
`canUpgrade` says which components are. -/
def refEq [DecidableEq R] (canUpgrade : R → Bool) (me other : R) : Bool :=
  canUpgrade me && canUpgrade other && me == other

def removeFromUuidMap [DecidableEq R] (store : ActorStore R P) (canUpgrade : R → Bool) (actor : R) :
    ActorStore R P × Nat :=
  store.removeUuids fun other => refEq canUpgrade other actor

def removeFromNameMap [DecidableEq R] (store : ActorStore R P) (canUpgrade : R → Bool) (actor : R) :
    ActorStore R P × Nat :=
  store.retainNames fun other => !refEq canUpgrade actor other

def remove [DecidableEq R] (store : ActorStore R P) (canUpgrade : R → Bool) (actor : R) : ActorStore R P × Nat :=
  let (store, uuids) := store.removeFromUuidMap canUpgrade actor
  let (store, names) := store.removeFromNameMap canUpgrade actor
  (store, uuids + names)

def removeByUuid (store : ActorStore R P) (id : BitVec 128) : ActorStore R P × Bool :=
  ({ store with uuidMap := store.uuidMap.erase id }, (store.uuidMap.lookup id).isSome)

def removeByNamedPath (store : ActorStore R P) (path : List Utf8) : ActorStore R P × Bool :=
  ({ store with nameMap := (store.nameMap.remove path).1 }, (store.nameMap.get path).isSome)

/-- `remove_deallocated_entries` -/
def cleanup (store : ActorStore R P) (canUpgrade : R → Bool) : ActorStore R P × Nat :=
  let (store, names) := store.retainNames canUpgrade
  let (store, uuids) := store.removeUuids (!canUpgrade ·)
  (store, names + uuids)

/-! ## Runs -/

inductive Op (R P : Type) where
  | insert (path : PathResolvable) (actor : R)
  | setRoutingPolicy (path : List Utf8) (policy : StorePolicy P)
  | remove (canUpgrade : R → Bool) (actor : R)
  | removeByUuid (id : BitVec 128)
  | removeByNamedPath (path : List Utf8)
  | cleanup (canUpgrade : R → Bool)

def apply [DecidableEq R] (store : ActorStore R P) : Op R P → ActorStore R P
  | .insert path actor => (store.insert actor path).1
  | .setRoutingPolicy path policy => (store.setRoutingPolicy path policy).1
  | .remove canUpgrade actor => (store.remove canUpgrade actor).1
  | .removeByUuid id => (store.removeByUuid id).1
  | .removeByNamedPath path => (store.removeByNamedPath path).1
  | .cleanup canUpgrade => (store.cleanup canUpgrade).1

/-- The store after operations on a new one. -/
def run [DecidableEq R] (ops : List (Op R P)) : ActorStore R P := ops.foldl apply new

/-! ## Insertion and lookup -/

/-- The actor is found with what it was registered with, and all else is as
before. -/
structure Registers (debug implicitRoutes : Bool) (systemPath : SystemPath) (store store' : ActorStore R P)
    (path : PathResolvable) (actor : R) : Prop where
  contains : store'.contains debug path = .ok true
  lookup : ∃ actorPath, path.resolvePath debug systemPath = .ok (.ok actorPath) ∧
    store'.getByActorPath debug implicitRoutes actorPath = .ok (.ref actor)
  uuids : ∀ id, path.uuid? ≠ some id → store'.uuidMap.lookup id = store.uuidMap.lookup id
  names : ∀ key, path.name? ≠ some key → store'.nameMap.get key = store.nameMap.get key
  deadletter : path ≠ .system → store'.deadletter = store.deadletter

/-- An insertion registers the actor, or fails and changes nothing. -/
def InsertCorrect (debug implicitRoutes : Bool) (systemPath : SystemPath) (store : ActorStore R P)
    (path : PathResolvable) (actor : R) : Prop :=
  match store.insert actor path with
  | (store', .ok _) => Registers debug implicitRoutes systemPath store store' path actor
  | (store', .error _) => store' = store

/-- A name whose last segment is neither empty nor starts with a marker. -/
def Unmarked (path : List Utf8) : Prop :=
  match path.getLast? with
  | some (c :: _) => c ≠ broadcastMarker ∧ c ≠ selectMarker
  | _ => False

/-- The names under which an actor is found once it is stored there. -/
def Findable (debug : Bool) (store : ActorStore R P) (actor : R) (path : List Utf8) : Prop :=
  if path = [] then store.deadletter = some actor else Unmarked path ∧ (debug = true → LookupPath path)

/-- What an actor can be registered with. -/
def Registrable (debug : Bool) (store : ActorStore R P) (actor : R) : PathResolvable → Prop
  | .path (.named _ path) => Findable debug store actor path
  | .segments path => path = [] → store.deadletter = some actor
  | _ => True

theorem Findable.lookupPath {debug : Bool} {store : ActorStore R P} {actor : R} {path : List Utf8}
    (h : Findable debug store actor path) (hdebug : debug = true) : LookupPath path := by
  unfold Findable at h
  split at h
  · rename_i hnil
    rw [hnil]
    rfl
  · exact h.2 hdebug

theorem unmarked_of_insert {path : List Utf8} (h : validateInsertPath path = .ok ()) (hne : path ≠ []) :
    Unmarked path := by
  rw [validateInsertPath_ok_iff] at h
  unfold Unmarked
  rw [List.getLast?_eq_some_getLast hne]
  obtain ⟨hlast, hchars⟩ := h _ (List.getLast_mem hne)
  cases hl : path.getLast hne with
  | nil => exact absurd hl hlast
  | cons c cs =>
    rw [hl] at hchars
    obtain ⟨-, hb, hs, -⟩ := checkInsertChar_ok_iff.mp (hchars c List.mem_cons_self)
    exact ⟨hb, hs⟩

/-- Behind a marker no single actor is found. -/
theorem entryResult_marker_ne_ref (path : List Utf8) (marker : UInt8) (node : PathTrie (ActorTreeEntry R P))
    (entry : ActorTreeEntry R P) (actor : R) : entryResult path (some marker) node entry ≠ .ok (.ref actor) := by
  cases entry with
  | ref aref =>
    intro h
    cases h
  | policy policy =>
    simp only [entryResult]
    split_ifs
    · cases policy.broadcast <;> simp
    · cases policy.select <;> simp
    · simp

theorem implicitResult_ne_ref (implicitRoutes : Bool) (marker : Option UInt8)
    (node : PathTrie (ActorTreeEntry R P)) (actor : R) :
    implicitResult implicitRoutes marker node ≠ .ok (.ref actor) := by
  cases marker with
  | none => simp [implicitResult]
  | some marker =>
    simp only [implicitResult]
    split_ifs <;> simp

/-- The lookup once the marker is known. -/
def markedResult (implicitRoutes : Bool) (store : ActorStore R P) (path : List Utf8)
    (split : List Utf8 × Option UInt8) : Panics (LookupResult R P) :=
  match store.nameMap.getNode split.1 with
  | some node =>
    match node.value with
    | some entry => entryResult path split.2 node entry
    | none => implicitResult implicitRoutes split.2 node
  | none => .ok .none

theorem markedResult_marker_ne_ref (implicitRoutes : Bool) (store : ActorStore R P) (path lookupPath : List Utf8)
    (marker : UInt8) (actor : R) :
    markedResult implicitRoutes store path (lookupPath, some marker) ≠ .ok (.ref actor) := by
  unfold markedResult
  cases store.nameMap.getNode lookupPath with
  | none => simp
  | some node =>
    cases hv : node.value with
    | none => simpa only [hv] using implicitResult_ne_ref implicitRoutes (some marker) node actor
    | some entry => simpa only [hv] using entryResult_marker_ne_ref path marker node entry actor

theorem markedResult_of_get (implicitRoutes : Bool) {store : ActorStore R P} {path : List Utf8} {actor : R}
    (hget : store.nameMap.get path = some (.ref actor)) :
    markedResult implicitRoutes store path (path, none) = .ok (.ref actor) := by
  obtain ⟨node, hnode, hvalue⟩ := Option.bind_eq_some_iff.mp hget
  simp only [markedResult, hnode, hvalue]
  rfl

/-- A lookup of a name that is not empty. -/
theorem getByNamedPath_concat (debug implicitRoutes : Bool) (store : ActorStore R P) {path : List Utf8}
    {last : Utf8} (hlast : path.getLast? = some last) (hdebug : debug = true → LookupPath path) :
    store.getByNamedPath debug implicitRoutes path =
      match last.head? with
      | none => .error "Should not be empty"
      | some c => markedResult implicitRoutes store path (splitMarker path c) := by
  have hassert : ¬ (debug = true ∧ ¬ LookupPath path) := fun h => h.2 (hdebug h.1)
  unfold getByNamedPath
  rw [hlast]
  simp only [hassert, if_false]
  rfl

/-- Where the actor is stored, the lookup finds it exactly if the name is one
to find it by. -/
theorem getByNamedPath_eq_ref_iff (debug implicitRoutes : Bool) (store : ActorStore R P) {path : List Utf8}
    {actor : R} (hget : store.nameMap.get path = some (.ref actor)) :
    store.getByNamedPath debug implicitRoutes path = .ok (.ref actor) ↔ Findable debug store actor path := by
  unfold Findable
  cases hlast : path.getLast? with
  | none =>
    rw [if_pos (List.getLast?_eq_none_iff.mp hlast)]
    unfold getByNamedPath
    rw [hlast]
    cases store.deadletter <;> simp [LookupResult.ofOption]
  | some last =>
    have hne : path ≠ [] := by
      rintro rfl
      cases hlast
    rw [if_neg hne]
    unfold Unmarked
    rw [hlast]
    by_cases hdebug : debug = true → LookupPath path
    · rw [getByNamedPath_concat debug implicitRoutes store hlast hdebug]
      cases last with
      | nil => simp
      | cons c cs =>
        rw [and_iff_left hdebug]
        simp only [List.head?_cons, splitMarker]
        split_ifs with hb hs
        · simp [hb, markedResult_marker_ne_ref]
        · simp [hs, markedResult_marker_ne_ref]
        · simp [hb, hs, markedResult_of_get implicitRoutes hget]
    · have hassert : debug = true ∧ ¬ LookupPath path := Classical.not_imp.mp hdebug
      unfold getByNamedPath
      simp [hlast, hassert]

/-! ## What each insertion leaves -/

theorem insertEntry_get (store : ActorStore R P) (path : List Utf8) (entry : ActorTreeEntry R P) (key : List Utf8) :
    (store.insertEntry path entry).1.nameMap.get key = if key = path then some entry else store.nameMap.get key := by
  unfold insertEntry
  rw [PathTrie.insertOwned_eq]
  exact PathTrie.insert_get store.nameMap path entry key

/-- Where an actor is stored under a name that resolves to itself, it is
registered exactly if it can be found there. -/
theorem insertEntry_registers_iff (debug implicitRoutes : Bool) (systemPath : SystemPath) (store : ActorStore R P)
    {path : PathResolvable} {name : List Utf8} (actor : R) {system : SystemPath} (hname : path.name? = some name)
    (hcontains : ∀ store : ActorStore R P, store.contains debug path = store.containsName debug name)
    (hresolve : path.resolvePath debug systemPath = .ok (.ok (.named system name))) :
    Registers debug implicitRoutes systemPath store (store.insertEntry name (.ref actor)).1 path actor ↔
      Findable debug store actor name := by
  have hget : (store.insertEntry name (.ref actor)).1.nameMap.get name = some (.ref actor) := by
    rw [insertEntry_get, if_pos rfl]
  have hfind := getByNamedPath_eq_ref_iff debug implicitRoutes (store.insertEntry name (.ref actor)).1 hget
  constructor
  · intro h
    obtain ⟨actorPath, hpath, hlookup⟩ := h.lookup
    rw [hresolve] at hpath
    cases hpath
    exact hfind.mp hlookup
  · intro h
    refine ⟨?_, ⟨_, hresolve, hfind.mpr h⟩, fun _ _ => rfl, fun key hkey => ?_, fun _ => rfl⟩
    · rw [hcontains]
      have hassert : ¬ (debug = true ∧ ¬ LookupPath name) := fun hd => hd.2 (h.lookupPath hd.1)
      simp only [containsName, hassert, if_false, hget, Option.isSome_some]
    · rw [insertEntry_get, if_neg]
      rintro rfl
      exact hkey hname

theorem insertUuid_registers (debug implicitRoutes : Bool) (systemPath : SystemPath) (store : ActorStore R P)
    {path : PathResolvable} {id : BitVec 128} (actor : R) {system : SystemPath} (huuid : path.uuid? = some id)
    (hcontains : ∀ store : ActorStore R P, store.contains debug path = .ok (store.uuidMap.lookup id).isSome)
    (hresolve : path.resolvePath debug systemPath = .ok (.ok (.unique system id))) :
    Registers debug implicitRoutes systemPath store (store.insertUuid id actor).1 path actor := by
  have hlookup : (store.insertUuid id actor).1.uuidMap.lookup id = some actor := AList.lookup_insert _
  refine ⟨?_, ⟨_, hresolve, ?_⟩, fun id' hne => ?_, fun _ _ => rfl, fun _ => rfl⟩
  · rw [hcontains, hlookup]
    rfl
  · exact congrArg (Except.ok ∘ LookupResult.ofOption) hlookup
  · refine AList.lookup_insert_ne ?_
    rintro rfl
    exact hne huuid

theorem makeNamed_ok (debug : Bool) (systemPath : SystemPath) {path : List Utf8} (h : LookupPath path) :
    makeNamed debug systemPath path = .ok (.named systemPath path) := by
  simp [makeNamed, h]

/-- A path that was validated resolves to itself. -/
theorem intoNamedWithVec_ok (debug : Bool) (systemPath : SystemPath) {path : List Utf8} (h : LookupPath path) :
    PathResolvable.intoNamedWithVec debug systemPath path = .ok (.ok (.named systemPath path)) := by
  have hvalid : validateLookupPath path = .ok () := h
  rw [PathResolvable.intoNamedWithVec, hvalid, makeNamed_ok debug systemPath h]
  rfl

theorem findable_iff_of_insert (debug : Bool) (store : ActorStore R P) (actor : R) {path : List Utf8}
    (h : validateInsertPath path = .ok ()) :
    Findable debug store actor path ↔ (path = [] → store.deadletter = some actor) := by
  unfold Findable
  by_cases hne : path = []
  · simp [hne]
  · simp [hne, unmarked_of_insert h hne, LookupPath.of_insert h]

/-- Where the name is validated, only the empty one is not found. -/
theorem insertValidated_correct_iff (debug implicitRoutes : Bool) (systemPath : SystemPath) (store : ActorStore R P)
    {path : PathResolvable} {name : List Utf8} (actor : R)
    (hinsert : store.insert actor path = store.insertValidated name (.ref actor)) (hname : path.name? = some name)
    (hcontains : ∀ store : ActorStore R P, store.contains debug path = store.containsName debug name)
    (hresolve : path.resolvePath debug systemPath = PathResolvable.intoNamedWithVec debug systemPath name) :
    InsertCorrect debug implicitRoutes systemPath store path actor ↔
      (name = [] → store.deadletter = some actor) := by
  unfold InsertCorrect
  rw [hinsert]
  unfold insertValidated
  cases hvalid : validateInsertPath name with
  | error e =>
    refine iff_of_true rfl fun hnil => ?_
    rw [hnil] at hvalid
    cases hvalid
  | ok _ =>
    have hresolved := hresolve.trans (intoNamedWithVec_ok debug systemPath (.of_insert hvalid))
    rw [← findable_iff_of_insert debug store actor hvalid]
    exact insertEntry_registers_iff debug implicitRoutes systemPath store actor hname hcontains hresolved

/-- An actor is registered by an insertion exactly if what it is registered
with can be found. -/
theorem insertCorrect_iff (debug implicitRoutes : Bool) (systemPath : SystemPath) (store : ActorStore R P)
    (path : PathResolvable) (actor : R) :
    InsertCorrect debug implicitRoutes systemPath store path actor ↔ Registrable debug store actor path := by
  match path with
  | .path (.unique system id) =>
    exact iff_of_true (insertUuid_registers debug implicitRoutes systemPath store actor rfl (fun _ => rfl) rfl) trivial
  | .path (.named system name) =>
    exact insertEntry_registers_iff debug implicitRoutes systemPath store actor rfl (fun _ => rfl) rfl
  | .actorId id =>
    exact iff_of_true (insertUuid_registers debug implicitRoutes systemPath store actor rfl (fun _ => rfl) rfl) trivial
  | .alias name =>
    have hne : parsePath name ≠ [] := List.splitOn_ne_nil slash name
    refine iff_of_true ?_ trivial
    exact (insertValidated_correct_iff debug implicitRoutes systemPath store actor rfl rfl (fun _ => rfl) rfl).mpr
      fun hnil => absurd hnil hne
  | .segments name =>
    exact insertValidated_correct_iff debug implicitRoutes systemPath store actor rfl rfl (fun _ => rfl) rfl
  | .system =>
    refine iff_of_true ?_ trivial
    refine ⟨rfl, ⟨.named systemPath [], ?_, rfl⟩, fun _ _ => rfl, fun _ _ => rfl, fun h => absurd rfl h⟩
    exact congrArg (Except.map Except.ok) (makeNamed_ok debug systemPath (show LookupPath [] from rfl))

/-- After every run of operations on a new store, an insertion registers the
actor, or fails and changes nothing, exactly if the actor is found under what
it is registered with: the name has a last segment that does not start with a
marker, or leads to the deadletter box that the actor already is. -/
theorem insert_registers_iff [DecidableEq R] (debug implicitRoutes : Bool) (systemPath : SystemPath)
    (ops : List (Op R P)) (path : PathResolvable) (actor : R) :
    InsertCorrect debug implicitRoutes systemPath (run ops) path actor ↔ Registrable debug (run ops) actor path :=
  insertCorrect_iff debug implicitRoutes systemPath (run ops) path actor

/-- An actor that is registered with the named path `pongers/*` is not found
there: the lookup takes the last segment for a marker. -/
theorem not_insertCorrect_marker :
    ¬ InsertCorrect false false ⟨.tcp, .v4 0x7F000001, 8080⟩ (run ([] : List (Op Nat Unit)))
      (.path (.named ⟨.tcp, .v4 0x7F000001, 8080⟩ [[0x70, 0x6F, 0x6E, 0x67, 0x65, 0x72, 0x73], [0x2A]])) 7 := by
  rw [insertCorrect_iff]
  intro (h : Unmarked _ ∧ _)
  exact h.1.1 rfl

end ActorStore

end Kompact
