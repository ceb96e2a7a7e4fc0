import Kompact.Buffers.BufferPool
import Kompact.Dispatch.Removal
import Kompact.Framework.Transition

/-!
# Registration and collection

The dispatcher registers actors and routing policies in its lookup table and
answers each request. From the first actor on it runs the reaper: a timer that
removes the actors that were deallocated, and is scheduled again for a time that
depends on whether there were any.

`view` is what the table is for, a map from ids and names to entries. A
registration sets one entry of it (`view_insertInto`) and a collection takes
entries out (`view_cleanup`). `step_cases` says what a step does to it.

* `reaper_in_time`: there is one timer as soon as an actor was registered, and
  its interval stays between the bounds;
* `dead_collected`: an actor that was deallocated is not found any more once the
  timer that was pending then has fired;
* `registered_stays`: until then, and unless its registration is updated, it is
  found with what it was registered with, and nothing else is registered there.
-/

namespace Kompact

/-! ## The reaper -/

inductive FeedbackAlgorithm where
  /-- Additive increase and multiplicative decrease. -/
  | aimd
  /-- Multiplicative increase and multiplicative decrease. -/
  | mimd
  deriving DecidableEq, Repr

/-- The strategy for the interval, in milliseconds. -/
structure UpdateStrategy where
  curr : Nat
  incr : Nat
  decr : Nat
  min : Nat
  max : Nat
  algo : FeedbackAlgorithm
  deriving DecidableEq, Repr

namespace UpdateStrategy

/-- An operation on 64 bits, checked for overflow. -/
def checked (msg : String) (n : Nat) : Panics Nat := if n < 2 ^ 64 then .ok n else .error msg

/-- `incr` -/
def increase (s : UpdateStrategy) : Panics UpdateStrategy := do
  let next ← match s.algo with
    | .aimd => checked "attempt to add with overflow" (s.curr + s.incr)
    | .mimd => checked "attempt to multiply with overflow" (s.curr * s.incr)
  return { s with curr := Min.min next s.max }

/-- `decr` -/
def decrease (s : UpdateStrategy) : Panics UpdateStrategy :=
  if s.decr = 0 then .error "attempt to divide by zero" else .ok { s with curr := Max.max (s.curr / s.decr) s.min }

end UpdateStrategy

structure ActorRefReaper where
  scheduled : Bool
  strategy : UpdateStrategy
  deriving DecidableEq, Repr

/-- The reaper of a configuration, by the value of its key for the algorithm. -/
def ActorRefReaper.fromConfig : Option String → Panics ActorRefReaper
  | some "AIMD" => .ok ⟨false, ⟨500, 500, 2, 20, 5000, .aimd⟩⟩
  | some "MIMD" => .ok ⟨false, ⟨500, 500, 2, 20, 5000, .mimd⟩⟩
  | some _ => .error "Illegal configuration argument"
  | none => .ok ⟨false, ⟨500, 500, 2, 20, 5000, .aimd⟩⟩

/-! ## The dispatcher -/

inductive RegistrationError where
  | duplicateEntry
  | invalidPath (e : PathParseError)

abbrev RegistrationResult := Except RegistrationError ActorPath

inductive RegistrationEvent (R P : Type) where
  | actor (actor : R) (path : PathResolvable)
  | policy (policy : StorePolicy P) (path : List Utf8)

namespace RegistrationEvent

variable {R P : Type}

def resolvable : RegistrationEvent R P → PathResolvable
  | actor _ path => path
  | policy _ path => .segments path

def insertInto (store : ActorStore R P) :
    RegistrationEvent R P → ActorStore R P × Except PathParseError (InsertResult R P)
  | actor aref path => store.insert aref path
  | policy stored path => store.setRoutingPolicy path stored

def isActor : RegistrationEvent R P → Bool
  | actor .. => true
  | policy .. => false

end RegistrationEvent

/-- The dispatcher, as far as it serves the lookup table, with its timers and the clock. -/
structure LookupService (R P : Type) where
  systemPath : SystemPath
  lookup : ActorStore R P
  reaper : ActorRefReaper
  garbageBuffers : List BufferChunk
  /-- When the reaper runs next, for each timer. -/
  timers : List Nat
  now : Nat
  /-- The references that cannot be upgraded any more. -/
  deallocated : R → Bool
  /-- How the requests were answered. -/
  answers : List (RegistrationEvent R P × RegistrationResult)

namespace LookupService

variable {R P : Type}

/-- The dispatcher after its start. -/
def start (systemPath : SystemPath) (deadletter : R) (algorithm : Option String) : Panics (LookupService R P) := do
  let reaper ← ActorRefReaper.fromConfig algorithm
  return {
    systemPath
    lookup := (ActorStore.new.insert deadletter .system).1
    reaper
    garbageBuffers := []
    timers := []
    now := 0
    deallocated := fun _ => false
    answers := [] }

/-- The chunks that are still locked. -/
def retryQueue (garbage : List BufferChunk) : List BufferChunk := garbage.filter (!·.free.1)

/-- `schedule_reaper` -/
def scheduleReaper (d : LookupService R P) : Panics (LookupService R P) := do
  let d ← if !d.reaper.scheduled then pure { d with reaper.scheduled := true }
    else
      let (lookup, numReaped) := d.lookup.cleanup (!d.deallocated ·)
      let strategy ← if numReaped = 0 then d.reaper.strategy.increase else d.reaper.strategy.decrease
      pure { d with lookup, reaper.strategy := strategy }
  return { d with
    garbageBuffers := retryQueue d.garbageBuffers
    timers := d.timers ++ [d.now + d.reaper.strategy.curr] }

/-- How `register_actor` and `register_policy` change the table: the path is resolved, and there
is an entry only if it may be replaced. -/
def registerInto (debug : Bool) (d : LookupService R P) (event : RegistrationEvent R P) (update : Bool) :
    Panics (ActorStore R P × RegistrationResult) := do
  match ← event.resolvable.resolvePath debug d.systemPath with
  | .error e => return (d.lookup, .error (.invalidPath e))
  | .ok actorPath =>
    if (← d.lookup.contains debug event.resolvable) && !update then return (d.lookup, .error .duplicateEntry)
    else
      match event.insertInto d.lookup with
      | (next, .ok _) => return (next, .ok actorPath)
      | (next, .error e) => return (next, .error (.invalidPath e))

/-- The request is answered, and the first actor starts the reaper. -/
def register (debug : Bool) (d : LookupService R P) (event : RegistrationEvent R P) (update : Bool) :
    Panics (LookupService R P) := do
  let (lookup, res) ← d.registerInto debug event update
  let d := { d with lookup, answers := d.answers ++ [(event, res)] }
  if event.isActor && res.toBool && !d.reaper.scheduled then d.scheduleReaper else return d

def registerActor (debug : Bool) (d : LookupService R P) (actor : R) (path : PathResolvable) (update : Bool) :
    Panics (LookupService R P) :=
  d.register debug (.actor actor path) update

def registerPolicy (debug : Bool) (d : LookupService R P) (policy : StorePolicy P) (path : List Utf8)
    (update : Bool) : Panics (LookupService R P) :=
  d.register debug (.policy policy path) update

inductive Action (R P : Type) where
  | registerActor (actor : R) (path : PathResolvable) (update : Bool)
  | registerPolicy (policy : StorePolicy P) (path : List Utf8) (update : Bool)
  /-- A component is deallocated. -/
  | deallocate (actor : R)
  /-- A chunk that is still locked, of an encode buffer that was dropped. -/
  | lockedChunk (chunk : BufferChunk)
  /-- A lock on a chunk is dropped. -/
  | dropLock (chunk : ChunkId)
  | wait (n : Nat)
  /-- The `k`-th timer fires, which is not before it is due. -/
  | timeout (k : Nat)

/-- One step. It is undefined where the code panics. -/
def step [DecidableEq R] (debug : Bool) (d : LookupService R P) : Action R P → Option (LookupService R P)
  | .registerActor actor path update => (d.registerActor debug actor path update).toOption
  | .registerPolicy policy path update => (d.registerPolicy debug policy path update).toOption
  | .deallocate actor => some { d with deallocated := fun aref => aref = actor || d.deallocated aref }
  | .lockedChunk chunk => some { d with garbageBuffers := d.garbageBuffers ++ [chunk] }
  | .dropLock chunk => some { d with garbageBuffers := d.garbageBuffers.map (.dropLock chunk) }
  | .wait n => some { d with now := d.now + n }
  | .timeout k =>
    match d.timers[k]? with
    | some due => if due ≤ d.now then ({ d with timers := d.timers.eraseIdx k }.scheduleReaper).toOption else none
    | none => none

end LookupService

/-! ## The table as a map -/

/-- What entries are stored under. -/
inductive LookupKey where
  | uuid (id : BitVec 128)
  | name (path : List Utf8)
  deriving DecidableEq

def PathResolvable.key? : PathResolvable → Option LookupKey
  | .path (.unique _ id) => some (.uuid id)
  | .path (.named _ keys) => some (.name keys)
  | .alias name => some (.name (parsePath name))
  | .segments keys => some (.name keys)
  | .actorId id => some (.uuid id)
  | .system => none

/-- What is stored for a registration. -/
def RegistrationEvent.entry {R P : Type} : RegistrationEvent R P → ActorTreeEntry R P
  | actor aref _ => .ref aref
  | policy stored _ => .policy stored

namespace ActorStore

variable {R P : Type}

/-- The entry under a key. -/
def view (store : ActorStore R P) : LookupKey → Option (ActorTreeEntry R P)
  | .uuid id => (store.uuidMap.lookup id).map .ref
  | .name path => store.nameMap.get path

variable {store : ActorStore R P}

theorem view_insertUuid (store : ActorStore R P) (id : BitVec 128) (actor : R) (key : LookupKey) :
    (store.insertUuid id actor).1.view key = if key = .uuid id then some (.ref actor) else store.view key := by
  cases key with
  | uuid id' =>
    show ((AList.insert id actor store.uuidMap).lookup id').map ActorTreeEntry.ref = _
    by_cases h : id' = id
    · subst h
      rw [AList.lookup_insert, if_pos rfl]
      rfl
    · rw [AList.lookup_insert_ne h, if_neg fun he => h (LookupKey.uuid.inj he)]
      rfl
  | name path => rw [if_neg fun he => by cases he]; rfl

theorem view_insertEntry (store : ActorStore R P) (path : List Utf8) (entry : ActorTreeEntry R P) (key : LookupKey) :
    (store.insertEntry path entry).1.view key = if key = .name path then some entry else store.view key := by
  cases key with
  | uuid id => rw [if_neg fun he => by cases he]; rfl
  | name path' =>
    show (store.insertEntry path entry).1.nameMap.get path' = _
    rw [insertEntry_get]
    by_cases h : path' = path
    · rw [if_pos h, if_pos (congrArg _ h)]
    · rw [if_neg h, if_neg fun he => h (LookupKey.name.inj he)]
      rfl

theorem view_insertValidated (store : ActorStore R P) (path : List Utf8) (entry : ActorTreeEntry R P) :
    match store.insertValidated path entry with
    | (store', .ok _) => ∀ key, store'.view key = if key = .name path then some entry else store.view key
    | (store', .error _) => store' = store := by
  unfold insertValidated
  cases validateInsertPath path with
  | error e => rfl
  | ok u => exact view_insertEntry store path entry

/-- A registration sets the entry under its key, or fails and changes nothing. -/
theorem view_insertInto (store : ActorStore R P) (event : RegistrationEvent R P) :
    match event.insertInto store with
    | (store', .ok _) =>
      ∀ key, store'.view key = if event.resolvable.key? = some key then some event.entry else store.view key
    | (store', .error _) => store' = store := by
  have hflip : ∀ {key key' : LookupKey} {x y : Option (ActorTreeEntry R P)},
      (if key' = key then x else y) = if some key = some key' then x else y := fun {key key'} {x y} =>
    if_congr ⟨fun h => by rw [h], fun h => (Option.some.inj h).symm⟩ rfl rfl
  have hname : ∀ (path : List Utf8) (entry : ActorTreeEntry R P),
      match store.insertValidated path entry with
      | (store', .ok _) =>
        ∀ key, store'.view key = if some (LookupKey.name path) = some key then some entry else store.view key
      | (store', .error _) => store' = store := by
    intro path entry
    simp only [← hflip]
    exact view_insertValidated store path entry
  match event with
  | .actor aref (.path (.unique _ id)) => exact fun key => (view_insertUuid store id aref key).trans hflip
  | .actor aref (.path (.named _ path)) => exact fun key => (view_insertEntry store path (.ref aref) key).trans hflip
  | .actor aref (.alias name) => exact hname (parsePath name) (.ref aref)
  | .actor aref (.segments path) => exact hname path (.ref aref)
  | .actor aref (.actorId id) => exact fun key => (view_insertUuid store id aref key).trans hflip
  | .actor aref .system => exact fun key => by cases key <;> rfl
  | .policy stored path => exact hname path (.policy stored)

/-- A collection keeps the policies and the actors that are there. -/
theorem view_cleanup (h : store.nameMap.Pruned) (canUpgrade : R → Bool) (key : LookupKey) :
    (store.cleanup canUpgrade).1.view key = (store.view key).filter (keepsEntry canUpgrade) := by
  have hkeep : (fun aref => !!canUpgrade aref) = canUpgrade := funext fun aref => Bool.not_not _
  rw [cleanup_eq_sweep]
  cases key with
  | uuid id =>
    show ((store.sweep _).1.uuidMap.lookup id).map ActorTreeEntry.ref = _
    rw [sweep_lookup, hkeep, view]
    cases store.uuidMap.lookup id with
    | none => rfl
    | some aref => cases hu : canUpgrade aref <;> simp [Option.filter, keepsEntry, hu]
  | name path =>
    show (store.sweep _).1.nameMap.get path = _
    rw [sweep_get h, hkeep]
    rfl

/-- Where there is an entry, the table contains the path, or looking for it panics. -/
theorem contains_of_view {debug : Bool} {path : PathResolvable} {key : LookupKey} (hk : path.key? = some key)
    (hv : (store.view key).isSome) {b : Bool} (h : store.contains debug path = .ok b) : b = true := by
  have hname : ∀ name, store.containsName debug name = .ok b → (store.nameMap.get name).isSome → b = true := by
    intro name hn hs
    unfold containsName at hn
    split at hn
    · cases hn
    · rw [← Except.ok.inj hn]
      exact hs
  have huuid : ∀ id, Except.ok (store.uuidMap.lookup id).isSome = (Except.ok b : Panics Bool) →
      ((store.uuidMap.lookup id).map (ActorTreeEntry.ref (P := P))).isSome → b = true := by
    intro id hu hs
    rw [← Except.ok.inj hu]
    simpa using hs
  match path, hk with
  | .path (.unique _ id), rfl => exact huuid id h hv
  | .path (.named _ name), rfl => exact hname name h hv
  | .alias name, rfl => exact hname _ h hv
  | .segments name, rfl => exact hname name h hv
  | .actorId id, rfl => exact huuid id h hv

theorem pruned_insertInto [DecidableEq R] (h : store.nameMap.Pruned) (event : RegistrationEvent R P) :
    (event.insertInto store).1.nameMap.Pruned :=
  match event with
  | .actor aref path => pruned_apply h (.insert path aref)
  | .policy stored path => pruned_apply h (.setRoutingPolicy path stored)

theorem deadletter_insertValidated (store : ActorStore R P) (path : List Utf8) (entry : ActorTreeEntry R P) :
    (store.insertValidated path entry).1.deadletter = store.deadletter := by
  unfold insertValidated
  cases validateInsertPath path <;> rfl

/-- Only the registration of a deadletter box changes it. -/
theorem deadletter_insertInto {event : RegistrationEvent R P} {aref : R}
    (h : (event.insertInto store).1.deadletter = some aref) :
    store.deadletter = some aref ∨ event = .actor aref .system := by
  match event, h with
  | .actor _ (.path (.unique _ _)), h => exact .inl h
  | .actor _ (.path (.named _ _)), h => exact .inl h
  | .actor _ (.alias name), h => exact .inl ((deadletter_insertValidated ..).symm.trans h)
  | .actor _ (.segments path), h => exact .inl ((deadletter_insertValidated ..).symm.trans h)
  | .actor _ (.actorId _), h => exact .inl h
  | .actor _ .system, rfl => exact .inr rfl
  | .policy stored path, h => exact .inl ((deadletter_insertValidated ..).symm.trans h)

end ActorStore

/-! ## The interval -/

namespace UpdateStrategy

/-- The interval is between its bounds, and the next one can be computed. -/
structure Sound (s : UpdateStrategy) : Prop where
  min_le : s.min ≤ s.curr
  le_max : s.curr ≤ s.max
  decr_pos : 0 < s.decr
  room : match s.algo with
    | .aimd => s.max + s.incr < 2 ^ 64
    | .mimd => 0 < s.incr ∧ s.max * s.incr < 2 ^ 64

variable {s : UpdateStrategy}

theorem checked_ok {msg : String} {n : Nat} (h : n < 2 ^ 64) : checked msg n = .ok n := if_pos h

theorem Sound.withCurr (h : s.Sound) {curr : Nat} (hmin : s.min ≤ curr) (hmax : curr ≤ s.max) :
    ({ s with curr } : UpdateStrategy).Sound :=
  ⟨hmin, hmax, h.decr_pos, h.room⟩

theorem Sound.increase (h : s.Sound) :
    ∃ curr, s.increase = .ok { s with curr } ∧ ({ s with curr } : UpdateStrategy).Sound := by
  have hbounds : s.min ≤ s.max := Nat.le_trans h.min_le h.le_max
  obtain ⟨curr, incr, decr, min, max, algo⟩ := s
  cases algo with
  | aimd =>
    have hroom : max + incr < 2 ^ 64 := h.room
    have hlt : curr + incr < 2 ^ 64 := Nat.lt_of_le_of_lt (Nat.add_le_add_right h.le_max _) hroom
    refine ⟨Min.min (curr + incr) max, ?_, h.withCurr ?_ (Nat.min_le_right ..)⟩
    · simp only [UpdateStrategy.increase, checked_ok hlt]
      rfl
    · exact Nat.le_min.mpr ⟨Nat.le_trans h.min_le (Nat.le_add_right ..), hbounds⟩
  | mimd =>
    obtain ⟨hpos, hroom⟩ : 0 < incr ∧ max * incr < 2 ^ 64 := h.room
    have hlt : curr * incr < 2 ^ 64 := Nat.lt_of_le_of_lt (Nat.mul_le_mul_right _ h.le_max) hroom
    refine ⟨Min.min (curr * incr) max, ?_, h.withCurr ?_ (Nat.min_le_right ..)⟩
    · simp only [UpdateStrategy.increase, checked_ok hlt]
      rfl
    · exact Nat.le_min.mpr ⟨Nat.le_trans h.min_le (Nat.le_mul_of_pos_right _ hpos), hbounds⟩

theorem Sound.decrease (h : s.Sound) :
    ∃ curr, s.decrease = .ok { s with curr } ∧ ({ s with curr } : UpdateStrategy).Sound := by
  unfold UpdateStrategy.decrease
  rw [if_neg (Nat.ne_of_gt h.decr_pos)]
  refine ⟨Max.max (s.curr / s.decr) s.min, rfl, h.withCurr (Nat.le_max_right ..) ?_⟩
  exact Nat.max_le.mpr ⟨Nat.le_trans (Nat.div_le_self ..) h.le_max, Nat.le_trans h.min_le h.le_max⟩

end UpdateStrategy

theorem ActorRefReaper.fromConfig_ok {algorithm : Option String} {reaper : ActorRefReaper}
    (h : fromConfig algorithm = .ok reaper) :
    reaper.scheduled = false ∧ reaper.strategy.Sound ∧ reaper.strategy.min = 20 ∧ reaper.strategy.max = 5000 := by
  unfold fromConfig at h
  split at h <;> cases h
  all_goals exact ⟨rfl, ⟨by decide, by decide, by decide, by decide⟩, rfl, rfl⟩

namespace LookupService

variable {R P : Type} {debug : Bool} {d d' : LookupService R P}

/-! ## What a step does -/

def Action.registration? : Action R P → Option (RegistrationEvent R P × Bool)
  | registerActor actor path update => some (.actor actor path, update)
  | registerPolicy policy path update => some (.policy policy path, update)
  | _ => none

/-- What holds after every step. -/
structure Inv (d : LookupService R P) : Prop where
  pruned : d.lookup.nameMap.Pruned
  sound : d.reaper.strategy.Sound
  bounds : d.reaper.strategy.min = 20 ∧ d.reaper.strategy.max = 5000
  timer :
    if d.reaper.scheduled then ∃ due, d.timers = [due] ∧ due ≤ d.now + d.reaper.strategy.curr else d.timers = []
  scheduled : d.reaper.scheduled = true ↔ ∃ actor path actorPath, (.actor actor path, .ok actorPath) ∈ d.answers
  /-- Before the first registration there is nothing to collect. -/
  noRefs : d.reaper.scheduled = false → ∀ key actor, d.lookup.view key ≠ some (.ref actor)

/-- A registration is refused, or sets the entry. -/
theorem registerInto_cases {event : RegistrationEvent R P} {update : Bool} {lookup : ActorStore R P}
    {res : RegistrationResult} (h : d.registerInto debug event update = .ok (lookup, res)) :
    (∃ e, res = .error e ∧ lookup = d.lookup) ∨
      ∃ actorPath prev, res = .ok actorPath ∧ event.resolvable.resolvePath debug d.systemPath = .ok (.ok actorPath) ∧
        (update = false → d.lookup.contains debug event.resolvable = .ok false) ∧
        event.insertInto d.lookup = (lookup, .ok prev) := by
  obtain ⟨resolved, hresolved, h⟩ := Panics.bind_eq_ok.mp h
  cases resolved with
  | error e =>
    cases h
    exact .inl ⟨_, rfl, rfl⟩
  | ok actorPath =>
    obtain ⟨contained, hcontained, h⟩ := Panics.bind_eq_ok.mp h
    split at h
    · cases h
      exact .inl ⟨_, rfl, rfl⟩
    · rename_i hnew
      have hview := ActorStore.view_insertInto d.lookup event
      cases hinsert : event.insertInto d.lookup with
      | mk next result =>
        rw [hinsert] at h hview
        cases result with
        | error e =>
          cases h
          exact .inl ⟨_, rfl, hview⟩
        | ok prev =>
          cases h
          refine .inr ⟨actorPath, prev, rfl, hresolved, fun hupdate => ?_, rfl⟩
          rw [hcontained]
          simpa [hupdate] using hnew

theorem scheduleReaper_first (h : d.reaper.scheduled = false) :
    d.scheduleReaper = .ok { d with
      reaper.scheduled := true
      garbageBuffers := retryQueue d.garbageBuffers
      timers := d.timers ++ [d.now + d.reaper.strategy.curr] } := by
  unfold scheduleReaper
  rw [h]
  rfl

theorem scheduleReaper_next (h : d.reaper.scheduled = true) (hs : d.reaper.strategy.Sound) :
    ∃ curr, ({ d.reaper.strategy with curr } : UpdateStrategy).Sound ∧ d.scheduleReaper = .ok { d with
      lookup := (d.lookup.cleanup (!d.deallocated ·)).1
      reaper.strategy.curr := curr
      garbageBuffers := retryQueue d.garbageBuffers
      timers := d.timers ++ [d.now + curr] } := by
  unfold scheduleReaper
  rw [h]
  simp only [Bool.not_true, Bool.false_eq_true, if_false]
  split
  · obtain ⟨curr, hincr, hsound⟩ := hs.increase
    refine ⟨curr, hsound, ?_⟩
    rw [hincr]
    rfl
  · obtain ⟨curr, hdecr, hsound⟩ := hs.decrease
    refine ⟨curr, hsound, ?_⟩
    rw [hdecr]
    rfl

/-- What a step does where the invariant holds. -/
inductive Steps (debug : Bool) (d : LookupService R P) : Action R P → LookupService R P → Prop
  | register {a : Action R P} {event : RegistrationEvent R P} {update : Bool} (lookup : ActorStore R P)
      (res : RegistrationResult) (garbageBuffers : List BufferChunk) (ha : a.registration? = some (event, update))
      (hreg : d.registerInto debug event update = .ok (lookup, res)) (started : Bool)
      (hstart : started = (event.isActor && res.toBool && !d.reaper.scheduled)) :
      Steps debug d a { d with
        lookup
        answers := d.answers ++ [(event, res)]
        reaper.scheduled := d.reaper.scheduled || started
        garbageBuffers
        timers := d.timers ++ if started then [d.now + d.reaper.strategy.curr] else [] }
  | deallocate (actor : R) (deallocated : R → Bool)
      (h : ∀ aref, deallocated aref = true ↔ aref = actor ∨ d.deallocated aref) :
      Steps debug d (.deallocate actor) { d with deallocated }
  | other {a : Action R P} (n : Nat) (garbageBuffers : List BufferChunk) (ha : a.registration? = none) :
      Steps debug d a { d with now := d.now + n, garbageBuffers }
  | timeout {k due : Nat} (curr : Nat) (garbageBuffers : List BufferChunk) (hs : d.reaper.scheduled = true)
      (ht : d.timers = [due]) (hdue : due ≤ d.now)
      (hsound : ({ d.reaper.strategy with curr } : UpdateStrategy).Sound) :
      Steps debug d (.timeout k) { d with
        lookup := (d.lookup.cleanup (!d.deallocated ·)).1
        reaper.strategy.curr := curr
        garbageBuffers
        timers := [d.now + curr] }

theorem toOption_eq_some {ε α : Type} {r : Except ε α} {x : α} : r.toOption = some x ↔ r = .ok x := by
  cases r <;> simp [Except.toOption]

theorem register_cases {a : Action R P} {event : RegistrationEvent R P} {update : Bool}
    (ha : a.registration? = some (event, update)) (h : (d.register debug event update).toOption = some d') :
    Steps debug d a d' := by
  obtain ⟨⟨lookup, res⟩, hreg, h⟩ := Panics.bind_eq_ok.mp (toOption_eq_some.mp h)
  simp only at h
  split at h
  · rename_i hstart
    have hidle : d.reaper.scheduled = false := by simp at hstart; exact hstart.2
    have hfirst := scheduleReaper_first (d := { d with lookup, answers := d.answers ++ [(event, res)] }) hidle
    rw [hfirst] at h
    obtain rfl := Except.ok.inj h
    have hsteps := Steps.register (d := d) lookup res (retryQueue d.garbageBuffers) ha hreg true hstart.symm
    simpa [hidle] using hsteps
  · rename_i hstart
    obtain rfl := Except.ok.inj h
    have hsteps := Steps.register (d := d) lookup res d.garbageBuffers ha hreg false
      (Bool.not_eq_true _ ▸ hstart).symm
    simpa using hsteps

theorem step_cases [DecidableEq R] {a : Action R P} (hi : d.Inv) (h : step debug d a = some d') :
    Steps debug d a d' := by
  cases a with
  | registerActor actor path update => exact register_cases rfl h
  | registerPolicy policy path update => exact register_cases rfl h
  | deallocate actor =>
    obtain rfl := Option.some.inj h
    exact .deallocate actor _ fun aref => by simp
  | lockedChunk chunk =>
    obtain rfl := Option.some.inj h
    exact .other 0 _ rfl
  | dropLock chunk =>
    obtain rfl := Option.some.inj h
    exact .other 0 _ rfl
  | wait n =>
    obtain rfl := Option.some.inj h
    exact .other n d.garbageBuffers rfl
  | timeout k =>
    simp only [step] at h
    split at h
    · rename_i due hk
      split at h
      · rename_i hdue
        have htimer := hi.timer
        cases hs : d.reaper.scheduled with
        | false =>
          simp only [hs, Bool.false_eq_true, if_false] at htimer
          rw [htimer] at hk
          cases hk
        | true =>
          simp only [hs, if_true] at htimer
          obtain ⟨due', ht, -⟩ := htimer
          rw [ht] at h hk
          have hk0 : k = 0 := by
            have := (List.getElem?_eq_some_iff.mp hk).1
            simpa using this
          subst hk0
          obtain rfl : due' = due := by simpa using hk
          obtain ⟨curr, hsound, hnext⟩ := scheduleReaper_next (d := { d with timers := [] }) hs hi.sound
          rw [List.eraseIdx_cons_zero, hnext] at h
          obtain rfl := Option.some.inj h
          exact .timeout curr _ hs ht hdue hsound
      · cases h
    · cases h

/-! ## The timer -/

theorem start_inv {systemPath : SystemPath} {deadletter : R} {algorithm : Option String}
    (h : start systemPath deadletter algorithm = .ok d) : d.Inv := by
  obtain ⟨reaper, hreaper, h⟩ := Panics.bind_eq_ok.mp h
  obtain rfl := Except.ok.inj h
  obtain ⟨hidle, hsound, hbounds⟩ := ActorRefReaper.fromConfig_ok hreaper
  refine ⟨PathTrie.pruned_new, hsound, hbounds, by simp [hidle], by simp [hidle], fun _ key actor hview => ?_⟩
  cases key with
  | uuid id => cases hview
  | name path => cases (PathTrie.get_new path).symm.trans hview

theorem registerInto_view {event : RegistrationEvent R P} {update : Bool} {lookup : ActorStore R P}
    {res : RegistrationResult} (h : d.registerInto debug event update = .ok (lookup, res)) (key : LookupKey) :
    lookup.view key =
      if res.toBool ∧ event.resolvable.key? = some key then some event.entry else d.lookup.view key := by
  obtain ⟨e, rfl, rfl⟩ | ⟨actorPath, prev, rfl, -, -, hinsert⟩ := registerInto_cases h
  · simp [Except.toBool]
  · have hview := ActorStore.view_insertInto d.lookup event
    rw [hinsert] at hview
    simpa [Except.toBool] using hview key

theorem registerInto_pruned [DecidableEq R] {event : RegistrationEvent R P} {update : Bool} {lookup : ActorStore R P}
    {res : RegistrationResult} (hp : d.lookup.nameMap.Pruned)
    (h : d.registerInto debug event update = .ok (lookup, res)) : lookup.nameMap.Pruned := by
  obtain ⟨e, rfl, rfl⟩ | ⟨actorPath, prev, rfl, -, -, hinsert⟩ := registerInto_cases h
  · exact hp
  · have hpruned := ActorStore.pruned_insertInto hp event
    rwa [hinsert] at hpruned

theorem Steps.inv [DecidableEq R] {a : Action R P} (h : Steps debug d a d') (hi : d.Inv) : d'.Inv := by
  cases h with
  | @register _ event update lookup res garbageBuffers ha hreg started hstart =>
    have hstarted : d.reaper.scheduled = false → (started = true ↔ event.isActor = true ∧ res.toBool = true) := by
      intro hs
      simp [hstart, hs]
    refine ⟨registerInto_pruned hi.pruned hreg, hi.sound, hi.bounds, ?_, ?_, ?_⟩
    · -- The timer is there before the step, or the step adds it.
      have htimer := hi.timer
      cases hs : d.reaper.scheduled with
      | false =>
        simp only [hs, Bool.false_eq_true, if_false] at htimer
        cases started <;> simp [htimer]
      | true =>
        have hno : started = false := by simp [hstart, hs]
        simpa [hs, hno] using htimer
    · simp only [Bool.or_eq_true, hi.scheduled, List.mem_append, List.mem_singleton, Prod.mk.injEq]
      cases hs : d.reaper.scheduled with
      | true =>
        have hbefore := hi.scheduled.mp hs
        obtain ⟨actor, path, actorPath, hmem⟩ := hbefore
        exact iff_of_true (.inl ⟨actor, path, actorPath, hmem⟩) ⟨actor, path, actorPath, .inl hmem⟩
      | false =>
        rw [hstarted hs]
        constructor
        · rintro (⟨actor, path, actorPath, hmem⟩ | ⟨hactor, hok⟩)
          · exact ⟨actor, path, actorPath, .inl hmem⟩
          · cases event with
            | policy stored path => cases hactor
            | actor aref path =>
              cases res with
              | error e => cases hok
              | ok actorPath => exact ⟨aref, path, actorPath, .inr ⟨rfl, rfl⟩⟩
        · rintro ⟨actor, path, actorPath, hmem | ⟨rfl, rfl⟩⟩
          · exact .inl ⟨actor, path, actorPath, hmem⟩
          · exact .inr ⟨rfl, rfl⟩
    · -- Before there is a timer, only policies are registered.
      intro hidle key actor
      simp only [Bool.or_eq_false_iff] at hidle
      rw [registerInto_view hreg]
      split
      · rename_i hset
        cases event with
        | policy stored path => simp [RegistrationEvent.entry]
        | actor aref path =>
          have := (hstarted hidle.1).mpr ⟨rfl, hset.1⟩
          simp [hidle.2] at this
      · exact hi.noRefs hidle.1 key actor
  | deallocate actor deallocated h => exact ⟨hi.pruned, hi.sound, hi.bounds, hi.timer, hi.scheduled, hi.noRefs⟩
  | other n garbageBuffers _ =>
    refine ⟨hi.pruned, hi.sound, hi.bounds, ?_, hi.scheduled, hi.noRefs⟩
    have htimer := hi.timer
    simp only
    split
    · rename_i hs
      simp only [hs, if_true] at htimer
      obtain ⟨due, ht, hdue⟩ := htimer
      exact ⟨due, ht, by omega⟩
    · rename_i hs
      simpa [hs] using htimer
  | timeout curr garbageBuffers hs ht hdue hsound =>
    refine ⟨ActorStore.pruned_apply hi.pruned (.cleanup _), hsound, hi.bounds, ?_, hi.scheduled, fun hidle => ?_⟩
    · simp [hs]
    · exact absurd hs (by simpa using hidle)

theorem reach_inv [DecidableEq R] {systemPath : SystemPath} {deadletter : R} {algorithm : Option String}
    {d₀ : LookupService R P} {ok : LookupService R P → Action R P → Prop}
    (h₀ : start systemPath deadletter algorithm = .ok d₀) (h : Reach (step debug) ok d₀ d) : d.Inv :=
  h.invariant Inv (start_inv h₀) fun hi _ hs => (step_cases hi hs).inv hi

/-- In every run there is one timer as soon as the registration of an actor was answered, and none
before. It is due before the interval is over, the interval stays between 20 ms and 5 s, and the
reaper never panics. -/
theorem reaper_in_time [DecidableEq R] {systemPath : SystemPath} {deadletter : R} {algorithm : Option String}
    {d₀ : LookupService R P} (h₀ : start systemPath deadletter algorithm = .ok d₀)
    (h : Reach (step debug) (fun _ _ => True) d₀ d) :
    ((∃ actor path actorPath, (.actor actor path, .ok actorPath) ∈ d.answers) →
        ∃ due, d.timers = [due] ∧ due ≤ d.now + d.reaper.strategy.curr) ∧
      (d.timers ≠ [] → ∃ actor path actorPath, (.actor actor path, .ok actorPath) ∈ d.answers) ∧
      20 ≤ d.reaper.strategy.curr ∧ d.reaper.strategy.curr ≤ 5000 ∧ ∃ d', d.scheduleReaper = .ok d' := by
  have hi := reach_inv h₀ h
  have htimer := hi.timer
  refine ⟨fun hanswer => ?_, fun hne => ?_, hi.bounds.1 ▸ hi.sound.min_le, hi.bounds.2 ▸ hi.sound.le_max, ?_⟩
  · rw [if_pos (hi.scheduled.mpr hanswer)] at htimer
    exact htimer
  · refine hi.scheduled.mp ?_
    by_contra hidle
    rw [if_neg hidle] at htimer
    exact hne htimer
  · cases hs : d.reaper.scheduled with
    | false => exact ⟨_, scheduleReaper_first hs⟩
    | true =>
      obtain ⟨curr, -, hnext⟩ := scheduleReaper_next hs hi.sound
      exact ⟨_, hnext⟩

/-- The dispatcher after its start, on port 8080. -/
def started : LookupService Nat Unit where
  systemPath := ⟨.tcp, .v4 0x7F000001, 8080⟩
  lookup := (ActorStore.new.insert 9 .system).1
  reaper := ⟨false, ⟨500, 500, 2, 20, 5000, .aimd⟩⟩
  garbageBuffers := []
  timers := []
  now := 0
  deallocated := fun _ => false
  answers := []

theorem start_started : start ⟨.tcp, .v4 0x7F000001, 8080⟩ 9 none = .ok started := rfl

/-- An actor is registered with its id. -/
def afterOne : LookupService Nat Unit :=
  (runActions (step false) started [.registerActor 1 (.actorId 1) false]).get rfl

/-- Another one is registered with the name `a`. -/
def afterTwo : LookupService Nat Unit := (step false afterOne (.registerActor 2 (.segments [[0x61]]) false)).get rfl

theorem reach_afterOne : Reach (step false) (fun _ _ => True) started afterOne := .of_run _ rfl (runMeets_true ..)

theorem reaper_in_time_one : ∃ due, afterOne.timers = [due] ∧ due ≤ afterOne.now + afterOne.reaper.strategy.curr :=
  (reaper_in_time start_started reach_afterOne).1 ⟨1, .actorId 1, _, List.mem_cons_self ..⟩

/-! ## Collection -/

/-- No lookup leads to the actor. -/
structure Forgotten (debug implicitRoutes : Bool) (store : ActorStore R P) (actor : R) : Prop where
  byPath : ∀ path, store.getByActorPath debug implicitRoutes path ≠ .ok (.ref actor)
  inGroups : ∀ path group,
    store.getByActorPath debug implicitRoutes path = .ok (.group group) → actor ∉ group.members

theorem forgotten_of_view {implicitRoutes : Bool} {store : ActorStore R P} {actor : R} (hp : store.nameMap.Pruned)
    (hbox : store.deadletter ≠ some actor) (hview : ∀ key, store.view key ≠ some (.ref actor)) :
    Forgotten debug implicitRoutes store actor := by
  refine ⟨fun path hfound => ?_, fun path group hfound hm => ?_⟩
  · cases path with
    | unique system id =>
      cases hlookup : store.uuidMap.lookup id with
      | none => simp [ActorStore.getByActorPath, hlookup, LookupResult.ofOption] at hfound
      | some aref =>
        have haref : aref = actor := by
          simpa [ActorStore.getByActorPath, hlookup, LookupResult.ofOption] using hfound
        exact hview (.uuid id) (by rw [ActorStore.view, hlookup, haref]; rfl)
    | named system path =>
      rcases ActorStore.found_ref debug implicitRoutes hp hfound with hd | ⟨key, hget⟩
      · exact hbox hd
      · exact hview (.name key) hget
  · cases path with
    | unique system id =>
      cases hlookup : store.uuidMap.lookup id <;>
        simp [ActorStore.getByActorPath, hlookup, LookupResult.ofOption] at hfound
    | named system path =>
      obtain ⟨key, hget⟩ := ActorStore.found_member debug implicitRoutes hp hfound hm
      exact hview (.name key) hget

def Action.Registers (actor : R) : Action R P → Prop
  | registerActor aref _ _ => aref = actor
  | _ => False

/-- An actor that was deallocated is out of the table, or the timers are those that were pending. -/
structure Dying (actor : R) (timers : List Nat) (d : LookupService R P) : Prop where
  inv : d.Inv
  deallocated : d.deallocated actor = true
  deadletter : d.lookup.deadletter ≠ some actor
  view : (∀ key, d.lookup.view key ≠ some (.ref actor)) ∨ d.timers = timers ∧ timers ≠ []

theorem Steps.dying [DecidableEq R] {a : Action R P} (h : Steps debug d a d') {actor : R} {timers : List Nat}
    (hd : d.Dying actor timers) (ha : ¬ a.Registers actor) : d'.Dying actor timers := by
  have hinv := h.inv hd.inv
  cases h with
  | @register _ event update lookup res garbageBuffers hevent hreg started hstart =>
    have hother : ∀ path, event ≠ .actor actor path := by
      rintro path rfl
      cases a with
      | registerActor aref path' update' =>
        simp only [Action.registration?, Option.some.injEq, Prod.mk.injEq, RegistrationEvent.actor.injEq] at hevent
        exact ha hevent.1.1
      | registerPolicy => simp [Action.registration?] at hevent
      | _ => cases hevent
    refine ⟨hinv, hd.deallocated, fun hbox => ?_, ?_⟩
    · obtain ⟨e, rfl, rfl⟩ | ⟨actorPath, prev, rfl, -, -, hinsert⟩ := registerInto_cases hreg
      · exact hd.deadletter hbox
      · have hsame : (event.insertInto d.lookup).1.deadletter = some actor → _ := ActorStore.deadletter_insertInto
        rw [hinsert] at hsame
        exact (hsame hbox).elim hd.deadletter (hother _)
    · refine hd.view.imp (fun hview key => ?_) fun ⟨ht, hne⟩ => ⟨?_, hne⟩
      · rw [registerInto_view hreg]
        split
        · cases event with
          | actor aref path => exact fun he => hother path (by cases he; rfl)
          | policy stored path => exact fun he => by cases he
        · exact hview key
      · have hs : d.reaper.scheduled = true := by
          have htimer := hd.inv.timer
          by_contra hidle
          rw [if_neg hidle] at htimer
          exact hne (ht ▸ htimer)
        have hno : started = false := by simp [hstart, hs]
        simpa [hno] using ht
  | deallocate aref deallocated h => exact ⟨hinv, (h actor).mpr (.inr hd.deallocated), hd.deadletter, hd.view⟩
  | other n garbageBuffers _ => exact ⟨hinv, hd.deallocated, hd.deadletter, hd.view⟩
  | timeout curr garbageBuffers hs ht hdue hsound =>
    refine ⟨hinv, hd.deallocated, hd.deadletter, .inl fun key => ?_⟩
    rw [ActorStore.view_cleanup hd.inv.pruned]
    intro hkept
    obtain ⟨-, hkeep⟩ := Option.filter_eq_some_iff.mp hkept
    simp [ActorStore.keepsEntry, hd.deallocated] at hkeep

/-- In every run, an actor that was deallocated and is not registered again is not found by any
lookup once the timer that was pending has fired: neither itself nor as the member of a group. The
deadletter box is not collected. -/
theorem dead_collected [DecidableEq R] {systemPath : SystemPath} {deadletter : R} {algorithm : Option String}
    {d₀ s s' : LookupService R P} {actor : R} (h₀ : start systemPath deadletter algorithm = .ok d₀)
    (hs : Reach (step debug) (fun _ _ => True) d₀ s) (hdead : s.deallocated actor = true)
    (hbox : s.lookup.deadletter ≠ some actor) (hrun : Reach (step debug) (fun _ a => ¬ a.Registers actor) s s')
    (hfired : ∀ due ∈ s.timers, due ∉ s'.timers) (implicitRoutes : Bool) :
    Forgotten debug implicitRoutes s'.lookup actor := by
  have hinv := reach_inv h₀ hs
  have hstart : s.Dying actor s.timers := by
    refine ⟨hinv, hdead, hbox, ?_⟩
    by_cases ht : s.timers = []
    · refine .inl fun key => hinv.noRefs ?_ key actor
      have htimer := hinv.timer
      by_contra hscheduled
      simp only [Bool.not_eq_false] at hscheduled
      rw [if_pos hscheduled, ht] at htimer
      obtain ⟨due, hdue, -⟩ := htimer
      cases hdue
    · exact .inr ⟨rfl, ht⟩
  have hd := hrun.invariant (Dying actor s.timers) hstart fun hd ha hstep => (step_cases hd.inv hstep).dying hd ha
  refine forgotten_of_view hd.inv.pruned hd.deadletter ?_
  rcases hd.view with hview | ⟨ht, hne⟩
  · exact hview
  · obtain ⟨due, hdue⟩ := List.exists_mem_of_ne_nil _ hne
    exact absurd (ht ▸ hdue) (hfired due hdue)

/-- The first actor is deallocated. -/
def afterDead : LookupService Nat Unit := (step false afterTwo (.deallocate 1)).get rfl

/-- The timer fires. -/
def reap : List (Action Nat Unit) := [.wait 500, .timeout 0]

theorem isSome_reap : (runActions (step false) afterDead reap).isSome := by decide +kernel

def afterReap : LookupService Nat Unit := (runActions (step false) afterDead reap).get isSome_reap

theorem dead_collected_one : Forgotten false true afterReap.lookup 1 := by
  have hdead : Reach (step false) (fun _ _ => True) started afterDead :=
    (Reach.step reach_afterOne (a := .registerActor 2 (.segments [[0x61]]) false) trivial rfl).step
      (a := .deallocate 1) trivial rfl
  have hrun : Reach (step false) (fun _ a => ¬ a.Registers 1) afterDead afterReap :=
    .of_run reap isSome_reap
      (runMeets_of_forall (by simp [reap, Action.Registers]) _)
  exact dead_collected start_started hdead rfl (by decide) hrun (by decide +kernel) true

/-! ## Registration -/

def Action.Withdraws (actor : R) (key : LookupKey) : Action R P → Prop
  | deallocate aref => aref = actor
  | registerActor _ path update => update = true ∧ path.key? = some key
  | registerPolicy _ path update => update = true ∧ LookupKey.name path = key
  | _ => False

/-- What an actor path is looked up with. -/
def pathKey : ActorPath → LookupKey
  | .unique _ id => .uuid id
  | .named _ keys => .name keys

theorem pathKey_resolvePath {systemPath : SystemPath} {path : PathResolvable} {actorPath : ActorPath}
    {key : LookupKey} (h : path.resolvePath debug systemPath = .ok (.ok actorPath)) (hkey : path.key? = some key) :
    pathKey actorPath = key := by
  have hnamed : ∀ keys, PathResolvable.intoNamedWithVec debug systemPath keys = .ok (.ok actorPath) →
      pathKey actorPath = .name keys := by
    intro keys hn
    unfold PathResolvable.intoNamedWithVec at hn
    split at hn
    · cases hn
    · obtain ⟨named, hmake, hn⟩ := Panics.bind_eq_ok.mp hn
      unfold makeNamed at hmake
      split at hmake <;> cases hmake
      cases hn
      rfl
  match path, hkey with
  | .path (.unique _ id), rfl => cases h; rfl
  | .path (.named _ keys), rfl => cases h; rfl
  | .alias name, rfl => exact hnamed _ h
  | .segments keys, rfl => exact hnamed _ h
  | .actorId id, rfl => cases h; rfl

/-- Whether an entry that is an actor is found does not depend on the rest of the table. -/
theorem found_of_view {implicitRoutes : Bool} {store store' : ActorStore R P} {actor : R} {actorPath : ActorPath}
    (hne : pathKey actorPath ≠ .name []) (hview : store.view (pathKey actorPath) = some (.ref actor))
    (hview' : store'.view (pathKey actorPath) = some (.ref actor))
    (h : store.getByActorPath debug implicitRoutes actorPath = .ok (.ref actor)) :
    store'.getByActorPath debug implicitRoutes actorPath = .ok (.ref actor) := by
  cases actorPath with
  | unique system id =>
    obtain ⟨aref, hlookup, haref⟩ := Option.map_eq_some_iff.mp hview'
    obtain rfl : aref = actor := by cases haref; rfl
    simp [ActorStore.getByActorPath, hlookup, LookupResult.ofOption]
  | named system keys =>
    have hfind := (ActorStore.getByNamedPath_eq_ref_iff debug implicitRoutes store hview).mp h
    refine (ActorStore.getByNamedPath_eq_ref_iff debug implicitRoutes store' hview').mpr ?_
    have hkeys : keys ≠ [] := fun hnil => hne (congrArg _ hnil)
    unfold ActorStore.Findable at hfind ⊢
    rw [if_neg hkeys] at hfind ⊢
    exact hfind

/-- The entry under a key is an actor that is there. -/
structure Stays (actor : R) (key : LookupKey) (d : LookupService R P) : Prop where
  inv : d.Inv
  alive : d.deallocated actor = false
  view : d.lookup.view key = some (.ref actor)

/-- Without an update nothing is registered under a key that has an entry. -/
theorem registerInto_refused {event : RegistrationEvent R P} {lookup : ActorStore R P} {res : RegistrationResult}
    {key : LookupKey} (hkey : event.resolvable.key? = some key) (hview : (d.lookup.view key).isSome)
    (h : d.registerInto debug event false = .ok (lookup, res)) : ∃ e, res = .error e ∧ lookup = d.lookup := by
  refine (registerInto_cases h).resolve_right ?_
  rintro ⟨actorPath, prev, -, -, hcontains, -⟩
  cases ActorStore.contains_of_view hkey hview (hcontains rfl)

theorem Steps.stays [DecidableEq R] {a : Action R P} (h : Steps debug d a d') {actor : R} {key : LookupKey}
    (hd : d.Stays actor key) (ha : ¬ a.Withdraws actor key) : d'.Stays actor key := by
  have hinv := h.inv hd.inv
  cases h with
  | @register _ event update lookup res garbageBuffers hevent hreg started hstart =>
    refine ⟨hinv, hd.alive, ?_⟩
    by_cases hkey : event.resolvable.key? = some key
    · have hupdate : update = false := by
        by_contra hupdate
        simp only [Bool.not_eq_false] at hupdate
        subst hupdate
        refine ha ?_
        cases a with
        | registerActor aref path update' =>
          cases hevent
          exact ⟨rfl, hkey⟩
        | registerPolicy stored path update' =>
          cases hevent
          exact ⟨rfl, Option.some.inj hkey⟩
        | _ => cases hevent
      subst hupdate
      obtain ⟨e, -, rfl⟩ := registerInto_refused hkey (by rw [hd.view]; rfl) hreg
      exact hd.view
    · rw [registerInto_view hreg, if_neg fun hset => hkey hset.2]
      exact hd.view
  | deallocate aref deallocated h =>
    refine ⟨hinv, ?_, hd.view⟩
    rw [← Bool.not_eq_true, h, hd.alive]
    rintro (rfl | hf)
    · exact ha rfl
    · cases hf
  | other n garbageBuffers _ => exact ⟨hinv, hd.alive, hd.view⟩
  | timeout curr garbageBuffers hs ht hdue hsound =>
    refine ⟨hinv, hd.alive, ?_⟩
    rw [ActorStore.view_cleanup hd.inv.pruned, Option.filter_eq_some_iff]
    exact ⟨hd.view, by simp [ActorStore.keepsEntry, hd.alive]⟩

/-- An actor that was registered is found under the path that was answered. -/
theorem found_of_registered [DecidableEq R] {s s₁ : LookupService R P} {actor : R} {path : PathResolvable}
    {update : Bool} {actorPath : ActorPath} {key : LookupKey} {implicitRoutes : Bool} (hinv : s.Inv)
    (hreg : step debug s (.registerActor actor path update) = some s₁)
    (hanswer : s₁.answers = s.answers ++ [(.actor actor path, .ok actorPath)])
    (halive : s.deallocated actor = false) (hkey : path.key? = some key)
    (hname : ActorStore.Registrable debug s.lookup actor path) :
    pathKey actorPath = key ∧ s₁.Stays actor key ∧
      s₁.lookup.getByActorPath debug implicitRoutes actorPath = .ok (.ref actor) := by
  have hstep := step_cases hinv hreg
  have hinv₁ := hstep.inv hinv
  cases hstep with
  | other n garbageBuffers hnone => cases hnone
  | @register _ event _ lookup res garbageBuffers hevent hinto started hstart =>
    cases hevent
    obtain ⟨-, rfl⟩ : (.actor actor path : RegistrationEvent R P) = .actor actor path ∧ res = .ok actorPath := by
      simpa using hanswer
    obtain ⟨e, he, -⟩ | ⟨actorPath', prev, he, hresolve, -, hinsert⟩ := registerInto_cases hinto
    · cases he
    cases he
    refine ⟨pathKey_resolvePath hresolve hkey,
      ⟨hinv₁, halive, by rw [registerInto_view hinto, if_pos ⟨rfl, hkey⟩]; rfl⟩, ?_⟩
    have hcorrect := (ActorStore.insertCorrect_iff debug implicitRoutes s.systemPath s.lookup path actor).mpr hname
    unfold ActorStore.InsertCorrect at hcorrect
    rw [show s.lookup.insert actor path = (lookup, .ok prev) from hinsert] at hcorrect
    obtain ⟨actorPath', hresolve', hfound⟩ := hcorrect.lookup
    rw [show path.resolvePath debug s.systemPath = .ok (.ok actorPath) from hresolve] at hresolve'
    cases hresolve'
    exact hfound

/-- The registration of an actor that was answered with a path stands: until the actor is
deallocated or its entry is updated, it is found under this path, and every other registration with
the same key is refused and changes nothing. -/
theorem registered_stays [DecidableEq R] {systemPath : SystemPath} {deadletter : R} {algorithm : Option String}
    {d₀ s s₁ s' : LookupService R P} {actor : R} {path : PathResolvable} {update : Bool} {actorPath : ActorPath}
    {key : LookupKey} {implicitRoutes : Bool} (h₀ : start systemPath deadletter algorithm = .ok d₀)
    (hs : Reach (step debug) (fun _ _ => True) d₀ s)
    (hreg : step debug s (.registerActor actor path update) = some s₁)
    (hanswer : s₁.answers = s.answers ++ [(.actor actor path, .ok actorPath)])
    (halive : s.deallocated actor = false)
    (hkey : path.key? = some key) (hne : key ≠ .name []) (hname : ActorStore.Registrable debug s.lookup actor path)
    (hrun : Reach (step debug) (fun _ a => ¬ a.Withdraws actor key) s₁ s') :
    s'.lookup.getByActorPath debug implicitRoutes actorPath = .ok (.ref actor) ∧
      ∀ event lookup res, event.resolvable.key? = some key → s'.registerInto debug event false = .ok (lookup, res) →
        (∃ e, res = .error e) ∧ lookup = s'.lookup := by
  obtain ⟨hpath, hstay, hfound⟩ :=
    found_of_registered (reach_inv h₀ hs) hreg hanswer halive hkey hname
  have hd := hrun.invariant (Stays actor key) hstay fun hd ha hstep => (step_cases hd.inv hstep).stays hd ha
  refine ⟨found_of_view (hpath ▸ hne) (hpath ▸ hstay.view) (hpath ▸ hd.view) hfound, ?_⟩
  intro event lookup res hsame hinto
  obtain ⟨e, rfl, rfl⟩ := registerInto_refused hsame (by rw [hd.view]; rfl) hinto
  exact ⟨⟨e, rfl⟩, rfl⟩

theorem registered_stays_two :
    afterReap.lookup.getByActorPath false true (.named ⟨.tcp, .v4 0x7F000001, 8080⟩ [[0x61]]) = .ok (.ref 2) := by
  have hrun : Reach (step false) (fun _ a => ¬ a.Withdraws 2 (.name [[0x61]])) afterTwo afterReap :=
    .run (.step .init (a := .deallocate 1) (by simp [Action.Withdraws]) rfl) (Option.some_get isSome_reap).symm
      (runMeets_of_forall (by simp [reap, Action.Withdraws]) _)
  have hreg : step false afterOne (.registerActor 2 (.segments [[0x61]]) false) = some afterTwo := rfl
  exact (registered_stays start_started reach_afterOne hreg rfl rfl rfl (by decide)
    (by simp [ActorStore.Registrable]) hrun).1

end LookupService

end Kompact
