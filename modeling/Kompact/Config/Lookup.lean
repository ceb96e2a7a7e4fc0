import Kompact.Config.Merge

/-!
# Looking up a configuration

A dotted path is selected at once, or a value is looked up key by key; a
lookup that failed goes on with the error it has and a longer path. Either
way goes down the tables and stops at the first key that is not there
(`walk`), and the path of an error is the whole path (`select_eq_get`).
-/

namespace Kompact

def pathSep : UInt8 := 0x2E

inductive PathSegment where
  | key (key : Utf8)
  | index (index : Nat)
  deriving DecidableEq, Repr

def PathSegment.display : PathSegment → Utf8
  | .key k => k
  | .index i => [0x5B] ++ (Nat.toDigits 10 i).map (fun c => .ofNat c.toNat) ++ [0x5D]

/-- How a step is printed behind a path. -/
def PathSegment.behind : PathSegment → Utf8
  | .key k => pathSep :: k
  | segment => segment.display

/-- The path of a lookup; its parent is printed as the path of the lookup before it. -/
inductive LookupPathSource where
  | fullPath (path : Utf8)
  | child (parent : LookupPathSource) (segment : PathSegment) (prependSeparator : Bool)
  deriving DecidableEq, Repr

def LookupPathSource.display : LookupPathSource → Utf8
  | .fullPath path => path
  | .child parent segment prependSeparator =>
    parent.display ++ (if prependSeparator then [pathSep] else []) ++ segment.display

inductive LookupErrorKind where
  | invalidPath
  | missingKey
  | missingIndex
  | invalidKeyAccess (key : Utf8) (valueType : String)
  | invalidIndexAccess (index : Nat) (valueType : String)
  deriving DecidableEq, Repr

/-- The errors, each with the full path. -/
inductive ConfigPathError where
  | invalidPath (path : Utf8)
  | missingKey (path : Utf8)
  | missingIndex (path : Utf8)
  | invalidKeyAccess (path : Utf8) (key : Utf8) (valueType : String)
  | invalidIndexAccess (path : Utf8) (index : Nat) (valueType : String)
  deriving DecidableEq, Repr

/-- `path_error`, for a lookup with this error. -/
def LookupErrorKind.pathError (path : Utf8) : LookupErrorKind → ConfigPathError
  | .invalidPath => .invalidPath path
  | .missingKey => .missingKey path
  | .missingIndex => .missingIndex path
  | .invalidKeyAccess key valueType => .invalidKeyAccess path key valueType
  | .invalidIndexAccess index valueType => .invalidIndexAccess path index valueType

def ConfigValueInner.valueTypeName {D : Type} : ConfigValueInner D → String
  | .string _ => "string"
  | .integer _ => "integer"
  | .real _ => "float"
  | .boolean _ => "boolean"
  | .dateTime _ => "datetime"
  | .array _ => "array"
  | .table _ => "table"

inductive ConfigLookupInner (D : Type) where
  | value (value : ConfigValueInner D) (path : LookupPathSource)
  | error (kind : LookupErrorKind) (path : LookupPathSource)

structure ConfigLookup (D : Type) where
  inner : ConfigLookupInner D

namespace ConfigLookup

variable {D : Type}

def path (l : ConfigLookup D) : LookupPathSource :=
  match l.inner with
  | .value _ path => path
  | .error _ path => path

def isEmptyPath (l : ConfigLookup D) : Bool := l.path = .fullPath []

def display (l : ConfigLookup D) : Utf8 := l.path.display

def fromFullPath (path : Utf8) (value : ConfigValueInner D) : ConfigLookup D := ⟨.value value (.fullPath path)⟩

def errorPath (path : Utf8) (kind : LookupErrorKind) : ConfigLookup D := ⟨.error kind (.fullPath path)⟩

def get (l : ConfigLookup D) (key : Utf8) : ConfigLookup D :=
  let path := .child l.path (.key key) (!l.isEmptyPath)
  match l.inner with
  | .value value _ =>
    match value with
    | .table values =>
      match values.lookup key with
      | some value => ⟨.value value path⟩
      | none => ⟨.error .missingKey path⟩
    | value => ⟨.error (.invalidKeyAccess key value.valueTypeName) path⟩
  | .error kind _ => ⟨.error kind path⟩

def getIndex (l : ConfigLookup D) (index : Nat) : ConfigLookup D :=
  let path := .child l.path (.index index) false
  match l.inner with
  | .value value _ =>
    match value with
    | .array values =>
      match values[index]? with
      | some value => ⟨.value value path⟩
      | none => ⟨.error .missingIndex path⟩
    | value => ⟨.error (.invalidIndexAccess index value.valueTypeName) path⟩
  | .error kind _ => ⟨.error kind path⟩

/-- The value, or the error with its path. -/
def value (l : ConfigLookup D) : Except ConfigPathError (ConfigValueInner D) :=
  match l.inner with
  | .value value _ => .ok value
  | .error kind _ => .error (kind.pathError l.display)

end ConfigLookup

namespace Config

variable {D : Type}

def get (config : Config D) (key : Utf8) : ConfigLookup D :=
  match config.root.lookup key with
  | some value => .fromFullPath key value
  | none => .errorPath key .missingKey

/-- The loop of `select`. -/
def selectFrom (path : Utf8) : ConfigValueInner D → List Utf8 → ConfigLookup D
  | value, [] => .fromFullPath path value
  | value, segment :: segments =>
    if segment = [] then .errorPath path .invalidPath
    else
      match value with
      | .table values =>
        match values.lookup segment with
        | some value => selectFrom path value segments
        | none => .errorPath path .missingKey
      | value => .errorPath path (.invalidKeyAccess segment value.valueTypeName)

def select (config : Config D) (path : Utf8) : ConfigLookup D :=
  match path.splitOn pathSep with
  | [] => .errorPath path .invalidPath
  | first :: segments =>
    if first = [] then .errorPath path .invalidPath
    else
      match config.root.lookup first with
      | some value => selectFrom path value segments
      | none => .errorPath path .missingKey

end Config

/-! ## Walking down the tables -/

namespace ConfigValueInner

variable {D : Type}

/-- Down the tables along the keys, up to the first that is not there. -/
def walk : ConfigValueInner D → List Utf8 → Except LookupErrorKind (ConfigValueInner D)
  | v, [] => .ok v
  | .table values, key :: path =>
    match values.lookup key with
    | some value => value.walk path
    | none => .error .missingKey
  | v, key :: _ => .error (.invalidKeyAccess key v.valueTypeName)

@[simp] theorem walk_nil (v : ConfigValueInner D) : v.walk [] = .ok v := by
  cases v <;> rfl

theorem walk_some {values : ConfigTable D} {key : Utf8} {value : ConfigValueInner D}
    (h : values.lookup key = some value) (path : List Utf8) : (table values).walk (key :: path) = value.walk path := by
  simp only [walk, h]

theorem walk_none {values : ConfigTable D} {key : Utf8} (h : values.lookup key = none) (path : List Utf8) :
    (table values).walk (key :: path) = .error .missingKey := by
  simp only [walk, h]

theorem walk_leaf {v : ConfigValueInner D} (h : v.isTable = false) (key : Utf8) (path : List Utf8) :
    v.walk (key :: path) = .error (.invalidKeyAccess key v.valueTypeName) := by
  cases v with
  | table values => cases h
  | _ => rfl

theorem walk_append (v : ConfigValueInner D) (path path' : List Utf8) :
    v.walk (path ++ path') = (v.walk path).bind fun w => w.walk path' := by
  induction path generalizing v with
  | nil => rw [walk_nil]; rfl
  | cons key path ih =>
    by_cases hleaf : v.isTable = false
    · rw [List.cons_append, walk_leaf hleaf, walk_leaf hleaf]
      rfl
    obtain ⟨values, rfl⟩ := isTable_iff.mp (by simpa using hleaf)
    cases hv : values.lookup key with
    | none => rw [List.cons_append, walk_none hv, walk_none hv]; rfl
    | some value => rw [List.cons_append, walk_some hv, walk_some hv, ih]

theorem walk_ok_iff {v w : ConfigValueInner D} {path : List Utf8} :
    v.walk path = .ok w ↔ v.lookupPath path = some w := by
  induction path generalizing v with
  | nil => simp
  | cons key path ih =>
    cases v with
    | table values =>
      cases hv : values.lookup key with
      | none => simp [walk_none hv, lookupPath_cons, hv]
      | some value => rw [walk_some hv, ih, lookupPath_cons, hv]; rfl
    | _ => simp [walk, lookupPath]

/-- A walk fails where a key is missing, or behind a value that is not a table. -/
theorem walk_error {v : ConfigValueInner D} {path : List Utf8} {kind : LookupErrorKind} (h : v.walk path = .error kind) :
    kind = .missingKey ∨ ∃ way key w, way ++ [key] <+: path ∧ v.lookupPath way = some w ∧ w.isTable = false ∧
      kind = .invalidKeyAccess key w.valueTypeName := by
  induction path generalizing v with
  | nil => simp at h
  | cons key path ih =>
    by_cases hleaf : v.isTable = false
    · rw [walk_leaf hleaf] at h
      exact .inr ⟨[], key, v, by simp, lookupPath_nil v, hleaf, (Except.error.inj h).symm⟩
    obtain ⟨values, rfl⟩ := isTable_iff.mp (by simpa using hleaf)
    cases hv : values.lookup key with
    | none =>
      rw [walk_none hv] at h
      exact .inl (Except.error.inj h).symm
    | some value =>
      rw [walk_some hv] at h
      rcases ih h with hkind | ⟨way, key', w, hway, hw, hleaf', hkind⟩
      · exact .inl hkind
      · refine .inr ⟨key :: way, key', w, List.cons_prefix_cons.mpr ⟨rfl, hway⟩, ?_, hleaf', hkind⟩
        rw [lookupPath_cons, hv]
        exact hw

end ConfigValueInner

/-! ## A path at once -/

namespace ConfigLookup

variable {D : Type}

/-- The lookup at a path with the outcome of a walk. -/
def ofWalk (path : Utf8) : Except LookupErrorKind (ConfigValueInner D) → ConfigLookup D
  | .ok value => fromFullPath path value
  | .error kind => errorPath path kind

@[simp] theorem path_ofWalk (path : Utf8) (r : Except LookupErrorKind (ConfigValueInner D)) :
    (ofWalk path r).path = .fullPath path := by
  cases r <;> rfl

@[simp] theorem display_ofWalk (path : Utf8) (r : Except LookupErrorKind (ConfigValueInner D)) :
    (ofWalk path r).display = path := by
  cases r <;> rfl

@[simp] theorem value_ofWalk (path : Utf8) (r : Except LookupErrorKind (ConfigValueInner D)) :
    (ofWalk path r).value = r.mapError (LookupErrorKind.pathError path) := by
  cases r <;> rfl

end ConfigLookup

namespace Config

variable {D : Type}

theorem selectFrom_eq (path : Utf8) (v : ConfigValueInner D) {segments : List Utf8} (h : ∀ s ∈ segments, s ≠ []) :
    selectFrom path v segments = .ofWalk path (v.walk segments) := by
  induction segments generalizing v with
  | nil => rw [ConfigValueInner.walk_nil]; rfl
  | cons segment segments ih =>
    unfold selectFrom
    rw [if_neg (h segment List.mem_cons_self)]
    cases v with
    | table values =>
      cases hv : values.lookup segment with
      | none =>
        rw [ConfigValueInner.walk_none hv]
        simp only [hv]
        rfl
      | some value =>
        rw [ConfigValueInner.walk_some hv]
        simp only [hv]
        exact ih value fun s hs => h s (List.mem_cons_of_mem _ hs)
    | _ => rfl

/-- A path without empty segments is walked down. -/
theorem select_eq (config : Config D) {path : Utf8} (h : ∀ s ∈ path.splitOn pathSep, s ≠ []) :
    config.select path = .ofWalk path ((ConfigValueInner.table config.root).walk (path.splitOn pathSep)) := by
  unfold select
  cases hp : path.splitOn pathSep with
  | nil => exact absurd hp (List.splitOn_ne_nil _ _)
  | cons first segments =>
    rw [hp] at h
    simp only [if_neg (h first List.mem_cons_self)]
    cases hv : config.root.lookup first with
    | none => rw [ConfigValueInner.walk_none hv]; rfl
    | some value =>
      rw [ConfigValueInner.walk_some hv]
      exact selectFrom_eq path value fun s hs => h s (List.mem_cons_of_mem _ hs)

end Config

/-! ## Key by key -/

namespace ConfigLookup

variable {D : Type} {l : ConfigLookup D}

/-- The value of a lookup, or the kind of its error. -/
def outcome (l : ConfigLookup D) : Except LookupErrorKind (ConfigValueInner D) :=
  match l.inner with
  | .value value _ => .ok value
  | .error kind _ => .error kind

@[simp] theorem outcome_ofWalk (path : Utf8) (r : Except LookupErrorKind (ConfigValueInner D)) :
    (ofWalk path r).outcome = r := by
  cases r <;> rfl

theorem value_eq (l : ConfigLookup D) : l.value = l.outcome.mapError (LookupErrorKind.pathError l.display) := by
  obtain ⟨value | kind⟩ := l <;> rfl

/-- One step of a chain of lookups. -/
def step (l : ConfigLookup D) : PathSegment → ConfigLookup D
  | .key k => l.get k
  | .index i => l.getIndex i

/-- A step leads on from a value. -/
theorem outcome_get (l : ConfigLookup D) (key : Utf8) :
    (l.get key).outcome = l.outcome.bind (fun v => v.walk [key]) := by
  obtain ⟨⟨value, path⟩ | ⟨kind, path⟩⟩ := l
  · cases value with
    | table values =>
      unfold get outcome
      cases hv : values.lookup key with
      | none => simp [hv, Except.bind, ConfigValueInner.walk_none hv]
      | some value => simp [hv, Except.bind, ConfigValueInner.walk_some hv]
    | _ => rfl
  · rfl

theorem path_step (l : ConfigLookup D) (segment : PathSegment) :
    ∃ separator, (l.step segment).path = .child l.path segment separator ∧
      (separator = true ↔ l.isEmptyPath = false ∧ ∃ k, segment = .key k) := by
  obtain ⟨⟨value, path⟩ | ⟨kind, path⟩⟩ := l
  · cases segment with
    | key k =>
      refine ⟨!isEmptyPath ⟨.value value path⟩, ?_, by simp⟩
      cases value with
      | table values =>
        unfold step get
        cases hv : values.lookup k <;> simp [hv] <;> rfl
      | _ => rfl
    | index i =>
      refine ⟨false, ?_, by simp⟩
      cases value with
      | array values =>
        unfold step getIndex
        cases hv : values[i]? <;> simp [hv] <;> rfl
      | _ => rfl
  · cases segment with
    | key k => exact ⟨_, rfl, by simp⟩
    | index i => exact ⟨false, rfl, by simp⟩

theorem isEmptyPath_step (l : ConfigLookup D) (segment : PathSegment) : (l.step segment).isEmptyPath = false := by
  obtain ⟨separator, hpath, -⟩ := l.path_step segment
  unfold isEmptyPath
  rw [hpath]
  rfl

theorem display_step (h : l.isEmptyPath = false) (segment : PathSegment) :
    (l.step segment).display = l.display ++ segment.behind := by
  obtain ⟨separator, hpath, hseparator⟩ := l.path_step segment
  show (l.step segment).path.display = _
  rw [hpath]
  cases segment with
  | key k =>
    obtain rfl : separator = true := hseparator.mpr ⟨h, k, rfl⟩
    simp [LookupPathSource.display, PathSegment.display, PathSegment.behind, display]
  | index i =>
    obtain rfl : separator = false := by simpa using hseparator
    simp [LookupPathSource.display, PathSegment.display, PathSegment.behind, display]

/-- Behind any steps a lookup is printed with its whole path, also where it failed. -/
theorem display_steps (h : l.isEmptyPath = false) (steps : List PathSegment) :
    (steps.foldl step l).display = l.display ++ (steps.map PathSegment.behind).flatten := by
  induction steps generalizing l with
  | nil => simp
  | cons segment steps ih =>
    rw [List.foldl_cons, ih (l.isEmptyPath_step segment), display_step h]
    simp

/-- Along several keys. -/
theorem outcome_gets (l : ConfigLookup D) (keys : List Utf8) :
    (keys.foldl get l).outcome = l.outcome.bind (fun v => v.walk keys) := by
  induction keys generalizing l with
  | nil => cases ho : l.outcome <;> simp [ho, Except.bind]
  | cons key keys ih =>
    rw [List.foldl_cons, ih, outcome_get]
    cases l.outcome with
    | error kind => rfl
    | ok v => exact (v.walk_append [key] keys).symm

theorem display_gets (h : l.isEmptyPath = false) (keys : List Utf8) :
    (keys.foldl get l).display = l.display ++ (keys.map fun key => pathSep :: key).flatten := by
  have hsteps := display_steps h (keys.map .key)
  rw [List.foldl_map, List.map_map] at hsteps
  exact hsteps

end ConfigLookup

namespace Config

variable {D : Type}

def joinKeys (keys : List Utf8) : Utf8 := [pathSep].intercalate keys

theorem joinKeys_cons (first : Utf8) (rest : List Utf8) :
    joinKeys (first :: rest) = first ++ (rest.map fun key => pathSep :: key).flatten := by
  unfold joinKeys
  induction rest generalizing first with
  | nil => simp
  | cons key rest ih =>
    rw [List.intercalate_cons_cons, ih]
    simp

theorem get_eq (config : Config D) (key : Utf8) :
    config.get key = .ofWalk key ((ConfigValueInner.table config.root).walk [key]) := by
  unfold get
  cases hv : config.root.lookup key with
  | none => rw [ConfigValueInner.walk_none hv]; rfl
  | some value => rw [ConfigValueInner.walk_some hv, ConfigValueInner.walk_nil]; rfl

/-- The keys of a dotted path: none is empty or has a dot. -/
def DottedKeys (keys : List Utf8) : Prop := ∀ key ∈ keys, key ≠ [] ∧ pathSep ∉ key

instance (keys : List Utf8) : Decidable (DottedKeys keys) := inferInstanceAs (Decidable (∀ key ∈ keys, _))

theorem splitOn_joinKeys {keys : List Utf8} (h : DottedKeys keys) (hne : keys ≠ []) :
    (joinKeys keys).splitOn pathSep = keys :=
  List.splitOn_intercalate pathSep (fun key hkey => (h key hkey).2) hne

theorem select_joinKeys (config : Config D) {keys : List Utf8} (h : DottedKeys keys) (hne : keys ≠ []) :
    config.select (joinKeys keys) = .ofWalk (joinKeys keys) ((ConfigValueInner.table config.root).walk keys) := by
  have hsplit := splitOn_joinKeys h hne
  rw [config.select_eq (hsplit.symm ▸ fun key hkey => (h key hkey).1), hsplit]

/-- The lookups key by key. -/
theorem gets_eq (config : Config D) {first : Utf8} (hne : first ≠ []) (rest : List Utf8) :
    (rest.foldl ConfigLookup.get (config.get first)).outcome =
        (ConfigValueInner.table config.root).walk (first :: rest) ∧
      (rest.foldl ConfigLookup.get (config.get first)).display = joinKeys (first :: rest) := by
  have hfirst : (config.get first).isEmptyPath = false := by
    unfold ConfigLookup.isEmptyPath
    rw [get_eq, ConfigLookup.path_ofWalk]
    simpa using hne
  refine ⟨?_, ?_⟩
  · rw [ConfigLookup.outcome_gets, get_eq, ConfigLookup.outcome_ofWalk]
    exact (ConfigValueInner.walk_append _ [first] rest).symm
  · rw [ConfigLookup.display_gets hfirst, joinKeys_cons, get_eq, ConfigLookup.display_ofWalk]

/-- The selection of a dotted path is the lookup key by key: the same value, or the same error with
the same path. -/
theorem select_eq_get (config : Config D) (first : Utf8) (rest : List Utf8) (h : DottedKeys (first :: rest)) :
    let selected := config.select (joinKeys (first :: rest))
    let looked := rest.foldl ConfigLookup.get (config.get first)
    selected.value = looked.value ∧ selected.display = looked.display ∧
      selected.display = joinKeys (first :: rest) ∧
      (∀ value, selected.value = .ok value ↔ config.lookupPath (first :: rest) = some value) ∧
      ∀ e, selected.value = .error e → e = .missingKey (joinKeys (first :: rest)) ∨
        ∃ key valueType, e = .invalidKeyAccess (joinKeys (first :: rest)) key valueType := by
  obtain ⟨houtcome, hpath⟩ := config.gets_eq (h first List.mem_cons_self).1 rest
  have hselect := config.select_joinKeys h (List.cons_ne_nil _ _)
  intro selected looked
  have hvalue : selected.value = ((ConfigValueInner.table config.root).walk (first :: rest)).mapError
      (LookupErrorKind.pathError (joinKeys (first :: rest))) := by
    show (config.select _).value = _
    rw [hselect, ConfigLookup.value_ofWalk]
  have hshown : selected.display = joinKeys (first :: rest) := by
    show (config.select _).display = _
    rw [hselect, ConfigLookup.display_ofWalk]
  refine ⟨?_, hshown.trans hpath.symm, hshown, fun value => ?_, fun e he => ?_⟩
  · rw [hvalue, ConfigLookup.value_eq, houtcome, hpath]
  · rw [hvalue, lookupPath, ← ConfigValueInner.walk_ok_iff]
    cases (ConfigValueInner.table config.root).walk (first :: rest) <;> simp [Except.mapError]
  · rw [hvalue] at he
    cases hw : (ConfigValueInner.table config.root).walk (first :: rest) with
    | ok value => rw [hw] at he; cases he
    | error kind =>
      rw [hw] at he
      obtain rfl := Except.error.inj he
      rcases ConfigValueInner.walk_error hw with rfl | ⟨way, key, v, -, -, -, rfl⟩
      · exact .inl rfl
      · exact .inr ⟨key, _, rfl⟩

/-- `a.b` is true. -/
def exampleConfig : Config Unit where
  root := [([0x61], .table [([0x62], .boolean true)])]
  distinct := by
    have hb : (ConfigValueInner.boolean true : ConfigValueInner Unit).Distinct := .scalar nofun nofun
    refine .table (by decide) fun p hp => ?_
    obtain rfl := List.mem_singleton.mp hp
    refine .table (by decide) fun p hp => ?_
    obtain rfl := List.mem_singleton.mp hp
    exact hb

/-- Behind `a.b` is nothing. -/
theorem select_eq_get_leaf :
    DottedKeys [[0x61], [0x62], [0x63], [0x64]] ∧
      (exampleConfig.select (joinKeys [[0x61], [0x62], [0x63], [0x64]])).value =
        .error (.invalidKeyAccess (joinKeys [[0x61], [0x62], [0x63], [0x64]]) [0x63] "boolean") :=
  ⟨by decide, (select_eq_get exampleConfig [0x61] [[0x62], [0x63], [0x64]] (by decide)).1.trans rfl⟩

end Config

end Kompact
