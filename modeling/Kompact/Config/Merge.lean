import Kompact.Framework.KeyedList
import Kompact.Framework.Overlay
import Kompact.Messaging.Paths

/-!
# Merging configurations

A configuration is a table of values, which may be tables again. Merging goes
down where both sides have a table, and puts the value of the second side in
the place of that of the first anywhere else.

`lookupPath_merge` says what is found at a path after a merge, by the step
along one key (`lookup_mergeTables`). As layers of nested tables, the second
configuration is laid over the first (`shape_merge`).
-/

namespace Kompact

/-- `ConfigValueInner`, where `D` are the datetimes. A float is given by its
bits, a table by its entries in the order in which it is iterated. -/
inductive ConfigValueInner (D : Type) where
  | string (v : Utf8)
  | integer (v : Int64)
  | real (bits : BitVec 64)
  | boolean (v : Bool)
  | dateTime (v : D)
  | array (values : List (ConfigValueInner D))
  | table (values : List (Utf8 × ConfigValueInner D))

/-- `HashMap<String, ConfigValue>` -/
abbrev ConfigTable (D : Type) := List (Utf8 × ConfigValueInner D)

namespace ConfigValueInner

variable {D : Type}

mutual

def merge : ConfigValueInner D → ConfigValueInner D → ConfigValueInner D
  | .table current, .table next => .table (mergeTables current next)
  | _, next => next

def mergeTables (current : ConfigTable D) : ConfigTable D → ConfigTable D
  | [] => current
  | (key, value) :: next =>
    match current.lookup key with
    | some existing => mergeTables (KeyedList.set current key (merge existing value)) next
    | none => mergeTables (KeyedList.set current key value) next

end

/-- The value at a path of keys. -/
def lookupPath (v : ConfigValueInner D) : List Utf8 → Option (ConfigValueInner D)
  | [] => some v
  | key :: path =>
    match v with
    | .table values =>
      match values.lookup key with
      | some value => value.lookupPath path
      | none => none
    | _ => none

def isTable : ConfigValueInner D → Bool
  | .table _ => true
  | _ => false

/-- The keys of every table are distinct. -/
inductive Distinct : ConfigValueInner D → Prop where
  | scalar {v : ConfigValueInner D} (ht : ∀ values, v ≠ .table values) (ha : ∀ values, v ≠ .array values) : Distinct v
  | array {values : List (ConfigValueInner D)} (below : ∀ v ∈ values, v.Distinct) : Distinct (.array values)
  | table {values : ConfigTable D} (keys : (values.map Prod.fst).Nodup) (below : ∀ p ∈ values, p.2.Distinct) :
      Distinct (.table values)

end ConfigValueInner

structure ConfigValue (D : Type) where
  inner : ConfigValueInner D
  distinct : inner.Distinct

structure Config (D : Type) where
  root : ConfigTable D
  distinct : (ConfigValueInner.table root).Distinct

namespace ConfigValueInner

variable {D : Type} {a b v : ConfigValueInner D} {current next : ConfigTable D}

/-! ## The steps of a merge -/

/-- An entry of the second table merged into what the first one has at its key. -/
def mergeInto (existing : Option (ConfigValueInner D)) (value : ConfigValueInner D) : ConfigValueInner D :=
  match existing with
  | some existing => existing.merge value
  | none => value

/-- What a merge leaves where the sides have these values. -/
def mergeEntry (existing value : Option (ConfigValueInner D)) : Option (ConfigValueInner D) :=
  match value with
  | some value => some (mergeInto existing value)
  | none => existing

@[simp] theorem mergeTables_nil (current : ConfigTable D) : mergeTables current [] = current := by
  rw [mergeTables]

theorem mergeTables_cons (current next : ConfigTable D) (key : Utf8) (value : ConfigValueInner D) :
    mergeTables current ((key, value) :: next) =
      mergeTables (KeyedList.set current key (mergeInto (current.lookup key) value)) next := by
  rw [mergeTables]
  cases current.lookup key <;> rfl

theorem merge_table (current next : ConfigTable D) :
    merge (.table current) (.table next) = .table (mergeTables current next) := by
  rw [merge]

/-- Where not both are tables the second value replaces the first. -/
theorem merge_replaces (h : a.isTable = false ∨ b.isTable = false) : a.merge b = b := by
  cases b with
  | table next => cases a <;> first | rfl | simp [isTable] at h
  | _ => cases a <;> rfl

theorem isTable_iff : v.isTable = true ↔ ∃ values, v = .table values := by
  cases v <;> simp [isTable]

@[simp] theorem lookupPath_nil (v : ConfigValueInner D) : v.lookupPath [] = some v := by
  rw [lookupPath]

theorem lookupPath_cons (values : ConfigTable D) (key : Utf8) (path : List Utf8) :
    (table values).lookupPath (key :: path) = (values.lookup key).bind fun value => value.lookupPath path := by
  rw [lookupPath]
  cases values.lookup key <;> rfl

/-- There is nothing below a value that is not a table. -/
theorem lookupPath_leaf (h : v.isTable = false) {path : List Utf8} (hp : path ≠ []) : v.lookupPath path = none := by
  cases path with
  | nil => exact absurd rfl hp
  | cons key path =>
    cases v with
    | table values => cases h
    | _ => rfl

theorem Distinct.keys_nodup (h : (ConfigValueInner.table current).Distinct) : (current.map Prod.fst).Nodup := by
  cases h with
  | scalar ht => exact absurd rfl (ht _)
  | table keys _ => exact keys

theorem Distinct.mem (h : (ConfigValueInner.table current).Distinct) {p : Utf8 × ConfigValueInner D}
    (hp : p ∈ current) : p.2.Distinct := by
  cases h with
  | scalar ht => exact absurd rfl (ht _)
  | table _ below => exact below p hp

theorem Distinct.of_lookup (h : (ConfigValueInner.table current).Distinct) {key : Utf8}
    (hv : current.lookup key = some v) : v.Distinct :=
  h.mem ((KeyedList.lookup_eq_some_iff_mem h.keys_nodup).mp hv)

/-- What is found at a key after a merge. -/
theorem lookup_mergeTables (current : ConfigTable D) (hnext : (next.map Prod.fst).Nodup) (key : Utf8) :
    (mergeTables current next).lookup key = mergeEntry (current.lookup key) (next.lookup key) := by
  induction next generalizing current with
  | nil => rw [mergeTables_nil]; rfl
  | cons p next ih =>
    obtain ⟨key', value⟩ := p
    obtain ⟨hnot, hnext⟩ := List.nodup_cons.mp hnext
    rw [mergeTables_cons, ih _ hnext, KeyedList.lookup_set]
    by_cases hk : key = key'
    · -- the key comes only once
      subst hk
      have hnone : next.lookup key = none := by
        refine List.lookup_eq_none_iff.mpr fun p hp => ?_
        exact bne_iff_ne.mpr fun he => hnot (List.mem_map.mpr ⟨p, hp, he.symm⟩)
      simp [hnone, mergeEntry]
    · rw [KeyedList.lookup_cons_of_ne hk]
      simp [hk]

/-! ## What is found after a merge -/

/-- A value that is not a table stands on the way to the path. -/
def Hides (b : ConfigValueInner D) (path : List Utf8) : Prop :=
  ∃ way v, way <+: path ∧ way ≠ path ∧ b.lookupPath way = some v ∧ v.isTable = false

theorem not_hides_nil (b : ConfigValueInner D) : ¬ b.Hides [] := by
  rintro ⟨way, v, hway, hne, -⟩
  exact hne (List.prefix_nil.mp hway)

theorem hides_leaf (h : b.isTable = false) {path : List Utf8} (hp : path ≠ []) : b.Hides path :=
  ⟨[], b, List.nil_prefix, hp.symm, lookupPath_nil b, h⟩

theorem hides_cons (key : Utf8) (path : List Utf8) :
    (table next).Hides (key :: path) ↔ ∃ v, next.lookup key = some v ∧ v.Hides path := by
  constructor
  · rintro ⟨_ | ⟨key', way⟩, v, hway, hne, hv, hleaf⟩
    · obtain rfl := Option.some.inj ((lookupPath_nil _).symm.trans hv)
      cases hleaf
    · obtain ⟨rfl, hbelow⟩ := List.cons_prefix_cons.mp hway
      rw [lookupPath_cons] at hv
      obtain ⟨w, hw, hv⟩ := Option.bind_eq_some_iff.mp hv
      exact ⟨w, hw, way, v, hbelow, fun he => hne (he ▸ rfl), hv, hleaf⟩
  · rintro ⟨w, hw, way, v, hway, hne, hv, hleaf⟩
    refine ⟨key :: way, v, List.cons_prefix_cons.mpr ⟨rfl, hway⟩, fun he => hne (List.cons.inj he).2, ?_, hleaf⟩
    rw [lookupPath_cons, hw]
    exact hv

/-- A value behind one that is not a table is not found. -/
theorem Hides.lookupPath {path : List Utf8} (h : b.Hides path) : b.lookupPath path = none := by
  induction path generalizing b with
  | nil => exact absurd h (not_hides_nil b)
  | cons key path ih =>
    cases b with
    | table next =>
      obtain ⟨v, hv, hhides⟩ := (hides_cons key path).mp h
      rw [lookupPath_cons, hv]
      exact ih hhides
    | _ => rfl

open Classical in
/-- What is found at a path after a merge. -/
theorem lookupPath_merge (hb : b.Distinct) (path : List Utf8) :
    (a.merge b).lookupPath path =
      if b.Hides path then none else mergeEntry (a.lookupPath path) (b.lookupPath path) := by
  induction path generalizing a b with
  | nil =>
    rw [if_neg (not_hides_nil b)]
    simp [mergeEntry, mergeInto]
  | cons key path ih =>
    by_cases hb' : b.isTable = false
    · rw [merge_replaces (.inr hb'), lookupPath_leaf hb' (List.cons_ne_nil _ _),
        if_pos (hides_leaf hb' (List.cons_ne_nil _ _))]
    obtain ⟨next, rfl⟩ := isTable_iff.mp (by simpa using hb')
    by_cases ha : a.isTable = false
    · rw [merge_replaces (.inl ha), lookupPath_leaf ha (List.cons_ne_nil _ _)]
      split
      · rename_i hhides
        exact hhides.lookupPath
      · cases (table next).lookupPath (key :: path) <;> rfl
    obtain ⟨current, rfl⟩ := isTable_iff.mp (by simpa using ha)
    rw [merge_table]
    simp only [lookupPath_cons, hides_cons, lookup_mergeTables current hb.keys_nodup]
    cases hv : next.lookup key with
    | none => simp [mergeEntry]
    | some value =>
      have hvalue := hb.of_lookup hv
      cases hw : current.lookup key with
      | none =>
        simp only [mergeEntry, mergeInto, Option.bind_some, Option.bind_none, Option.some.injEq, exists_eq_left']
        split
        · rename_i hhides
          exact hhides.lookupPath
        · cases value.lookupPath path <;> rfl
      | some existing =>
        simp only [mergeEntry, mergeInto, Option.bind_some, Option.some.injEq, exists_eq_left', ih hvalue]

/-! ## Distinct keys -/

theorem Distinct.mergeInto {existing : Option (ConfigValueInner D)} {value : ConfigValueInner D}
    (hv : value.Distinct) (ih : ∀ a : ConfigValueInner D, a.Distinct → (a.merge value).Distinct)
    (he : ∀ a ∈ existing, a.Distinct) : (ConfigValueInner.mergeInto existing value).Distinct := by
  cases existing with
  | none => exact hv
  | some a => exact ih a (he a rfl)

theorem Distinct.set (h : (ConfigValueInner.table current).Distinct) (key : Utf8) {value : ConfigValueInner D}
    (hv : value.Distinct) : (ConfigValueInner.table (KeyedList.set current key value)).Distinct := by
  refine .table (KeyedList.nodup_set h.keys_nodup key value) fun p hp => ?_
  rcases KeyedList.mem_set hp with rfl | hp
  · exact hv
  · exact h.mem hp

theorem Distinct.merge (ha : a.Distinct) (hb : b.Distinct) : (a.merge b).Distinct := by
  induction hb generalizing a with
  | scalar ht harray =>
    rename_i v
    rw [merge_replaces (.inr (by cases v <;> first | rfl | exact absurd rfl (ht _)))]
    exact .scalar ht harray
  | array below =>
    rw [merge_replaces (.inr rfl)]
    exact .array below
  | @table next keys below ih =>
    by_cases hleaf : a.isTable = false
    · rw [merge_replaces (.inl hleaf)]
      exact .table keys below
    obtain ⟨current, rfl⟩ := isTable_iff.mp (by simpa using hleaf)
    rw [merge_table]
    clear keys hleaf
    induction next generalizing current with
    | nil => rwa [mergeTables_nil]
    | cons p next ih' =>
      obtain ⟨key, value⟩ := p
      rw [mergeTables_cons]
      refine ih' (fun p hp => below p (List.mem_cons_of_mem _ hp)) (fun p hp => ih p (List.mem_cons_of_mem _ hp)) _ ?_
      have hvalue : (ConfigValueInner.mergeInto (current.lookup key) value).Distinct :=
        Distinct.mergeInto (below _ List.mem_cons_self) (fun a ha => ih _ List.mem_cons_self ha)
          fun v hv => ha.of_lookup hv
      exact ha.set key hvalue

/-! ## The order of iteration -/

/-- Equal values, whatever the order in which the tables are iterated. -/
inductive Same : ConfigValueInner D → ConfigValueInner D → Prop where
  | leaf {v : ConfigValueInner D} (ht : v.isTable = false) : Same v v
  | array {values values' : List (ConfigValueInner D)} (length : values.length = values'.length)
      (below : ∀ (i : Nat) v v', values[i]? = some v → values'[i]? = some v' → Same v v') :
      Same (.array values) (.array values')
  | table {values values' : ConfigTable D} (keys : ∀ key, (values.lookup key).isSome = (values'.lookup key).isSome)
      (below : ∀ key v v', values.lookup key = some v → values'.lookup key = some v' → Same v v') :
      Same (.table values) (.table values')

theorem Same.isTable {v' : ConfigValueInner D} (h : v.Same v') : v.isTable = v'.isTable := by
  cases h <;> rfl

theorem same_table_iff {values values' : ConfigTable D} :
    (table values).Same (table values') ↔ ∀ key, Option.Rel Same (values.lookup key) (values'.lookup key) := by
  constructor
  · intro h key
    cases h with
    | leaf ht => cases ht
    | table keys below =>
      have hkey := keys key
      cases hv : values.lookup key with
      | none =>
        cases hv' : values'.lookup key with
        | none => exact .none
        | some v' => simp [hv, hv'] at hkey
      | some v =>
        cases hv' : values'.lookup key with
        | none => simp [hv, hv'] at hkey
        | some v' => exact .some (below key v v' hv hv')
  · intro h
    refine .table (fun key => ?_) fun key v v' hv hv' => ?_
    · have hkey := h key
      generalize values.lookup key = v, values'.lookup key = v' at hkey
      cases hkey <;> rfl
    · have hkey := h key
      rw [hv, hv'] at hkey
      cases hkey
      assumption

theorem Distinct.same (h : v.Distinct) : v.Same v := by
  induction h with
  | @scalar v ht _ => exact .leaf (by cases v <;> first | rfl | exact absurd rfl (ht _))
  | array below _ => exact .leaf rfl
  | @table values keys below ih =>
    refine same_table_iff.mpr fun key => ?_
    cases hv : values.lookup key with
    | none => exact .none
    | some v => exact .some (ih (key, v) ((KeyedList.lookup_eq_some_iff_mem keys).mp hv))

/-- A table in another order. -/
theorem same_of_perm {values values' : ConfigTable D} (h : (table values).Distinct) (hp : values.Perm values') :
    (table values).Same (table values') := by
  have hlookup : ∀ key, values.lookup key = values'.lookup key := fun key => Option.ext fun v => by
    rw [KeyedList.lookup_eq_some_iff_mem h.keys_nodup,
      KeyedList.lookup_eq_some_iff_mem ((hp.map Prod.fst).nodup_iff.mp h.keys_nodup), hp.mem_iff]
  have hsame := same_table_iff.mp h.same
  exact same_table_iff.mpr fun key => hlookup key ▸ hsame key

/-- Merges of the same values give the same value. -/
theorem Same.merge {a' b' : ConfigValueInner D} (ha : a.Same a') (hb : b.Same b') (hd : b.Distinct)
    (hd' : b'.Distinct) :
    (a.merge b).Same (a'.merge b') := by
  induction hb generalizing a a' with
  | leaf ht =>
    rw [merge_replaces (.inr ht), merge_replaces (.inr ht)]
    exact .leaf ht
  | array length below =>
    rw [merge_replaces (.inr rfl), merge_replaces (.inr rfl)]
    exact .array length below
  | @table next next' keys below ih =>
    by_cases hleaf : a.isTable = false
    · rw [merge_replaces (.inl hleaf), merge_replaces (.inl (ha.isTable ▸ hleaf))]
      exact .table keys below
    obtain ⟨current, rfl⟩ := isTable_iff.mp (by simpa using hleaf)
    obtain ⟨current', rfl⟩ := isTable_iff.mp (ha.isTable.symm.trans rfl)
    rw [merge_table, merge_table]
    refine same_table_iff.mpr fun key => ?_
    rw [lookup_mergeTables _ hd.keys_nodup, lookup_mergeTables _ hd'.keys_nodup]
    have hcurrent := same_table_iff.mp ha key
    have hnext := same_table_iff.mp (.table keys below) key
    cases hn : next.lookup key with
    | none =>
      rw [hn] at hnext
      generalize next'.lookup key = entry at hnext ⊢
      cases hnext
      exact hcurrent
    | some value =>
      obtain ⟨value', hn'⟩ : ∃ value', next'.lookup key = some value' :=
        Option.isSome_iff_exists.mp ((keys key).symm.trans (by rw [hn]; rfl))
      rw [hn']
      generalize current.lookup key = existing, current'.lookup key = existing' at hcurrent
      cases hcurrent with
      | none => exact .some (below key value value' hn hn')
      | some hexisting => exact .some (ih key value value' hn hn' hexisting (hd.of_lookup hn) (hd'.of_lookup hn'))

/-! ## Layers -/

/-- What stands at a path of a layer. -/
def node (v : ConfigValueInner D) : Node (ConfigValueInner D) := if v.isTable then .table else .leaf v

/-- The value as a layer of nested tables. -/
def shape (v : ConfigValueInner D) : Layer Utf8 (ConfigValueInner D) := fun path => (v.lookupPath path).map node

theorem hides_shape {path : List Utf8} : b.shape.Hides path ↔ b.Hides path := by
  constructor
  · rintro ⟨way, l, hway, hne, hl⟩
    obtain ⟨v, hv, hnode⟩ := Option.map_eq_some_iff.mp hl
    refine ⟨way, v, hway, hne, hv, ?_⟩
    unfold node at hnode
    split at hnode
    · cases hnode
    · rename_i hleaf
      simpa using hleaf
  · rintro ⟨way, v, hway, hne, hv, hleaf⟩
    exact ⟨way, v, hway, hne, by simp [shape, hv, node, hleaf]⟩

/-- A merge lays the second value over the first. -/
theorem shape_merge (hb : b.Distinct) : (a.merge b).shape = a.shape.layOver b.shape := by
  funext path
  show ((a.merge b).lookupPath path).map node = _
  rw [lookupPath_merge hb]
  unfold Layer.layOver Layer.Clear
  rw [hides_shape]
  by_cases hhides : b.Hides path
  · rw [if_pos hhides, if_neg (fun h => h.2 hhides)]
    simp [shape, hhides.lookupPath]
  rw [if_neg hhides]
  cases hv : b.lookupPath path with
  | none => simp [shape, hv, mergeEntry, hhides]
  | some value =>
    rw [if_neg (by simp [shape, hv])]
    show _ = (b.lookupPath path).map node
    rw [hv]
    cases a.lookupPath path with
    | none => rfl
    | some existing =>
      show some (node (existing.merge value)) = some (node value)
      by_cases hboth : existing.isTable = false ∨ value.isTable = false
      · rw [merge_replaces hboth]
      · obtain ⟨hexisting, hvalue⟩ := not_or.mp hboth
        obtain ⟨current, rfl⟩ := isTable_iff.mp (by simpa using hexisting)
        obtain ⟨next, rfl⟩ := isTable_iff.mp (by simpa using hvalue)
        rw [merge_table]
        rfl

end ConfigValueInner

/-! ## Configurations -/

namespace Config

variable {D : Type}

def new : Config D := ⟨[], .table List.nodup_nil fun _ h => absurd h List.not_mem_nil⟩

def merge (config other : Config D) : Config D where
  root := ConfigValueInner.mergeTables config.root other.root
  distinct := by
    have h := config.distinct.merge other.distinct
    rwa [ConfigValueInner.merge_table] at h

/-- The value at a path of keys. -/
def lookupPath (config : Config D) (path : List Utf8) : Option (ConfigValueInner D) :=
  (ConfigValueInner.table config.root).lookupPath path

/-- A value that is not a table stands on the way to the path. -/
def Hides (config : Config D) (path : List Utf8) : Prop :=
  ∃ way v, way <+: path ∧ way ≠ path ∧ config.lookupPath way = some v ∧ v.isTable = false

/-- Equal configurations, whatever the order in which their tables are iterated. -/
def Same (config config' : Config D) : Prop :=
  (ConfigValueInner.table config.root).Same (.table config'.root)

open Classical in
/-- What is found at a path after a merge, for any path through any two configurations; the order
in which the tables are iterated does not matter. -/
theorem merge_lookupPath (a b : Config D) :
    (∀ path, (a.merge b).lookupPath path =
      match b.lookupPath path with
      | some (.table next) =>
        match a.lookupPath path with
        | some (.table current) => some (.table (ConfigValueInner.mergeTables current next))
        | _ => some (.table next)
      | some value => some value
      | none => if b.Hides path then none else a.lookupPath path) ∧
    ∀ a' b' : Config D, a.Same a' → b.Same b' → (a.merge b).Same (a'.merge b') := by
  refine ⟨fun path => ?_, fun a' b' ha hb => ?_⟩
  · have hfound := ConfigValueInner.lookupPath_merge (a := .table a.root) b.distinct path
    rw [ConfigValueInner.merge_table] at hfound
    refine hfound.trans ?_
    show (if b.Hides path then none else ConfigValueInner.mergeEntry (a.lookupPath path) (b.lookupPath path)) = _
    cases hv : b.lookupPath path with
    | none => rfl
    | some value =>
      have hclear : ¬ b.Hides path := fun h => by
        have hnone : b.lookupPath path = none := ConfigValueInner.Hides.lookupPath h
        rw [hv] at hnone
        cases hnone
      rw [if_neg hclear]
      cases a.lookupPath path with
      | none => cases value <;> rfl
      | some existing =>
        show some (existing.merge value) = _
        cases value with
        | table next =>
          cases existing with
          | table current => rw [ConfigValueInner.merge_table]
          | _ => rw [ConfigValueInner.merge_replaces (.inl rfl)]
        | _ => rw [ConfigValueInner.merge_replaces (.inr rfl)]
  · have h := ha.merge hb b.distinct b'.distinct
    rwa [ConfigValueInner.merge_table, ConfigValueInner.merge_table] at h

end Config

end Kompact
