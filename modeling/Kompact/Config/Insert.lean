import Kompact.Config.Lookup

/-!
# Inserting into a configuration

A value inserted at a dotted key: the tables on the way are created, or put in
the place of values that are not tables, and the value is merged into what is
at the key.

This is the merge with the configuration that has only this value
(`insertSegments_eq`). So the value is found at the key, and nothing changes
elsewhere (`insertValue_eq_merge`).
-/

namespace Kompact

namespace ConfigValueInner

variable {D : Type}

def insertSegments (value : ConfigValueInner D) : List Utf8 → ConfigTable D → ConfigTable D
  | [], current => current
  | [segment], current =>
    match current.lookup segment with
    | some existing => KeyedList.set current segment (existing.merge value)
    | none => KeyedList.set current segment value
  | segment :: next :: segments, current =>
    let child := (current.lookup segment).getD (.table [])
    let values :=
      match child with
      | .table values => values
      | _ => [] -- an empty table in its place
    KeyedList.set current segment (.table (insertSegments value (next :: segments) values))

/-- Tables with one entry each, down to the value. -/
def nest (value : ConfigValueInner D) : List Utf8 → ConfigValueInner D
  | [] => value
  | segment :: segments => .table [(segment, nest value segments)]

theorem distinct_nest {value : ConfigValueInner D} (h : value.Distinct) (segments : List Utf8) :
    (nest value segments).Distinct := by
  induction segments with
  | nil => exact h
  | cons segment segments ih =>
    refine .table (List.nodup_singleton _) fun p hp => ?_
    obtain rfl := List.mem_singleton.mp hp
    exact ih

theorem merge_nest (value : ConfigValueInner D) (segment : Utf8) (segments : List Utf8) (current : ConfigTable D) :
    mergeTables current [(segment, nest value segments)] =
      KeyedList.set current segment (mergeInto (current.lookup segment) (nest value segments)) := by
  rw [mergeTables_cons, mergeTables_nil]

/-- The insertion is a merge. -/
theorem insertSegments_eq (value : ConfigValueInner D) (segment : Utf8) (segments : List Utf8)
    (current : ConfigTable D) :
    insertSegments value (segment :: segments) current = mergeTables current [(segment, nest value segments)] := by
  rw [merge_nest]
  induction segments generalizing segment current with
  | nil =>
    rw [insertSegments]
    cases current.lookup segment <;> rfl
  | cons next segments ih =>
    -- the entry for the next segment in an empty table
    have hempty : insertSegments value (next :: segments) [] = [(next, nest value segments)] := ih next []
    rw [insertSegments]
    congr 1
    cases current.lookup segment with
    | none => exact congrArg table hempty
    | some existing =>
      by_cases hleaf : existing.isTable = false
      · rw [mergeInto, merge_replaces (.inl hleaf)]
        cases existing with
        | table values => cases hleaf
        | _ => exact congrArg table hempty
      · obtain ⟨values, rfl⟩ := isTable_iff.mp (by simpa using hleaf)
        simp only [Option.getD_some, mergeInto, nest, merge_table, ih, merge_nest]

/-! ## What is found in the nested tables -/

variable {value v w : ConfigValueInner D}

theorem lookup_single (segment key : Utf8) (v : ConfigValueInner D) :
    List.lookup key [(segment, v)] = if key = segment then some v else none := by
  by_cases h : key = segment
  · simp [h]
  · simp [KeyedList.lookup_cons_of_ne h, h]

theorem lookupPath_nest (value : ConfigValueInner D) (segments : List Utf8) :
    (nest value segments).lookupPath segments = some value := by
  induction segments with
  | nil => exact lookupPath_nil value
  | cons segment segments ih =>
    rw [nest, lookupPath_cons, lookup_single, if_pos rfl]
    exact ih

/-- The other paths at which there is something lead to the value, or behind it. -/
theorem nest_found {segments way : List Utf8} (h : (nest value segments).lookupPath way = some w) :
    segments <+: way ∨ (way <+: segments ∧ w.isTable = true) := by
  induction segments generalizing way with
  | nil => exact .inl List.nil_prefix
  | cons segment segments ih =>
    cases way with
    | nil =>
      obtain rfl := Option.some.inj ((lookupPath_nil _).symm.trans h)
      exact .inr ⟨List.nil_prefix, rfl⟩
    | cons key way =>
      rw [nest, lookupPath_cons, lookup_single] at h
      by_cases hk : key = segment
      · subst hk
        rw [if_pos rfl] at h
        exact (ih h).imp (fun hp => List.cons_prefix_cons.mpr ⟨rfl, hp⟩)
          fun hp => ⟨List.cons_prefix_cons.mpr ⟨rfl, hp.1⟩, hp.2⟩
      · rw [if_neg hk] at h
        cases h

theorem not_hides_nest {segments path : List Utf8} (h : ¬ segments <+: path ∨ segments = path) :
    ¬ (nest value segments).Hides path := by
  rintro ⟨way, w, hway, hne, hw, hleaf⟩
  rcases nest_found hw with hbehind | ⟨-, htable⟩
  · rcases h with h | rfl
    · exact h (hbehind.trans hway)
    · exact hne (hway.eq_of_length (Nat.le_antisymm hway.length_le hbehind.length_le))
  · rw [hleaf] at htable
    cases htable

/-- A path that leads neither to the value nor behind it. -/
theorem walk_nest {segments path : List Utf8} (hpath : ¬ path <+: segments) (hbehind : ¬ segments <+: path) :
    (nest value segments).walk path = .error .missingKey := by
  induction segments generalizing path with
  | nil => exact absurd List.nil_prefix hbehind
  | cons segment segments ih =>
    cases path with
    | nil => exact absurd List.nil_prefix hpath
    | cons key path =>
      have hlookup := lookup_single segment key (nest value segments)
      by_cases hk : key = segment
      · subst hk
        rw [if_pos rfl] at hlookup
        rw [nest, walk_some hlookup]
        exact ih (fun h => hpath (List.cons_prefix_cons.mpr ⟨rfl, h⟩))
          fun h => hbehind (List.cons_prefix_cons.mpr ⟨rfl, h⟩)
      · rw [if_neg hk] at hlookup
        exact walk_none hlookup path

/-! ## What changes -/

/-- The path leads through a value that is not a table and is replaced by one on the way to the key. -/
def Replaces (v : ConfigValueInner D) (segments path : List Utf8) : Prop :=
  ∃ way w, way <+: path ∧ way <+: segments ∧ way ≠ segments ∧ v.lookupPath way = some w ∧ w.isTable = false

theorem Replaces.cons {values : ConfigTable D} {key : Utf8} (hv : values.lookup key = some v)
    {segments path : List Utf8} (h : v.Replaces segments path) :
    (table values).Replaces (key :: segments) (key :: path) := by
  obtain ⟨way, w, hway, hsegments, hne, hw, hleaf⟩ := h
  refine ⟨key :: way, w, List.cons_prefix_cons.mpr ⟨rfl, hway⟩, List.cons_prefix_cons.mpr ⟨rfl, hsegments⟩,
    fun he => hne (List.cons.inj he).2, ?_, hleaf⟩
  rw [lookupPath_cons, hv]
  exact hw

/-- A walk elsewhere goes as before. -/
theorem walk_merge_nest {segments path : List Utf8} (hpath : ¬ path <+: segments) (hbehind : ¬ segments <+: path)
    (hkept : ¬ v.Replaces segments path) : (v.merge (nest value segments)).walk path = v.walk path := by
  induction segments generalizing v path with
  | nil => exact absurd List.nil_prefix hbehind
  | cons segment segments ih =>
    cases path with
    | nil => exact absurd List.nil_prefix hpath
    | cons key path =>
      have htable : v.isTable = true := by
        by_contra hleaf
        exact hkept ⟨[], v, List.nil_prefix, List.nil_prefix, (List.cons_ne_nil _ _).symm, lookupPath_nil v,
          by simpa using hleaf⟩
      obtain ⟨current, rfl⟩ := isTable_iff.mp htable
      rw [nest, merge_table, merge_nest]
      have hset := KeyedList.lookup_set current segment key (mergeInto (current.lookup segment) (nest value segments))
      by_cases hk : key = segment
      · subst hk
        have hpath' : ¬ path <+: segments := fun h => hpath (List.cons_prefix_cons.mpr ⟨rfl, h⟩)
        have hbehind' : ¬ segments <+: path := fun h => hbehind (List.cons_prefix_cons.mpr ⟨rfl, h⟩)
        rw [walk_some (hset.trans (if_pos (beq_self_eq_true key)))]
        cases hv : current.lookup key with
        | none => rw [walk_none hv, mergeInto, walk_nest hpath' hbehind']
        | some existing =>
          rw [walk_some hv]
          exact ih hpath' hbehind' fun h => hkept (h.cons hv)
      · rw [if_neg (by simpa using hk)] at hset
        cases hv : current.lookup key with
        | none => rw [walk_none hv, walk_none (hset.trans hv)]
        | some existing => rw [walk_some hv, walk_some (hset.trans hv)]

end ConfigValueInner

/-! ## Configurations -/

namespace Config

variable {D : Type}

open ConfigValueInner

/-- The configuration that has only this value. -/
def only (key : Utf8) (value : ConfigValue D) : Config D :=
  match key.splitOn pathSep with
  | [] => new
  | segment :: segments => ⟨[(segment, nest value.inner segments)], distinct_nest value.distinct (segment :: segments)⟩

def insertValue (config : Config D) (key : Utf8) (value : ConfigValue D) : Config D where
  root := insertSegments value.inner (key.splitOn pathSep) config.root
  distinct := by
    cases key.splitOn pathSep with
    | nil => exact config.distinct
    | cons segment segments =>
      rw [insertSegments_eq, ← merge_table]
      exact config.distinct.merge (distinct_nest value.distinct (segment :: segments))

theorem table_only (key : Utf8) (value : ConfigValue D) :
    table (only key value).root = nest value.inner (key.splitOn pathSep) := by
  unfold only
  cases hkey : key.splitOn pathSep with
  | nil => exact absurd hkey (List.splitOn_ne_nil _ _)
  | cons segment segments => rfl

theorem insertValue_eq (config : Config D) (key : Utf8) (value : ConfigValue D) :
    config.insertValue key value = config.merge (only key value) := by
  unfold insertValue merge only
  congr 1
  cases hkey : key.splitOn pathSep with
  | nil => exact absurd hkey (List.splitOn_ne_nil _ _)
  | cons segment segments => exact insertSegments_eq ..

theorem table_insertValue (config : Config D) (key : Utf8) (value : ConfigValue D) :
    table (config.insertValue key value).root = (table config.root).merge (nest value.inner (key.splitOn pathSep)) := by
  rw [insertValue_eq, ← table_only, merge_table]
  rfl

theorem lookupPath_insertValue (config : Config D) (key : Utf8) (value : ConfigValue D) (path : List Utf8)
    (h : ¬ (nest value.inner (key.splitOn pathSep)).Hides path) :
    (config.insertValue key value).lookupPath path =
      mergeEntry (config.lookupPath path) ((nest value.inner (key.splitOn pathSep)).lookupPath path) := by
  unfold lookupPath
  rw [table_insertValue, lookupPath_merge (distinct_nest value.distinct _), if_neg h]

/-- The path leads through a value that is not a table and is replaced by one on the way to the key. -/
def Replaces (config : Config D) (segments path : List Utf8) : Prop :=
  ∃ way v, way <+: path ∧ way <+: segments ∧ way ≠ segments ∧ config.lookupPath way = some v ∧ v.isTable = false

/-- An insertion is the merge with the configuration that has only the value. It is then found at
the key, and every path that leads neither to the key nor behind it is found as before. -/
theorem insertValue_eq_merge (config : Config D) (key : Utf8) (value : ConfigValue D)
    (hkey : ∀ segment ∈ key.splitOn pathSep, segment ≠ []) :
    config.insertValue key value = config.merge (only key value) ∧
      (config.insertValue key value).select key = .fromFullPath key
        (match config.lookupPath (key.splitOn pathSep), value.inner with
        | some (.table current), .table next => .table (mergeTables current next)
        | _, value => value) ∧
      ∀ path, ¬ path <+: key.splitOn pathSep → ¬ key.splitOn pathSep <+: path →
        (config.insertValue key value).lookupPath path = config.lookupPath path ∧
          (DottedKeys path → ¬ config.Replaces (key.splitOn pathSep) path →
            (config.insertValue key value).select (joinKeys path) = config.select (joinKeys path)) := by
  refine ⟨config.insertValue_eq key value, ?_, fun path hpath hbehind => ⟨?_, fun hdotted hkept => ?_⟩⟩
  · have hfound := config.lookupPath_insertValue key value (key.splitOn pathSep) (not_hides_nest (.inr rfl))
    rw [lookupPath_nest] at hfound
    rw [select_eq _ hkey, walk_ok_iff.mpr hfound]
    cases config.lookupPath (key.splitOn pathSep) with
    | none => rfl
    | some existing =>
      by_cases hboth : existing.isTable = false ∨ value.inner.isTable = false
      · rw [mergeInto, merge_replaces hboth]
        generalize value.inner = v at hboth ⊢
        cases existing <;> cases v <;> first | rfl | simp [isTable] at hboth
      · obtain ⟨hexisting, hvalue⟩ := not_or.mp hboth
        obtain ⟨current, rfl⟩ := isTable_iff.mp (by simpa using hexisting)
        obtain ⟨next, hnext⟩ := isTable_iff.mp (by simpa using hvalue)
        rw [hnext, mergeInto, merge_table]
        rfl
  · rw [config.lookupPath_insertValue key value path (not_hides_nest (.inl hbehind))]
    cases hfound : (nest value.inner (key.splitOn pathSep)).lookupPath path with
    | none => rfl
    | some w => exact absurd (nest_found hfound) (not_or.mpr ⟨hbehind, fun h => hpath h.1⟩)
  · have hne : path ≠ [] := fun h => hpath (h ▸ List.nil_prefix)
    rw [select_joinKeys _ hdotted hne, select_joinKeys _ hdotted hne, table_insertValue,
      walk_merge_nest hpath hbehind hkept]

/-- `a.c` inserted next to `a.b`. -/
theorem insertValue_eq_merge_beside :
    (∀ segment ∈ List.splitOn pathSep [0x61, 0x2E, 0x63], segment ≠ []) ∧
      (exampleConfig.insertValue [0x61, 0x2E, 0x63] ⟨.integer 7, .scalar nofun nofun⟩).select [0x61, 0x2E, 0x63] =
        .fromFullPath [0x61, 0x2E, 0x63] (.integer 7) :=
  ⟨by decide, (insertValue_eq_merge exampleConfig [0x61, 0x2E, 0x63] ⟨.integer 7, .scalar nofun nofun⟩
    (by decide)).2.1.trans rfl⟩

end Config

end Kompact
