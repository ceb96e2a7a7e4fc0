import Kompact.Config.Insert

/-!
# Loading the sources of a configuration

The sources are loaded in turn, each merged over what was there. What the
configuration has at a path comes from the last source with something there,
unless a later one has a value that is not a table on the way
(`loadConfig_eq_some_iff`).
-/

namespace Kompact

inductive ConfigSource (D : Type) where
  | file (path : Utf8)
  | str (config : Utf8)
  | value (key : Utf8) (value : ConfigValue D)

variable {D ε : Type}

/-- How files and strings are parsed. -/
structure ConfigParser (D ε : Type) where
  parseConfigFile : Utf8 → Except ε (Config D)
  parseConfigStr : Utf8 → Except ε (Config D)

def ConfigSource.load (parser : ConfigParser D ε) : ConfigSource D → Except ε (Config D)
  | .file path => parser.parseConfigFile path
  | .str config => parser.parseConfigStr config
  | .value k v => .ok (Config.new.insertValue k v)

def loadConfig (parser : ConfigParser D ε) (sources : List (ConfigSource D)) : Except ε (Config D) :=
  sources.foldlM (fun config source => do
    let next ← source.load parser
    return config.merge next) Config.new

namespace Config

/-- A configuration as a layer of nested tables. -/
def shape (config : Config D) : Layer Utf8 (ConfigValueInner D) := (ConfigValueInner.table config.root).shape

theorem shape_merge (a b : Config D) : (a.merge b).shape = a.shape.layOver b.shape := by
  have h := ConfigValueInner.shape_merge (a := .table a.root) b.distinct
  rwa [ConfigValueInner.merge_table] at h

end Config

/-- The sources that can all be loaded, with what they give. -/
def Loads (parser : ConfigParser D ε) (sources : List (ConfigSource D)) (configs : List (Config D)) : Prop :=
  List.Forall₂ (fun source config => source.load parser = .ok config) sources configs

theorem foldlM_load {parser : ConfigParser D ε} {sources : List (ConfigSource D)} {configs : List (Config D)}
    (h : Loads parser sources configs) (config : Config D) :
    (sources.foldlM (fun config source => do
      let next ← source.load parser
      return config.merge next) config) = .ok (configs.foldl Config.merge config) := by
  induction h generalizing config with
  | nil => rfl
  | @cons source next sources configs hload _ ih =>
    rw [List.foldlM_cons, hload]
    exact ih (config.merge next)

theorem foldl_shape (configs : List (Config D)) (config : Config D) :
    (configs.foldl Config.merge config).shape = config.shape.stack (configs.map Config.shape) := by
  induction configs generalizing config with
  | nil => rfl
  | cons next configs ih =>
    rw [List.foldl_cons, ih, Config.shape_merge]
    rfl

/-- What is loaded is the stack of the sources' layers. -/
theorem loadConfig_shape {parser : ConfigParser D ε} {sources : List (ConfigSource D)} {configs : List (Config D)}
    (h : Loads parser sources configs) : ∃ config, loadConfig parser sources = .ok config ∧
      config.shape = (Config.new : Config D).shape.stack (configs.map Config.shape) :=
  ⟨_, foldlM_load h Config.new, foldl_shape configs Config.new⟩

theorem shape_new {path : List Utf8} (hp : path ≠ []) : (Config.new : Config D).shape path = none := by
  cases path with
  | nil => exact absurd rfl hp
  | cons key path => rfl

/-- What is at a path comes from the last source with something there, if no later one hides it. -/
theorem loadConfig_eq_some_iff {parser : ConfigParser D ε} {sources : List (ConfigSource D)}
    {configs : List (Config D)} (h : Loads parser sources configs) {path : List Utf8} (hp : path ≠ [])
    {n : Node (ConfigValueInner D)} : ∃ config, loadConfig parser sources = .ok config ∧
      (config.shape path = some n ↔ ∃ below source above, configs = below ++ source :: above ∧
        source.shape path = some n ∧ ∀ later ∈ above, later.shape.Clear path) := by
  obtain ⟨config, hload, hshape⟩ := loadConfig_shape h
  refine ⟨config, hload, ?_⟩
  rw [hshape, Layer.stack_eq_some_iff, shape_new hp]
  constructor
  · rintro (⟨hnone, -⟩ | ⟨below, layer, above, hmap, hlayer, hclear⟩)
    · cases hnone
    · obtain ⟨below, rest, rfl, rfl, hrest⟩ := List.map_eq_append_iff.mp hmap
      obtain ⟨source, above, rfl, rfl, rfl⟩ := List.map_eq_cons_iff.mp hrest
      exact ⟨below, source, above, rfl, hlayer, fun later hl => hclear _ (List.mem_map_of_mem hl)⟩
  · rintro ⟨below, source, above, rfl, hsource, hclear⟩
    refine .inr ⟨below.map Config.shape, source.shape, above.map Config.shape, by simp, hsource, fun l hl => ?_⟩
    obtain ⟨later, hlater, rfl⟩ := List.mem_map.mp hl
    exact hclear later hlater

end Kompact
