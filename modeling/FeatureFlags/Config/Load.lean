import FeatureFlags.Config.Environment
import FeatureFlags.Config.File
import FeatureFlags.Text.Utf8

/-!
# Loading a configuration

A configuration comes from several sources. The environment overrides a file, and a file overrides
the defaults, in whatever order the sources are given; of two sources of one kind the later one
overrides the earlier.
-/

namespace FeatureFlags

/-- A source of settings. -/
inductive ConfigSource where
  | defaults
  /-- The file under a path, which need not exist. -/
  | toml (path : String)
  | environment (env : Environment)

namespace ConfigSource

/-- Sources of higher precedence override those of lower precedence. -/
def precedence : ConfigSource → Nat
  | defaults => 10
  | toml _ => 20
  | environment _ => 50

/-- The settings of a file. -/
def fileLayer (path : String) : FileEntry → Except ConfigError ConfigLayer
  | .directory => .error (.fileRead path)
  | .file bytes =>
    match Utf8.decode? bytes with
    | none => .error (.fileRead path)
    | some text =>
      match (Toml.Table.ofText? text).bind (·.layer?) with
      | some layer => .ok layer
      | none => .error (.tomlParse path)

/-- The settings of a source. -/
def load (source : ConfigSource) (files : Files) : Except ConfigError ConfigLayer :=
  match source with
  | defaults => .ok {}
  | toml path =>
    match files path with
    | none => .ok {}
    | some entry => fileLayer path entry
  | environment env => env.layer

end ConfigSource

namespace ResolverConfig

/-- Merges the settings of sources in the order of their precedence. -/
def merged (sources : List ConfigSource) (files : Files) : Except ConfigError ConfigLayer :=
  let ordered := sources.mergeSort fun a b => a.precedence ≤ b.precedence
  ordered.foldlM (fun layer source => (source.load files).map layer.merge) {}

/-- Loads a configuration from explicit sources. -/
def ofSources (sources : List ConfigSource) (files : Files) : Except ConfigError ResolverConfig :=
  do
  let layer ← merged sources files
  let config := layer.finish
  config.validate files
  return config

/-- Loads a configuration from the environment and a file, if a path is given. -/
def load (env : Environment) (path : Option String) (files : Files) :
    Except ConfigError ResolverConfig :=
  ofSources ([.defaults, .environment env] ++ (path.map ConfigSource.toml).toList) files

end ResolverConfig

end FeatureFlags
