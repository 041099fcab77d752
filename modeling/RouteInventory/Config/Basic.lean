import RouteInventory.FileSystem.Discovery
import RouteInventory.Inventory.Reconciliation
import RouteInventory.Value.Plain
import RouteInventory.Value.Slots

/-!
# Configuration

Where an application's sources are and what its inventory leaves out. `Config.ofMapping` reads the
settings of a document: it refuses keys that it does not know before it looks at any value, and then
the first value of a wrong kind.
-/

namespace RouteInventory

/-- Paths that are not absolute lie below the project root. -/
structure Config where
  projectRoot : Path
  appRoot : Path := .ofString "src/app"
  rootModule : Path := .ofString "src/app/app-routing.module.ts"
  outDir : Path := .ofString "."
  ignoredDirectories : List String := increasing Query.defaultIgnored
  excludedRoutes : List String := increasing defaultExcluded
  exampleLookups : List String := ["AKIMaintenance", "Tests", "Analyser", "Profile"]
  sampleSize : Nat := 20
  deterministic : Bool := false
deriving DecidableEq, Repr

/-- Why settings are refused. -/
inductive ConfigFault
  | unknownKeys (keys : List String)
  | unnamedKey (kind : String)
  | unsortedKeys (disorder : Disorder)
  | tooLong
  | notPath (key : String) (value : Value)
  | notTexts (key : String) (value : Value)
  | notSize (value : Value)
  | notFlag (value : Value)
  | notMapping (file : Path)
deriving Repr

namespace ConfigFault

def message : ConfigFault → String
  | unknownKeys keys => "unknown config key(s): " ++ String.intercalate ", " keys
  | unnamedKey kind => s!"sequence item 0: expected str instance, {kind} found"
  | unsortedKeys disorder => disorder.message
  | tooLong => Number.tooLongToWrite
  | notPath key value => s!"{key} must be a string path, got {value.literalText}"
  | notTexts key value => s!"{key} must be a list of strings, got {value.literalText}"
  | notSize value => s!"sample_size must be a non-negative integer, got {value.literalText}"
  | notFlag value => s!"ci_mode must be a boolean, got {value.literalText}"
  | notMapping file => s!"{file}: top level must be a mapping"

/-- The fault of a value, unless the value is too long to be named. -/
def of (value : Value) (fault : ConfigFault) : ConfigFault := if value.isTooLong then tooLong else fault

end ConfigFault

/-- The settings that a document may give. -/
inductive Setting
  | appRoot
  | rootModule
  | outDir
  | ignoredDirectories
  | excludedRoutes
  | exampleLookups
  | sampleSize
  | deterministic
deriving DecidableEq, Repr

namespace Setting

def name : Setting → String
  | appRoot => "app_root"
  | rootModule => "root_routing_file"
  | outDir => "out_dir"
  | ignoredDirectories => "ignore_dirs"
  | excludedRoutes => "excluded_routes"
  | exampleLookups => "example_lookups"
  | sampleSize => "sample_size"
  | deterministic => "ci_mode"

def all : List Setting :=
  [appRoot, rootModule, outDir, ignoredDirectories, excludedRoutes, exampleLookups, sampleSize,
    deterministic]

theorem mem_all (s : Setting) : s ∈ all := by cases s <;> decide

def ofName? (name : String) : Option Setting := all.find? (·.name = name)

/-- The setting that a key names. -/
def ofKey? (key : Value) : Option Setting := key.text?.bind ofName?

end Setting

namespace Value

/-- The texts of a list of texts. -/
def texts? : Value → Option (List String)
  | list items => items.mapM text?
  | _ => none

end Value

namespace Config

/-- A path below the project root, unless it is absolute. -/
def below (c : Config) (p : Path) : Path := c.projectRoot.join p

/-- The directory of the application's sources. -/
def appDir (c : Config) : Path := c.below c.appRoot

/-- The root module's file. -/
def rootModulePath (c : Config) : Path := c.below c.rootModule

/-- The directory for the artifacts. -/
def outPath (c : Config) : Path := c.below c.outDir

def setPath (s : Setting) (value : Value) (put : Path → Config) : Except ConfigFault Config :=
  match value.text? with
  | some _ => .ok (put (.ofString value.nameText))
  | none => .error (.of value (.notPath s.name value))

def setTexts (s : Setting) (value : Value) (put : List String → Config) :
    Except ConfigFault Config :=
  match value.texts? with
  | some items => .ok (put items)
  | none => .error (.of value (.notTexts s.name value))

/-- The configuration with one setting given a value. -/
def set (c : Config) (s : Setting) (value : Value) : Except ConfigFault Config :=
  match s with
  | .appRoot => setPath s value fun p => { c with appRoot := p }
  | .rootModule => setPath s value fun p => { c with rootModule := p }
  | .outDir => setPath s value fun p => { c with outDir := p }
  | .ignoredDirectories =>
    setTexts s value fun items => { c with ignoredDirectories := increasing items }
  | .excludedRoutes => setTexts s value fun items => { c with excludedRoutes := increasing items }
  | .exampleLookups => setTexts s value fun items => { c with exampleLookups := items }
  | .sampleSize =>
    match value.int? with
    | some (.ofNat n) => .ok { c with sampleSize := n }
    | _ => .error (.of value (.notSize value))
  | .deterministic =>
    match value with
    | .bool b => .ok { c with deterministic := b }
    | _ => .error (.of value (.notFlag value))

/-- Gives values to the settings that entries name, in their order. -/
def setAll (c : Config) : List (Value × Value) → Except ConfigFault Config
  | [] => .ok c
  | (key, value) :: rest =>
    match Setting.ofKey? key with
    | none => c.setAll rest
    | some s => do (← c.set s value).setAll rest

/-- The keys that name no setting, as a set lists them that is made from the set of all keys. -/
def unknownKeys (entries : List (Value × Value)) : List Value :=
  let unknown := (entries.map (·.1)).filter fun key => (Setting.ofKey? key).isNone
  Value.listed 0 (Value.listed entries.length unknown)

/-- The complaint about keys that name no setting. -/
def unknownKeysFault (keys : List Value) : ConfigFault :=
  match (Value.list keys).texts? with
  | some names => .unknownKeys (increasing names)
  | none =>
    match sorted Value.less keys with
    | .error disorder => .unsortedKeys disorder
    | .ok keys => .unnamedKey (keys.headD .null).kindName

/-- The configuration that a mapping's entries give to a project. -/
def ofMapping (projectRoot : Path) (entries : List (Value × Value)) : Except ConfigFault Config :=
  let unknown := unknownKeys entries
  if unknown.isEmpty then setAll { projectRoot } entries
  else .error (unknownKeysFault unknown)

end Config

/-- Settings given beside a document. -/
structure Overrides where
  projectRoot : Option Path := none
  appRoot : Option Path := none
  rootModule : Option Path := none
  outDir : Option Path := none
  ignoredDirectories : Option (List String) := none
  excludedRoutes : Option (List String) := none
  exampleLookups : Option (List String) := none
  sampleSize : Option Nat := none
  deterministic : Option Bool := none
deriving DecidableEq, Repr

/-- The configuration with the given settings replaced. -/
def Config.override (c : Config) (o : Overrides) : Config :=
  { projectRoot := o.projectRoot.getD c.projectRoot
    appRoot := o.appRoot.getD c.appRoot
    rootModule := o.rootModule.getD c.rootModule
    outDir := o.outDir.getD c.outDir
    ignoredDirectories := (o.ignoredDirectories.map increasing).getD c.ignoredDirectories
    excludedRoutes := (o.excludedRoutes.map increasing).getD c.excludedRoutes
    exampleLookups := o.exampleLookups.getD c.exampleLookups
    sampleSize := o.sampleSize.getD c.sampleSize
    deterministic := o.deterministic.getD c.deterministic }

end RouteInventory
