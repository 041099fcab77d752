import RouteInventory.Config.Basic
import RouteInventory.FileSystem.Reading
import RouteInventory.Yaml.Document

/-!
# Configuration files

A project is configured by a YAML file: the one that is asked for, or else the first in the project's
directory that has one of the usual names. A project without such a file has the defaults.
-/

namespace RouteInventory

/-- Whether a document counts as empty. -/
def Value.isBlank : Value → Bool
  | .null => true
  | .bool b => !b
  | .int n => n == 0
  | .float (.finite _ m _) => m == 0
  | .text s => s.isEmpty
  | .bytes b => b.isEmpty
  | .list items | .tuple items | .set _ items => items.isEmpty
  | .mapping entries => entries.isEmpty
  | _ => false

/-- Why a configuration file is refused. -/
inductive ConfigFileFault
  | unreadable (fault : FileFault)
  | unloadable (fault : Yaml.Fault)
  | refused (fault : ConfigFault)
deriving Repr

namespace ConfigFileFault

def message : ConfigFileFault → String
  | unreadable fault => fault.message
  | unloadable fault => fault.message
  | refused fault => fault.message

end ConfigFileFault

namespace Config

/-- The configuration that a document gives to a project; an empty one gives the defaults. -/
def ofDocument (projectRoot file : Path) (document : Value) : Except ConfigFault Config :=
  if document.isBlank then ofMapping projectRoot []
  else
    match document with
    | .mapping entries => ofMapping projectRoot entries
    | _ => .error (.notMapping file)

/-- The configuration in a file, of the given project or of the one in the directory of the file. -/
def ofFile (fs : FileSystem) (projectRoot : Option Path) (file : Path) :
    Except ConfigFileFault Config :=
  match fs.readPiecewise file with
  | .error fault => .error (.unreadable fault)
  | .ok (text, cutOff) =>
    match Yaml.load text (cutOff.map .undecodable) with
    | .error fault => .error (.unloadable fault)
    | .ok document => (ofDocument (projectRoot.getD file.parent) file document).mapError .refused

/-- The usual names of configuration files, in the order in which they are looked for. -/
def fileNames : List String := [".route-audit.yaml", ".route-audit.yml", "route-audit.yaml"]

/-- The configuration of a project. -/
def ofProject (fs : FileSystem) (root : Path) : Except ConfigFileFault Config :=
  match (fileNames.map root.child).find? fs.isFile with
  | some file => ofFile fs root file
  | none => .ok { projectRoot := root }

end Config

end RouteInventory
