import RouteInventory.FileSystem.Edit
import RouteInventory.Inventory.Record
import RouteInventory.Schema.Record

/-!
# Artifacts

The three files that hold an inventory: its routes, their addresses and its complete record. Nothing
is written of an inventory whose record is not valid.
-/

namespace RouteInventory

structure Artifact where
  name : String
  text : String
deriving DecidableEq, Repr

namespace Artifact

def routesName : String := "routes.json"

def urlsName : String := "routes-full-urls.json"

def recordName : String := "routes-complete.json"

/-- What the artifact with a name holds. -/
def description (name : String) : String :=
  if name = routesName then "Clean route paths"
  else if name = urlsName then "URLs with hash prefix"
  else if name = recordName then "Complete metadata and stats"
  else ""

end Artifact

/-- Why artifacts are not written. -/
inductive ArtifactFault
  | invalid (violation : Schema.Violation)
  | file (fault : FileFault)

namespace ArtifactFault

def message : ArtifactFault → String
  | invalid violation => violation.message
  | file fault => fault.message

end ArtifactFault

namespace Inventory

/-- The artifacts of an inventory, if its record is valid. -/
def artifacts (i : Inventory) : Except Schema.Violation (List Artifact) :=
  match Schema.recordSchema.validate i.record with
  | .error violation => .error violation
  | .ok () => .ok [
      ⟨Artifact.routesName, (Json.strings i.routes).stableText (some 2)⟩,
      ⟨Artifact.urlsName, (Json.strings i.fullUrls).stableText (some 2)⟩,
      ⟨Artifact.recordName, i.record.stableText (some 2)⟩]

end Inventory

namespace FileSystem

/-- Writes files with the given texts into a directory, up to the first that fails. -/
def writeAll (fs : FileSystem) (dir : Path) (artifacts : List Artifact)
    (medium : Medium := .reliable) : FileSystem × Except FileFault (List Path) :=
  match artifacts with
  | [] => (fs, .ok [])
  | a :: rest =>
    match fs.write (dir.child a.name) (Text.Utf8.encode a.text.toList) medium with
    | (fs, .error fault) => (fs, .error fault)
    | (fs, .ok ()) =>
      match fs.writeAll dir rest medium with
      | (fs, .error fault) => (fs, .error fault)
      | (fs, .ok written) => (fs, .ok (dir.child a.name :: written))

/-- Writes an inventory's artifacts into a directory, which is made if it is missing. -/
def writeArtifacts (fs : FileSystem) (i : Inventory) (dir : Path) (medium : Medium := .reliable) :
    FileSystem × Except ArtifactFault (List Path) :=
  match i.artifacts with
  | .error violation => (fs, .error (.invalid violation))
  | .ok artifacts =>
    match fs.makeDirectories dir medium with
    | (fs, .error fault) => (fs, .error (.file fault))
    | (fs, .ok ()) =>
      match fs.writeAll dir artifacts medium with
      | (fs, .error fault) => (fs, .error (.file fault))
      | (fs, .ok written) => (fs, .ok written)

end FileSystem

end RouteInventory
