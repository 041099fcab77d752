import RouteInventory.CommandLine.Outcome
import RouteInventory.Inventory.Clock
import Std.Time.DateTime.Timestamp

/-!
# The program

Carries out a command line on the disk. A run sees the working directory and the places that words of
its command line name; afterwards, the files that it changed are written back.
-/

namespace RouteInventory.Disk

def locationOf (place : String) : Location := ⟨(Path.ofString place).names⟩

/-- Adds what is at a place of the disk, and below it, unless it is there already. Links lead to where
they end; those that lead nowhere and what cannot be read are left out. -/
partial def load (fs : FileSystem) (e : IO.FS.DirEntry) : IO FileSystem := do
  let l := locationOf e.path.toString
  if fs.entries.any (·.1 == l) then return fs
  try
    match (← e.path.symlinkMetadata).type with
    | .dir =>
      let children ← e.path.readDir
      children.foldlM load { fs with entries := (l, .directory) :: fs.entries }
    | .file =>
      let content ← IO.FS.readBinFile e.path
      return { fs with entries := (l, .file content.toList) :: fs.entries }
    | .symlink =>
      let target ← IO.FS.realPath e.path
      load { fs with entries := (l, .symlink target.toString) :: fs.entries } ⟨target, ""⟩
    | .other => return fs
  catch _ => return fs

/-- Adds the directories above everything that is there. -/
def addParents (fs : FileSystem) : FileSystem :=
  fs.entries.foldl (fun fs (l, _) =>
    (List.range l.names.length).foldl (fun fs depth =>
      let above : Location := ⟨l.names.take depth⟩
      if (fs.entryAt? above).isSome then fs else fs.insert above .directory) fs) fs

/-- The part of a word behind its equals sign, or the whole word. -/
def placeIn (word : String) : String :=
  match Text.bodyUpTo '=' (fun _ => false) word.toList with
  | some (_, value) => String.ofList value
  | none => word

/-- The working directory and what is below it or is named by a word. -/
def snapshot (line : List String) : IO FileSystem := do
  let here ← IO.currentDir
  let mut fs : FileSystem := ⟨[], locationOf here.toString⟩
  fs ← load fs ⟨here, ""⟩
  for word in line do
    try
      let place ← IO.FS.realPath (placeIn word)
      fs ← load fs ⟨place, ""⟩
    catch _ => pure ()
  return addParents fs

/-- Writes to the disk what was changed. -/
def save (before after : FileSystem) : IO Unit := do
  for (l, e) in after.entries do
    if before.entryAt? l != some e then
      match e with
      | .directory => IO.FS.createDirAll l.text
      | .file content => IO.FS.writeBinFile l.text ⟨content.toArray⟩
      | .symlink _ => pure ()

/-- The text of the present moment. -/
def now : IO String := do
  let moment ← Std.Time.Timestamp.now
  return Clock.text moment.val.second.val.toNat (moment.val.nano.val.toNat / 1000)

end RouteInventory.Disk

open RouteInventory in
/-- Runs the program on the words of its command line. -/
def main (line : List String) : IO UInt32 := do
  let o ← match CommandLine.Request.ofLine line with
    | .error stop => pure (stop.outcome ⟨[], .root⟩)
    | .ok request =>
      let before ← Disk.snapshot line
      let o := request.run before (← Disk.now)
      Disk.save before o.fs
      pure o
  (← IO.getStdout).putStr o.output
  (← IO.getStderr).putStr o.errors
  return o.status.toUInt32
