import RouteInventory.Path.Basic
import RouteInventory.Text.Quoted

/-!
# File systems

A file system is a finite map from locations to files, symbolic links and directories, seen from a
working directory; the root is a directory always. `locate` follows a path through it: double dots
lead to the directory above the one reached, links are replaced by their targets, at most forty of
them. Where a target ends in a slash or a dot there has to be a directory.

There are no permissions, no second names for one file, and no bounds on names, paths and contents:
what they stop is a failure of the medium.
-/

namespace RouteInventory

inductive Entry
  | file (content : Text.Bytes)
  | symlink (target : String)
  | directory
deriving DecidableEq, Repr

structure FileSystem where
  entries : List (Location × Entry)
  workingDir : Location
deriving DecidableEq, Repr

/-- Why an operation on a path fails: by what the path leads to, or because what the file system is kept
on fails, with a message of its own. -/
inductive FileCause
  | notFound
  | notADirectory
  | isADirectory
  | alreadyExists
  | tooManyLinks
  | medium (message : String)
deriving DecidableEq, Repr

namespace FileCause

def number? : FileCause → Option Nat
  | notFound => some 2
  | alreadyExists => some 17
  | notADirectory => some 20
  | isADirectory => some 21
  | tooManyLinks => some 40
  | medium _ => none

def message : FileCause → String
  | notFound => "No such file or directory"
  | alreadyExists => "File exists"
  | notADirectory => "Not a directory"
  | isADirectory => "Is a directory"
  | tooManyLinks => "Too many levels of symbolic links"
  | medium message => message

end FileCause

/-- A failed operation: its cause and the path it was asked for. -/
structure FileFault where
  cause : FileCause
  path : String
deriving DecidableEq, Repr

def FileFault.message (f : FileFault) : String :=
  match f.cause.number? with
  | some number =>
    s!"[Errno {number}] {f.cause.message}: {String.ofList (Text.quoted f.path.toList)}"
  | none => f.cause.message

/-- Where a path leads: a location, what is there, and how many more links may be followed. The last
name may be missing from its directory. -/
structure Place where
  location : Location
  entry : Option Entry
  linksLeft : Nat
deriving DecidableEq, Repr

namespace FileSystem

/-- What is at a location. -/
def entryAt? (fs : FileSystem) (l : Location) : Option Entry :=
  if l = .root then some .directory else fs.entries.lookup l

/-- What becomes of the last name of a path: a link is followed, also to a file that is to be made, or
stands for itself. -/
inductive Last
  | followed
  | created
  | kept
deriving DecidableEq, Repr

/-- How the target of a link ends if it denotes a directory by its spelling: in a dot, or in nothing
behind a slash. -/
def targetEnd (target : String) : List String :=
  match ((Text.fields '/' target.toList).map String.ofList).reverse with
  | "" :: others => if others.find? (· != "") = some "." then ["."] else [""]
  | "." :: _ => ["."]
  | _ => []

/-- The names of the target of a link with its ending. -/
def targetNames (target : String) : List String := (Path.ofString target).names ++ targetEnd target

/-- Follows names from a directory. -/
def locateFrom (fs : FileSystem) (last : Last) (links : Nat) (dir : Location) (names : List String) :
    Except FileCause Place :=
  match names with
  | [] => .ok ⟨dir, some .directory, links⟩
  | name :: rest =>
    if name = ".." then fs.locateFrom last links dir.parent rest
    else if name = "." ∨ name = "" then fs.locateFrom last links dir rest
    -- what ends in a slash is no name for a file that is to be made
    else if last = .created ∧ rest = [""] then .error .isADirectory
    else
      let here := dir.child name
      match fs.entryAt? here with
      | none => if rest = [] then .ok ⟨here, none, links⟩ else .error .notFound
      | some .directory => fs.locateFrom last links here rest
      | some (.file content) =>
        if rest = [] then .ok ⟨here, some (.file content), links⟩ else .error .notADirectory
      | some (.symlink target) =>
        if rest = [] ∧ last = .kept then .ok ⟨here, some (.symlink target), links⟩
        else
          match links with
          | 0 => .error .tooManyLinks
          | left + 1 =>
            let start := if (Path.ofString target).isAbsolute then .root else dir
            fs.locateFrom last left start (targetNames target ++ rest)
termination_by (links, names.length)

def maxLinks : Nat := 40

/-- Follows a path from the working directory. -/
def locate (fs : FileSystem) (last : Last) (p : Path) : Except FileCause Place :=
  fs.locateFrom last maxLinks (if p.isAbsolute then .root else fs.workingDir) p.names

/-- What is where a path leads, links followed. -/
def at? (fs : FileSystem) (p : Path) : Option Entry :=
  match fs.locate .followed p with
  | .ok place => place.entry
  | .error _ => none

def isDirectory (fs : FileSystem) (p : Path) : Bool := fs.at? p == some .directory

/-- The location of the regular file where a path leads. -/
def regularFile? (fs : FileSystem) (p : Path) : Option Location :=
  match fs.locate .followed p with
  | .ok ⟨location, some (.file _), _⟩ => some location
  | _ => none

def isFile (fs : FileSystem) (p : Path) : Bool := (fs.regularFile? p).isSome

/-- The bytes of the file where a path leads. -/
def readBytes (fs : FileSystem) (p : Path) : Except FileFault Text.Bytes :=
  match fs.locate .followed p with
  | .ok ⟨_, some (.file content), _⟩ => .ok content
  | .ok ⟨_, none, _⟩ => .error ⟨.notFound, p.text⟩
  | .ok _ => .error ⟨.isADirectory, p.text⟩
  | .error cause => .error ⟨cause, p.text⟩

/-- The locations of the regular files. -/
def files (fs : FileSystem) : List Location :=
  (fs.entries.map (·.1)).filter fun l => match fs.entryAt? l with
    | some (.file _) => true
    | _ => false

/-- The locations of the symbolic links. -/
def links (fs : FileSystem) : List Location :=
  (fs.entries.map (·.1)).filter fun l => match fs.entryAt? l with
    | some (.symlink _) => true
    | _ => false

theorem mem_keys_of_lookup {α : Type} {entries : List (Location × α)} {l : Location} {e : α}
    (h : entries.lookup l = some e) : l ∈ entries.map (·.1) := by
  induction entries with
  | nil => simp at h
  | cons head rest ih =>
    obtain ⟨k, v⟩ := head
    rw [List.lookup_cons] at h
    by_cases hk : l = k
    · simp [hk]
    · rw [beq_eq_false_iff_ne.mpr hk] at h
      exact List.mem_cons_of_mem _ (ih h)

theorem mem_files {fs : FileSystem} {l : Location} {content : Text.Bytes}
    (h : fs.entryAt? l = some (.file content)) : l ∈ fs.files := by
  refine List.mem_filter.mpr ⟨?_, by rw [h]⟩
  unfold entryAt? at h
  split at h
  · simp at h
  · exact mem_keys_of_lookup h

theorem mem_links {fs : FileSystem} {l : Location} {target : String}
    (h : fs.entryAt? l = some (.symlink target)) : l ∈ fs.links := by
  refine List.mem_filter.mpr ⟨?_, by rw [h]⟩
  unfold entryAt? at h
  split at h
  · simp at h
  · exact mem_keys_of_lookup h

end FileSystem

end RouteInventory
