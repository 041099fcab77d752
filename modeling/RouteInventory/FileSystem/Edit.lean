import RouteInventory.FileSystem.Basic

/-!
# Changing files

Writing replaces the whole content of the file where a path leads, or makes that file in an existing
directory. Directories are made one at a time or with all the missing ones above them. An operation
answers the file system it leaves behind together with its outcome, since a failed one may have come
half way: what the files are kept on can fail before anything is changed, or once a file is open and
therefore empty, with no more than a beginning of the new content stored.
-/

namespace RouteInventory.FileSystem

/-- Sets what is at a location, in its old place in the list if there is one. -/
def setEntry (l : Location) (e : Entry) : List (Location × Entry) → List (Location × Entry)
  | [] => [(l, e)]
  | (k, v) :: rest => if k = l then (l, e) :: rest else (k, v) :: setEntry l e rest

def insert (fs : FileSystem) (l : Location) (e : Entry) : FileSystem :=
  { fs with entries := setEntry l e fs.entries }

theorem lookup_setEntry (l k : Location) (e : Entry) (entries : List (Location × Entry)) :
    (setEntry l e entries).lookup k = if k = l then some e else entries.lookup k := by
  induction entries with
  | nil => by_cases h : k = l <;>
      simp [setEntry, List.lookup_cons, List.lookup_nil, h, beq_eq_false_iff_ne.mpr]
  | cons head rest ih =>
    obtain ⟨a, v⟩ := head
    rw [setEntry]
    by_cases ha : a = l <;> by_cases hk : k = l <;> by_cases hka : k = a <;>
      simp_all [List.lookup_cons, beq_eq_false_iff_ne.mpr]

/-- What is at a location after something has been put at another or the same one. -/
theorem entryAt?_insert {fs : FileSystem} {l k : Location} {e : Entry} (hl : l ≠ .root) :
    (fs.insert l e).entryAt? k = if k = l then some e else fs.entryAt? k := by
  unfold entryAt? insert
  by_cases hk : k = .root
  · subst hk
    simp [Ne.symm hl]
  · simp only [hk, if_false, lookup_setEntry]

/-- Takes away what is at a location and everything below it. -/
def erase (fs : FileSystem) (l : Location) : FileSystem :=
  { fs with entries := fs.entries.filter fun (k, _) => !l.names.isPrefixOf k.names }

/-- What a file system is kept on: whether it refuses to open a file for writing or to make a directory
where a path leads, and whether it fails while a file is stored, after how many bytes. -/
structure Medium where
  refuses : Path → Option String
  cuts : Path → Option (Nat × String)

/-- A medium that never fails. -/
def Medium.reliable : Medium where
  refuses _ := none
  cuts _ := none

/-- Writes a file where a path leads. Opening it for that empties it. -/
def write (fs : FileSystem) (p : Path) (content : Text.Bytes) (medium : Medium := .reliable) :
    FileSystem × Except FileFault Unit :=
  match fs.locate .created p with
  | .ok ⟨_, some .directory, _⟩ => (fs, .error ⟨.isADirectory, p.text⟩)
  | .ok ⟨l, _, _⟩ =>
    match medium.refuses p, medium.cuts p with
    | some message, _ => (fs, .error ⟨.medium message, p.text⟩)
    | none, some (kept, message) =>
      (fs.insert l (.file (content.take kept)), .error ⟨.medium message, p.text⟩)
    | none, none => (fs.insert l (.file content), .ok ())
  | .error cause => (fs, .error ⟨cause, p.text⟩)

/-- Makes a directory in an existing one. -/
def makeDirectory (fs : FileSystem) (p : Path) (medium : Medium := .reliable) :
    FileSystem × Except FileFault Unit :=
  match fs.locate .kept p with
  | .ok ⟨l, none, _⟩ =>
    match medium.refuses p with
    | some message => (fs, .error ⟨.medium message, p.text⟩)
    | none => (fs.insert l .directory, .ok ())
  | .ok _ => (fs, .error ⟨.alreadyExists, p.text⟩)
  | .error cause => (fs, .error ⟨cause, p.text⟩)

/-- Accepts a failure to make a directory that is there. -/
def acceptExisting (p : Path) (made : FileSystem × Except FileFault Unit) :
    FileSystem × Except FileFault Unit :=
  match made with
  | (fs, .error fault) => if fs.isDirectory p then (fs, .ok ()) else (fs, .error fault)
  | done => done

/-- Makes a directory and the missing ones above it, unless it is there already. -/
def makeDirectories (fs : FileSystem) (p : Path) (medium : Medium := .reliable) :
    FileSystem × Except FileFault Unit :=
  match fs.makeDirectory p medium with
  | (fs, .error ⟨.notFound, text⟩) =>
    if h : p.names = [] then (fs, .error ⟨.notFound, text⟩)
    else
      have : p.parent.names.length < p.names.length := by
        have := List.length_pos_iff.mpr h
        simp only [Path.parent, List.length_dropLast]
        omega
      match makeDirectories fs p.parent medium with
      | (fs, .ok ()) =>
        match fs.makeDirectory p medium with
        | (fs, .error ⟨.notFound, text⟩) => (fs, .error ⟨.notFound, text⟩)
        | made => acceptExisting p made
      | failed => failed
  | made => acceptExisting p made
termination_by p.names.length

end RouteInventory.FileSystem
