import RouteInventory.FileSystem.Unvisited

/-!
# Discovery

The files below a directory whose names a query selects, depth first and in the order of the names
inside each directory. Symbolic links are passed over unless the query follows them; then the number
of links on one way from the working directory is bounded as for any path.
-/

namespace RouteInventory

/-- Which files to select, and which directories not to enter. -/
structure Query where
  includeSuffixes : List String := [".ts"]
  excludeSuffixes : List String := []
  ignoredDirectories : List String :=
    [".git", ".angular", ".cache", "node_modules", "dist", "build", "coverage"]
  ignoredFiles : List String := [".DS_Store"]
  followLinks : Bool := false
deriving Repr

/-- Directories with dependencies, build output and version control data. -/
def Query.defaultIgnored : List String := ({} : Query).ignoredDirectories

namespace Query

def hasSuffix (name suffix : String) : Bool := suffix.toList.isSuffixOf name.toList

/-- Whether a file with a name is selected. -/
def selects (q : Query) (name : String) : Bool :=
  !q.ignoredFiles.contains name && q.includeSuffixes.any (hasSuffix name) &&
    !q.excludeSuffixes.any (hasSuffix name)

end Query

namespace FileSystem

/-- The name of a location directly below a directory. -/
def childName? (dir l : Location) : Option String :=
  match l.names.getLast? with
  | some name => if dir.child name = l then some name else none
  | none => none

/-- The names in a directory, in increasing order. -/
def childNames (fs : FileSystem) (dir : Location) : List String :=
  ((fs.entries.filterMap fun (l, _) => childName? dir l).eraseDups).mergeSort fun a b => a ≤ b

/-- The greatest number of names in a location. -/
def depth (fs : FileSystem) : Nat :=
  fs.entries.foldr (fun (l, _) deepest => max l.names.length deepest) 0

theorem length_le_depth {fs : FileSystem} {l : Location} {e : Entry} (h : (l, e) ∈ fs.entries) :
    l.names.length ≤ fs.depth := by
  unfold depth
  generalize fs.entries = entries at h
  induction entries with
  | nil => simp at h
  | cons head rest ih =>
    simp only [List.foldr_cons]
    rcases List.mem_cons.mp h with rfl | h
    · exact Nat.le_max_left ..
    · exact Nat.le_trans (ih h) (Nat.le_max_right ..)

theorem lt_depth_of_mem_childNames {fs : FileSystem} {dir : Location} {name : String}
    (h : name ∈ fs.childNames dir) : dir.names.length < fs.depth := by
  have h' : name ∈ fs.entries.filterMap fun (l, _) => childName? dir l := by
    simpa [childNames, List.mem_mergeSort, List.mem_eraseDups] using h
  obtain ⟨⟨l, e⟩, hmem, hname⟩ := List.mem_filterMap.mp h'
  have := length_le_depth hmem
  simp only [childName?] at hname
  split at hname
  · split at hname
    · rename_i hl
      rw [← hl] at this
      simp only [Location.child, List.length_append, List.length_singleton] at this
      omega
    · simp at hname
  · simp at hname

/-- The selected files below a directory, as the names that lead there from it. -/
def discoverFrom (fs : FileSystem) (q : Query) (links : Nat) (dir : Location) :
    List (List String) :=
  (fs.childNames dir).attach.flatMap fun ⟨name, hname⟩ =>
    have := lt_depth_of_mem_childNames hname
    have : fs.depth - (dir.child name).names.length < fs.depth - dir.names.length := by
      simp only [Location.child, List.length_append, List.length_singleton]
      omega
    match fs.entryAt? (dir.child name) with
    | some .directory =>
      if q.ignoredDirectories.contains name then []
      else (fs.discoverFrom q links (dir.child name)).map (name :: ·)
    | some (.file _) => if q.selects name then [[name]] else []
    | some (.symlink target) =>
      if q.followLinks then
        match links with
        | 0 => []
        | left + 1 =>
          let start := if (Path.ofString target).isAbsolute then .root else dir
          match fs.locateFrom .followed left start (targetNames target) with
          | .ok ⟨reached, some .directory, remaining⟩ =>
            if q.ignoredDirectories.contains name then []
            else
              -- `remaining` is the less of the two; the minimum is there for the termination
              have : min remaining left < left + 1 := by omega
              (fs.discoverFrom q (min remaining left) reached).map (name :: ·)
          | .ok ⟨_, some (.file _), _⟩ => if q.selects name then [[name]] else []
          | _ => []
      else []
    | none => []
termination_by (links, fs.depth - dir.names.length)

/-- The selected files below the directory where a path leads, as the names below it. -/
def discoverBelow (fs : FileSystem) (q : Query) (root : Path) : List (List String) :=
  match fs.locate .followed root with
  | .ok ⟨dir, some .directory, links⟩ => fs.discoverFrom q links dir
  | _ => []

/-- The path of names below another. -/
def belowPath (root : Path) (names : List String) : Path :=
  { root with names := root.names ++ names }

/-- The selected files below the directory where a path leads, each as a path beginning with it. -/
def discover (fs : FileSystem) (q : Query) (root : Path) : List Path :=
  (fs.discoverBelow q root).map (belowPath root)

end FileSystem

end RouteInventory
