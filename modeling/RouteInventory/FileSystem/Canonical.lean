import RouteInventory.FileSystem.Unvisited

/-!
# Canonical locations

The location that a path denotes with every symbolic link replaced by what it leads to, whether or
not anything is there. Only a path through a link that leads back to itself has none.
-/

namespace RouteInventory.FileSystem

theorem file_of_locateFrom {fs : FileSystem} {last : Last} {links : Nat} {dir : Location}
    {names : List String} {l : Location} {content : Text.Bytes} {left : Nat}
    (h : fs.locateFrom last links dir names = .ok ⟨l, some (.file content), left⟩) :
    fs.entryAt? l = some (.file content) := by
  fun_induction locateFrom fs last links dir names with
  | case1 => simp at h
  | case2 _ _ _ ih => exact ih h
  | case3 _ _ _ _ _ _ ih => exact ih h
  | case4 => simp at h
  | case5 => simp at h
  | case6 => simp at h
  | case7 _ _ _ _ _ _ _ _ _ ih => exact ih h
  | case8 links dir name _ _ here c he =>
    simp only [Except.ok.injEq, Place.mk.injEq, Option.some.injEq, Entry.file.injEq] at h
    rw [← h.1, he, h.2.1]
  | case9 => simp at h
  | case10 => simp at h
  | case11 => simp at h
  | case12 _ _ _ _ _ _ _ _ _ _ _ _ ih => exact ih h

theorem entry_of_regularFile? {fs : FileSystem} {p : Path} {l : Location}
    (h : fs.regularFile? p = some l) : ∃ content, fs.entryAt? l = some (.file content) := by
  unfold regularFile? at h
  split at h
  · rename_i location content left hloc
    obtain rfl : location = l := by simpa using h
    exact ⟨content, file_of_locateFrom hloc⟩
  · simp at h

theorem mem_files_of_regularFile? {fs : FileSystem} {p : Path} {l : Location}
    (h : fs.regularFile? p = some l) : l ∈ fs.files := by
  obtain ⟨content, hc⟩ := entry_of_regularFile? h
  exact mem_files hc

/-- The canonical location of names below a canonical directory, while the given links are being
replaced; or else the names from the root down of the path that a link leading back to itself leaves,
the link and what stands behind it. -/
def canonicalFrom (fs : FileSystem) (replacing : List Location) (dir : Location)
    (names : List String) : Except (List String) Location :=
  match names with
  | [] => .ok dir
  | name :: rest =>
    if name = ".." then fs.canonicalFrom replacing dir.parent rest
    else
      let here := dir.child name
      match h : fs.entryAt? here with
      | some (.symlink target) =>
        -- the link is met inside of what it stands for
        if hr : here ∈ replacing then .error (here.names ++ rest)
        else
          let path := Path.ofString target
          have : unvisited fs.links (here :: replacing) < unvisited fs.links replacing :=
            unvisited_cons_lt (mem_links h) hr
          match fs.canonicalFrom (here :: replacing) (if path.isAbsolute then .root else dir)
              path.names with
          | .error left => .error (left ++ rest)
          | .ok reached => fs.canonicalFrom replacing reached rest
      | _ => fs.canonicalFrom replacing here rest
termination_by (unvisited fs.links replacing, names.length)

/-- The canonical location of a path. Where a link leads back to itself it is what the text of the
path left over spells; that is an error if the link is still on the way there. -/
def canonical (fs : FileSystem) (p : Path) : Except Location Location :=
  match fs.canonicalFrom [] (if p.isAbsolute then .root else fs.workingDir) p.names with
  | .ok l => .ok l
  | .error left =>
    let spelled : Location := ⟨(Path.mk .slash left).normalize.names⟩
    match fs.locate .followed spelled.path with
    | .error .tooManyLinks => .error spelled
    | _ => .ok spelled

end RouteInventory.FileSystem
