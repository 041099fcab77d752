import RouteInventory.Proofs.FileSystem.Discovered
import RouteInventory.Proofs.Inventory.Reconciliation
import RouteInventory.Proofs.Json.Fields

/-!
# What is sought

A search that passes over links finds exactly the files that a query seeks below a directory
(`IsSought`), each of them once, in the order of the names that lead to them. So it does not matter in which
order a file system lists what it holds.
-/

namespace RouteInventory

/-- Whether a query selects files of a name. -/
structure Query.Selects (q : Query) (name : String) : Prop where
  notIgnored : name ∉ q.ignoredFiles
  included : ∃ suffix ∈ q.includeSuffixes, suffix.toList <:+ name.toList
  notExcluded : ∀ suffix ∈ q.excludeSuffixes, ¬ suffix.toList <:+ name.toList

theorem Query.selects_iff {q : Query} {name : String} : q.selects name = true ↔ q.Selects name := by
  simp only [selects, hasSuffix, Bool.and_eq_true, Bool.not_eq_true', List.any_eq_true,
    List.any_eq_false, List.isSuffixOf_iff_suffix, List.contains_eq_mem, decide_eq_false_iff_not]
  exact ⟨fun ⟨⟨h, h'⟩, h''⟩ => ⟨h, h', h''⟩, fun h => ⟨⟨h.notIgnored, h.included⟩, h.notExcluded⟩⟩

namespace FileSystem

variable {fs fs' : FileSystem} {q : Query} {links : Nat} {dir : Location} {name : String}
  {names rest : List String}

/-- Whether names lead down from a directory to a file that a query seeks: by directories that are not
ignored, none of them a link, to a regular file whose name is selected. -/
def IsSought (fs : FileSystem) (q : Query) (dir : Location) (names : List String) : Prop :=
  ∃ front last content, names = front ++ [last] ∧
    (∀ above name below, front = above ++ name :: below →
      fs.entryAt? ⟨dir.names ++ (above ++ [name])⟩ = some .directory ∧ name ∉ q.ignoredDirectories) ∧
    fs.entryAt? ⟨dir.names ++ names⟩ = some (.file content) ∧ q.Selects last

theorem isSought_singleton_iff : fs.IsSought q dir [name] ↔
    (∃ content, fs.entryAt? (dir.child name) = some (.file content)) ∧ q.Selects name := by
  constructor
  · rintro ⟨front, last, content, heq, -, hfile, hselects⟩
    obtain ⟨rfl, rfl⟩ : front = [] ∧ name = last := by
      cases front with
      | nil => exact ⟨rfl, (List.cons.inj heq).1⟩
      | cons first front => simp at heq
    exact ⟨⟨content, hfile⟩, hselects⟩
  · rintro ⟨⟨content, hfile⟩, hselects⟩
    exact ⟨[], name, content, rfl, fun above n below heq => by simp at heq, hfile, hselects⟩

theorem isSought_cons_iff (hrest : rest ≠ []) : fs.IsSought q dir (name :: rest) ↔
    fs.entryAt? (dir.child name) = some .directory ∧ name ∉ q.ignoredDirectories ∧
      fs.IsSought q (dir.child name) rest := by
  have hbelow (names : List String) : dir.names ++ (name :: names) = (dir.child name).names ++ names := by
    rw [Location.child, List.append_assoc, List.singleton_append]
  constructor
  · rintro ⟨front, last, content, heq, habove, hfile, hselects⟩
    cases front with
    | nil => exact absurd (List.cons.inj heq).2 hrest
    | cons first front =>
      obtain ⟨rfl, rfl⟩ := List.cons.inj heq
      obtain ⟨hdir, hname⟩ := habove [] name front rfl
      refine ⟨hdir, hname, front, last, content, rfl, fun above n below heq => ?_, ?_, hselects⟩
      · obtain ⟨hdir, hn⟩ := habove (name :: above) n below (by rw [heq, List.cons_append])
        rw [List.cons_append, hbelow] at hdir
        exact ⟨hdir, hn⟩
      · rwa [hbelow] at hfile
  · rintro ⟨hdir, hname, front, last, content, rfl, habove, hfile, hselects⟩
    refine ⟨name :: front, last, content, rfl, fun above n below heq => ?_, ?_, hselects⟩
    · cases above with
      | nil =>
        obtain ⟨rfl, -⟩ := List.cons.inj heq
        exact ⟨hdir, hname⟩
      | cons first above =>
        obtain ⟨rfl, rfl⟩ := List.cons.inj heq
        rw [List.cons_append, hbelow]
        exact habove above n below rfl
    · rwa [hbelow]

theorem not_isSought_nil : ¬ fs.IsSought q dir [] := by
  rintro ⟨front, last, content, heq, -⟩
  simp at heq

/-- A search that passes over links finds what is sought. -/
theorem mem_discoverFrom_iff_isSought (hq : q.followLinks = false) :
    names ∈ fs.discoverFrom q links dir ↔ fs.IsSought q dir names := by
  induction names generalizing dir with
  | nil =>
    rw [mem_discoverFrom_iff hq]
    simp [not_isSought_nil]
  | cons name rest ih =>
    rw [mem_discoverFrom_iff hq]
    by_cases hrest : rest = []
    · subst hrest
      rw [isSought_singleton_iff]
      constructor
      · rintro (⟨n, content, hfile, hselects, heq⟩ | ⟨n, below, -, -, hbelow, heq⟩)
        · obtain rfl := (List.cons.inj heq).1
          exact ⟨⟨content, hfile⟩, Query.selects_iff.mp hselects⟩
        · obtain ⟨rfl, rfl⟩ := List.cons.inj heq
          exact absurd (ih.mp hbelow) not_isSought_nil
      · rintro ⟨⟨content, hfile⟩, hselects⟩
        exact .inl ⟨name, content, hfile, Query.selects_iff.mpr hselects, rfl⟩
    · rw [isSought_cons_iff hrest]
      constructor
      · rintro (⟨n, content, -, -, heq⟩ | ⟨n, below, hdir, hname, hbelow, heq⟩)
        · exact absurd (List.cons.inj heq).2 hrest
        · obtain ⟨rfl, rfl⟩ := List.cons.inj heq
          exact ⟨hdir, by simpa using hname, ih.mp hbelow⟩
      · rintro ⟨hdir, hname, hbelow⟩
        exact .inr ⟨name, rest, hdir, by simpa using hname, ih.mpr hbelow, rfl⟩

/-! ### The order -/

theorem pairwise_lt_childNames (fs : FileSystem) (dir : Location) : (fs.childNames dir).Pairwise (· < ·) :=
  ((pairwise_childNames fs dir).and (nodup_childNames fs dir)).imp fun ⟨hle, hne⟩ => lt_of_le_of_ne hle hne

theorem exists_of_mem_discoveredBy (h : names ∈ fs.discoveredBy q links dir name) :
    ∃ rest, names = name :: rest := by
  unfold discoveredBy at h
  split at h
  · split at h
    · cases h
    · obtain ⟨rest, -, rfl⟩ := List.mem_map.mp h
      exact ⟨rest, rfl⟩
  · split at h
    · exact ⟨[], List.mem_singleton.mp h⟩
    · cases h
  · cases h

/-- What is discovered comes in the order of names. -/
theorem pairwise_discoverFrom (hq : q.followLinks = false) (links : Nat) (dir : Location) :
    (fs.discoverFrom q links dir).Pairwise (· < ·) := by
  -- on how much deeper the file system is than the directory
  induction hn : fs.depth - dir.names.length using Nat.strong_induction_on generalizing dir with
  | _ n ih =>
    rw [discoverFrom_eq_flatMap hq, List.pairwise_flatMap]
    refine ⟨fun name hname => ?_, (pairwise_lt_childNames fs dir).imp fun {a b} hab x hx y hy => ?_⟩
    · unfold discoveredBy
      split
      · split
        · exact .nil
        · have hdepth := lt_depth_of_mem_childNames hname
          rw [List.pairwise_map]
          refine (ih _ ?_ (dir.child name) rfl).imp fun h => List.cons_lt_cons_iff.mpr (.inr ⟨rfl, h⟩)
          rw [← hn]
          simp only [Location.child, List.length_append, List.length_singleton]
          omega
      · split
        · exact List.pairwise_singleton _ _
        · exact .nil
      · exact .nil
    · obtain ⟨restx, rfl⟩ := exists_of_mem_discoveredBy hx
      obtain ⟨resty, rfl⟩ := exists_of_mem_discoveredBy hy
      exact List.cons_lt_cons_iff.mpr (.inl hab)

/-! ### The order of entries -/

/-- Whether two file systems hold the same, in whatever order they list it. -/
structure HoldsAlike (fs fs' : FileSystem) : Prop where
  workingDir : fs'.workingDir = fs.workingDir
  entry : ∀ l, fs'.entryAt? l = fs.entryAt? l

theorem holdsAlike_of_perm {entries : List (Location × Entry)} (h : entries.Perm fs.entries)
    (hdistinct : (fs.entries.map (·.1)).Nodup) : HoldsAlike fs { fs with entries := entries } := by
  refine ⟨rfl, fun l => ?_⟩
  rw [entryAt?, entryAt?, Json.lookup_perm h.symm hdistinct]

namespace HoldsAlike

theorem symm (h : HoldsAlike fs fs') : HoldsAlike fs' fs :=
  ⟨h.workingDir.symm, fun l => (h.entry l).symm⟩

theorem keeps (h : HoldsAlike fs fs') : Keeps fs fs' :=
  ⟨h.workingDir, fun hentry _ => (h.entry _).trans hentry⟩

theorem isSought_iff (h : HoldsAlike fs fs') : fs'.IsSought q dir names ↔ fs.IsSought q dir names := by
  simp only [IsSought, h.entry]

end HoldsAlike

/-- What is discovered below a path is what is sought below the directory where it leads. -/
theorem mem_discoverBelow_iff (hq : q.followLinks = false) {root : Path} :
    names ∈ fs.discoverBelow q root ↔
      ∃ dir left, fs.locate .followed root = .ok ⟨dir, some .directory, left⟩ ∧ fs.IsSought q dir names := by
  unfold discoverBelow
  split
  · next dir links hloc =>
    rw [mem_discoverFrom_iff_isSought hq]
    constructor
    · exact fun h => ⟨dir, links, hloc, h⟩
    · rintro ⟨dir', left, hloc', h⟩
      obtain ⟨rfl, -, -⟩ := Place.mk.inj (Except.ok.inj (hloc.symm.trans hloc'))
      exact h
  · next hother =>
    refine ⟨fun h => absurd h List.not_mem_nil, ?_⟩
    rintro ⟨dir, left, hloc, -⟩
    exact absurd hloc (hother dir left)

theorem pairwise_discoverBelow (hq : q.followLinks = false) (root : Path) :
    (fs.discoverBelow q root).Pairwise (· < ·) := by
  unfold discoverBelow
  split
  · exact pairwise_discoverFrom hq _ _
  · exact .nil

/-- What is discovered does not depend on the order in which a file system lists what it holds. -/
theorem HoldsAlike.discoverBelow_eq (h : HoldsAlike fs fs') (hq : q.followLinks = false) (root : Path) :
    fs'.discoverBelow q root = fs.discoverBelow q root := by
  refine eq_of_pairwise_lt (pairwise_discoverBelow hq root) (pairwise_discoverBelow hq root) fun names => ?_
  rw [mem_discoverBelow_iff hq, mem_discoverBelow_iff hq]
  constructor
  · rintro ⟨dir, left, hloc, hsought⟩
    exact ⟨dir, left, h.symm.keeps.locate rfl hloc, h.isSought_iff.mp hsought⟩
  · rintro ⟨dir, left, hloc, hsought⟩
    exact ⟨dir, left, h.keeps.locate rfl hloc, h.isSought_iff.mpr hsought⟩

theorem belowPath_injective (root : Path) : Function.Injective (belowPath root) := by
  intro names names' h
  exact List.append_cancel_left (congrArg Path.names h)

/-- A search that passes over links answers the files that are sought below the directory where its root leads,
each once and in the order of the names below the root, however the file system lists what it holds. -/
theorem discover_sought (fs : FileSystem) {q : Query} (hq : q.followLinks = false) (root : Path) :
    ∃ found : List (List String), fs.discover q root = found.map (belowPath root) ∧
      (fs.discover q root).Nodup ∧ found.Pairwise (· < ·) ∧
      (∀ names, names ∈ found ↔ ∃ dir left,
        fs.locate .followed root = .ok ⟨dir, some .directory, left⟩ ∧ fs.IsSought q dir names) ∧
      ∀ entries : List (Location × Entry), entries.Perm fs.entries → (fs.entries.map (·.1)).Nodup →
        FileSystem.discover { fs with entries := entries } q root = fs.discover q root := by
  have hpairs : (fs.discoverBelow q root).Pairwise (· < ·) := pairwise_discoverBelow hq root
  refine ⟨fs.discoverBelow q root, rfl, ?_, hpairs, fun names => mem_discoverBelow_iff hq,
    fun entries hperm hdistinct => ?_⟩
  · exact List.Nodup.map (belowPath_injective root) (hpairs.imp fun hlt => ne_of_lt hlt)
  · rw [discover, discover, (holdsAlike_of_perm hperm hdistinct).discoverBelow_eq hq root]

/-- A directory with a script and a directory of nearly the same name, a link and build output. -/
def soughtFiles : FileSystem where
  entries := [(⟨["src"]⟩, .directory), (⟨["src", "a.ts"]⟩, .file []), (⟨["src", "dist"]⟩, .directory),
    (⟨["src", "dist", "b.ts"]⟩, .file []), (⟨["src", "link.ts"]⟩, .symlink "a.ts"),
    (⟨["src", "a"]⟩, .directory), (⟨["src", "a", "z.ts"]⟩, .file [])]
  workingDir := .root

theorem locate_soughtFiles :
    soughtFiles.locate .followed (.ofString "src") = .ok ⟨⟨["src"]⟩, some .directory, 40⟩ := by
  rw [show Path.ofString "src" = ⟨.relative, ["src"]⟩ by decide]
  exact locateFrom_of_locateWithin 2 rfl

theorem isSought_soughtFiles :
    soughtFiles.IsSought {} ⟨["src"]⟩ ["a", "z.ts"] ∧ soughtFiles.IsSought {} ⟨["src"]⟩ ["a.ts"] ∧
      ¬ soughtFiles.IsSought {} ⟨["src"]⟩ ["link.ts"] ∧
      ¬ soughtFiles.IsSought {} ⟨["src"]⟩ ["dist", "b.ts"] := by
  refine ⟨(isSought_cons_iff (by simp)).mpr ⟨rfl, by decide, isSought_singleton_iff.mpr ⟨⟨[], rfl⟩, ?_⟩⟩,
    isSought_singleton_iff.mpr ⟨⟨[], rfl⟩, ?_⟩, fun h => ?_, fun h => ?_⟩
  · exact Query.selects_iff.mp (by decide)
  · exact Query.selects_iff.mp (by decide)
  · obtain ⟨content, hfile⟩ := (isSought_singleton_iff.mp h).1
    cases hfile
  · exact absurd ((isSought_cons_iff (by simp)).mp h).2.1 (by decide)

theorem discover_soughtFiles : ({} : Query).followLinks = false ∧
    ∃ found : List (List String),
      soughtFiles.discover {} (.ofString "src") = found.map (belowPath (.ofString "src")) ∧
      found.Pairwise (· < ·) ∧ ["a", "z.ts"] ∈ found ∧ ["a.ts"] ∈ found ∧ ["link.ts"] ∉ found ∧
      ["dist", "b.ts"] ∉ found ∧
      FileSystem.discover { soughtFiles with entries := soughtFiles.entries.reverse } {} (.ofString "src") =
        soughtFiles.discover {} (.ofString "src") := by
  obtain ⟨found, hfound, -, hpairs, hmem, hlisting⟩ :=
    discover_sought soughtFiles (q := {}) rfl (.ofString "src")
  obtain ⟨hinner, hscript, hlink, hignored⟩ := isSought_soughtFiles
  have hsought {names : List String} (h : names ∈ found) : soughtFiles.IsSought {} ⟨["src"]⟩ names := by
    obtain ⟨dir, left, hloc, h⟩ := (hmem names).mp h
    rw [locate_soughtFiles] at hloc
    cases hloc
    exact h
  exact ⟨rfl, found, hfound, hpairs, (hmem _).mpr ⟨_, _, locate_soughtFiles, hinner⟩,
    (hmem _).mpr ⟨_, _, locate_soughtFiles, hscript⟩, fun h => hlink (hsought h),
    fun h => hignored (hsought h), hlisting _ (List.reverse_perm _) (by decide)⟩

end FileSystem

end RouteInventory
