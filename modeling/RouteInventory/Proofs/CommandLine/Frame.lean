import RouteInventory.Proofs.Inventory.Writing

/-!
# What an extraction changes

A run that does not come to artifacts changes nothing. One that succeeds changes the files of the
artifacts and makes the missing directories above them, and nothing else.
-/

namespace RouteInventory

open Text

namespace FileSystem

variable {fs fs' after : FileSystem} {dir : Path} {artifacts : List Artifact} {written : List Path}
  {i : Inventory}

theorem symlink_of_writeAll (h : fs.writeAll dir artifacts = (fs', .ok written)) {k : Location}
    {target : String} (hk : fs'.entryAt? k = some (.symlink target)) :
    fs.entryAt? k = some (.symlink target) := by
  induction artifacts generalizing fs written with
  | nil =>
    cases h
    exact hk
  | cons a rest ih =>
    obtain ⟨next, written', hwrite, hrest, -⟩ := writeAll_cons h
    obtain ⟨place, hloc, hdir, rfl⟩ := write_ok hwrite
    have hroot : place.location ≠ .root := by
      intro hroot
      have he := entryAt?_of_locateFrom hloc hdir
      rw [hroot] at he
      exact hdir he.symm
    have hnext := ih hrest
    rw [entryAt?_insert hroot] at hnext
    split at hnext
    · cases hnext
    · exact hnext

/-- Artifacts that are written where no links are stand in their directory, and everything else is as
it was but for missing directories that have been made. -/
theorem entryAt?_writeArtifacts (h : fs.writeArtifacts i dir = (after, .ok written))
    (hlinks : ∀ name ∈ Artifact.names, (fs.makeDirectories dir).1.isLink (dir.child name) = false) :
    ∃ artifacts l left, i.artifacts = .ok artifacts ∧ after.IsDirectoryAt dir l left ∧
      (∀ a ∈ artifacts, after.entryAt? (l.child a.name) = some (.file (Utf8.encode a.text.toList))) ∧
      ∀ k, (∀ a ∈ artifacts, k ≠ l.child a.name) → SameOrMade fs after dir k := by
  obtain ⟨artifacts, made, hartifacts, hmake, hwrite⟩ := writeArtifacts_ok h
  have hnames := names_of_artifacts hartifacts
  have hname : ∀ a ∈ artifacts, a.name ∈ Artifact.names := fun a ha => hnames ▸ List.mem_map_of_mem ha
  have hplain : ∀ a ∈ artifacts, IsPlain a.name := fun a ha => Artifact.isPlain_of_mem_names (hname a ha)
  have hmakes := makes_makeDirectories fs dir
  rw [hmake] at hmakes hlinks
  obtain ⟨l, left, hdir⟩ := isDirectory_iff.mp hmakes.isDirectory_eq
  have hkeeps := keeps_writeAll hwrite
  have hdir' : after.IsDirectoryAt dir l left := hkeeps.locate rfl hdir
  -- no artifact is a link in the end, since none was when the directory had been made
  have hafter : ∀ a ∈ artifacts, after.isLink (dir.child a.name) = false := by
    refine fun a ha => isLink_child_of_not_symlink (hplain a ha) hdir' fun target he => ?_
    have hlink := isLink_child (hplain a ha) hdir (symlink_of_writeAll hwrite he)
    rw [hlinks a.name (hname a ha)] at hlink
    cases hlink
  refine ⟨artifacts, l, left, hartifacts, hdir', fun a ha => ?_, fun k hk => ?_⟩
  · exact entryAt?_writeAll_of_mem hdir hplain (hnames ▸ Artifact.nodup_names) hwrite hafter ha
  · have hsame := entryAt?_writeAll_of_ne hdir hplain hwrite hafter hk
    exact (hmakes.grown.entry k).of_keeps hkeeps hsame

end FileSystem

namespace CommandLine

/-- What an extraction has to come to before anything is written: a configuration, the inventory that
it leads to, and the artifacts of that. -/
structure Renders (t : Target) (fs : FileSystem) (now : String) (c : Config) (i : Inventory)
    (artifacts : List Artifact) : Prop where
  config : t.config fs = .ok c
  inventory : (c.extract fs now).outcome = .ok i
  artifacts : i.artifacts = .ok artifacts

variable {target : Target} {quiet verbose : Bool} {fs : FileSystem} {now : String} {c : Config}
  {i : Inventory} {line : List String}

theorem run_of_line {task : Task} (h : Request.ofLine line = .ok ⟨task, verbose⟩) (fs : FileSystem)
    (now : String) : (run line fs now).fs = (task.run fs now).fs ∧
      (run line fs now).status = (task.run fs now).status := by
  rw [run, h]
  exact ⟨rfl, rfl⟩

/-- Where there are no artifacts, a run fails and changes nothing. -/
theorem run_of_not_renders (h : ∀ c i artifacts, ¬ Renders target fs now c i artifacts) :
    ((Task.extract target quiet).run fs now).status = 1 ∧
      ((Task.extract target quiet).run fs now).fs = fs := by
  rw [Task.run]
  cases hconfig : target.config fs with
  | error fault => exact ⟨rfl, rfl⟩
  | ok c =>
    dsimp only
    rw [Task.extractOutcome]
    cases hinventory : (c.extract fs now).outcome with
    | error fault => exact ⟨rfl, rfl⟩
    | ok i =>
      dsimp only
      rw [Task.write, FileSystem.writeArtifacts]
      cases hartifacts : i.artifacts with
      | error violation => exact ⟨rfl, rfl⟩
      | ok artifacts => exact absurd ⟨hconfig, hinventory, hartifacts⟩ (h c i artifacts)

theorem fs_report (fs : FileSystem) (log : List LogEntry) (parts : List Report.Part) :
    (Task.report fs log parts).fs = fs := by
  rw [Task.report]
  split <;> rfl

theorem run_of_status (h : ((Task.extract target quiet).run fs now).status = 0) :
    ∃ c i written, target.config fs = .ok c ∧ (c.extract fs now).outcome = .ok i ∧
      fs.writeArtifacts i c.outPath =
        (((Task.extract target quiet).run fs now).fs, .ok written) := by
  rw [Task.run] at h ⊢
  cases hconfig : target.config fs with
  | error fault =>
    rw [hconfig] at h
    cases h
  | ok c =>
    rw [hconfig] at h
    dsimp only at h ⊢
    rw [Task.extractOutcome] at h ⊢
    cases hinventory : (c.extract fs now).outcome with
    | error fault =>
      rw [hinventory] at h
      cases h
    | ok i =>
      rw [hinventory] at h
      dsimp only at h ⊢
      rw [Task.write] at h ⊢
      rcases hwrite : fs.writeArtifacts i c.outPath with ⟨after, fault | written⟩
      · rw [hwrite] at h
        cases h
      · refine ⟨c, i, written, rfl, hinventory, ?_⟩
        rw [hwrite]
        dsimp only
        split
        · rfl
        · rw [fs_report]

/-- A command line for an extraction that does not come to artifacts fails and changes nothing. One that
succeeds has written the artifacts where its configuration says: unless one of them is a link once
their directory has been made, they are the files there, and everything else is as it was but for the
directory and those above it that were missing. For links it makes no difference that the directory
is made, unless double dots lead out of one that was missing. -/
theorem run_extract (hline : Request.ofLine line = .ok ⟨.extract target quiet, verbose⟩)
    (fs : FileSystem) (now : String) :
    ((∀ c i artifacts, ¬ Renders target fs now c i artifacts) →
      (run line fs now).status = 1 ∧ (run line fs now).fs = fs) ∧
    ((run line fs now).status = 0 → ∃ c i artifacts, Renders target fs now c i artifacts ∧
      artifacts.map (·.name) = Artifact.names ∧
      ((∀ name ∈ Artifact.names,
          (fs.makeDirectories c.outPath).1.isLink (c.outPath.child name) = false) →
        ∃ l left, (run line fs now).fs.IsDirectoryAt c.outPath l left ∧
          (∀ a ∈ artifacts, (run line fs now).fs.entryAt? (l.child a.name) =
            some (.file (Utf8.encode a.text.toList))) ∧
          ∀ k, (∀ a ∈ artifacts, k ≠ l.child a.name) →
            FileSystem.SameOrMade fs (run line fs now).fs c.outPath k) ∧
      (fs.Rooted →
        (fs.isDirectory c.outPath = true ∨ ∀ name ∈ c.outPath.names, FileSystem.IsPlain name) →
        ∀ name ∈ Artifact.names, (fs.makeDirectories c.outPath).1.isLink (c.outPath.child name) =
          fs.isLink (c.outPath.child name))) := by
  obtain ⟨hfs, hstatus⟩ := run_of_line hline fs now
  rw [hfs, hstatus]
  refine ⟨run_of_not_renders, fun h => ?_⟩
  obtain ⟨c, i, written, hconfig, hinventory, hwrite⟩ := run_of_status h
  obtain ⟨artifacts, -, hartifacts, -⟩ := FileSystem.writeArtifacts_ok hwrite
  refine ⟨c, i, artifacts, ⟨hconfig, hinventory, hartifacts⟩,
    FileSystem.names_of_artifacts hartifacts, fun hlinks => ?_, fun hrooted hdir name hname => ?_⟩
  · obtain ⟨artifacts', l, left, hartifacts', hdir, hfiles, hframe⟩ :=
      FileSystem.entryAt?_writeArtifacts hwrite hlinks
    obtain rfl := Except.ok.inj (hartifacts.symm.trans hartifacts')
    exact ⟨l, left, hdir, hfiles, hframe⟩
  · exact (FileSystem.at?_makeDirectories hrooted hdir (Artifact.isPlain_of_mem_names hname)).2

/-! ### Runs of a small project -/

/-- The target of a project at the root, with its sources in `app`, its root module in `routes.ts` and
the artifacts somewhere. -/
def tinyTarget (out : Path) : Target where
  project := ⟨.slash, []⟩
  configFile := none
  overrides :=
    { appRoot := some ⟨.relative, ["app"]⟩
      rootModule := some ⟨.relative, ["routes.ts"]⟩
      outDir := some out }

def tinyLine (out : String) : List String :=
  ["--quiet", "--app-root", "app", "--routing-file", "routes.ts", "--out", out, "/"]

theorem eq_ok_of_toOption {α β : Type} {e : Except α β} {b : β} (h : e.toOption = some b) : e = .ok b := by
  cases e with
  | error a => cases h
  | ok b' =>
    cases h
    rfl

theorem config_tinyTarget (out : Path)
    (h : ∀ name ∈ Config.fileNames, fs.isFile (Path.child ⟨.slash, []⟩ name) = false) :
    (tinyTarget out).config fs = .ok { Config.tinyConfig with outDir := out } := by
  have hnone : (Config.fileNames.map (Path.child ⟨.slash, []⟩)).find? fs.isFile = none := by
    refine List.find?_eq_none.mpr fun p hp => ?_
    obtain ⟨name, hname, rfl⟩ := List.mem_map.mp hp
    rw [h name hname]
    exact Bool.false_ne_true
  rw [Target.config, tinyTarget]
  dsimp only
  rw [Config.ofProject, hnone]
  rfl

/-- A quiet run succeeds if the artifacts can be written. -/
theorem run_of_writeArtifacts {after : FileSystem} {written : List Path}
    (hconfig : target.config fs = .ok c) (hinventory : (c.extract fs now).outcome = .ok i)
    (hwrite : fs.writeArtifacts i c.outPath = (after, .ok written)) :
    ((Task.extract target true).run fs now).fs = after ∧
      ((Task.extract target true).run fs now).status = 0 := by
  rw [Task.run, hconfig]
  dsimp only
  rw [Task.extractOutcome, hinventory]
  dsimp only
  rw [Task.write, hwrite]
  exact ⟨rfl, rfl⟩

theorem isFile_of_locate {p : Path} {l : Location} {left : Nat}
    (h : fs.locate .followed p = .ok ⟨l, none, left⟩) : fs.isFile p = false := by
  rw [FileSystem.isFile, FileSystem.regularFile?, h]
  rfl

theorem ofLine_tinyLine : Request.ofLine (tinyLine ".") =
    .ok ⟨.extract (tinyTarget ⟨.relative, []⟩) true, false⟩ := eq_ok_of_toOption (by decide +kernel)

theorem config_tinyFiles : (tinyTarget ⟨.relative, []⟩).config Config.tinyFiles = .ok Config.tinyConfig := by
  refine config_tinyTarget ⟨.relative, []⟩ ?_
  simp only [Config.fileNames, List.forall_mem_cons, List.not_mem_nil, false_imp_iff, implies_true,
    and_true]
  exact ⟨isFile_of_locate (FileSystem.locateFrom_of_locateWithin 2 rfl),
    isFile_of_locate (FileSystem.locateFrom_of_locateWithin 2 rfl),
    isFile_of_locate (FileSystem.locateFrom_of_locateWithin 2 rfl)⟩

/-- A run on the project that has a root module and nothing else writes its artifacts beside that. -/
theorem run_extract_tinyFiles :
    Request.ofLine (tinyLine ".") = .ok ⟨.extract (tinyTarget ⟨.relative, []⟩) true, false⟩ ∧
    (run (tinyLine ".") Config.tinyFiles (Clock.text 0 0)).status = 0 ∧ ∃ i artifacts l left,
      Renders (tinyTarget ⟨.relative, []⟩) Config.tinyFiles (Clock.text 0 0) Config.tinyConfig i artifacts ∧
      (run (tinyLine ".") Config.tinyFiles (Clock.text 0 0)).fs.IsDirectoryAt Config.tinyConfig.outPath
        l left ∧
      (∀ a ∈ artifacts, (run (tinyLine ".") Config.tinyFiles (Clock.text 0 0)).fs.entryAt?
        (l.child a.name) = some (.file (Utf8.encode a.text.toList))) ∧
      ∀ k, (∀ a ∈ artifacts, k ≠ l.child a.name) → FileSystem.SameOrMade Config.tinyFiles
        (run (tinyLine ".") Config.tinyFiles (Clock.text 0 0)).fs Config.tinyConfig.outPath k := by
  obtain ⟨i, hinventory, -, -⟩ := Config.hasTinyModule_tinyFiles.outcome (Clock.text 0 0)
  have hi := Config.consistent_of_extract (Clock.text_ne_empty 0 0) hinventory
  obtain ⟨after, written, hwrite, -⟩ := Config.writeArtifacts_tinyFiles hi
  have hrun := run_of_writeArtifacts config_tinyFiles hinventory hwrite
  have hstatus := (run_of_line ofLine_tinyLine Config.tinyFiles (Clock.text 0 0)).2.trans hrun.2
  obtain ⟨c, i, artifacts, hrenders, -, hframe, -⟩ :=
    (run_extract ofLine_tinyLine Config.tinyFiles (Clock.text 0 0)).2 hstatus
  obtain rfl := Except.ok.inj (config_tinyFiles.symm.trans hrenders.config)
  have hmake : Config.tinyFiles.makeDirectories Config.tinyConfig.outPath = _ :=
    FileSystem.makeDirectories_of_isDirectory
      (FileSystem.isDirectory_iff.mpr ⟨_, _, Config.isDirectoryAt_tinyFiles⟩)
  rw [hmake] at hframe
  obtain ⟨l, left, hdir, hfiles, hrest⟩ := hframe fun name hname =>
    FileSystem.isLink_child_of_not_symlink (Artifact.isPlain_of_mem_names hname)
      Config.isDirectoryAt_tinyFiles (Config.isFree_tinyFiles name).not_symlink
  exact ⟨ofLine_tinyLine, hstatus, i, artifacts, l, left, hrenders, hdir, hfiles, hrest⟩

/-- A project with a directory in which one artifact's name is a link to another's. -/
def crossedFiles : FileSystem where
  entries := [(⟨["routes.ts"]⟩, .file (Utf8.encode "[\x7bpath:'a'\x7d]".toList)), (⟨["x"]⟩, .directory),
    (⟨["x", "routes.json"]⟩, .symlink "routes-full-urls.json")]
  workingDir := .root

def crossedOut : Path := ⟨.relative, ["x", "new", ".."]⟩

def crossedConfig : Config := { Config.tinyConfig with outDir := crossedOut }

theorem ofLine_crossedLine : Request.ofLine (tinyLine "x/new/..") =
    .ok ⟨.extract (tinyTarget crossedOut) true, false⟩ := eq_ok_of_toOption (by decide +kernel)

theorem config_crossedFiles : (tinyTarget crossedOut).config crossedFiles = .ok crossedConfig := by
  refine config_tinyTarget crossedOut ?_
  simp only [Config.fileNames, List.forall_mem_cons, List.not_mem_nil, false_imp_iff, implies_true,
    and_true]
  exact ⟨isFile_of_locate (FileSystem.locateFrom_of_locateWithin 2 rfl),
    isFile_of_locate (FileSystem.locateFrom_of_locateWithin 2 rfl),
    isFile_of_locate (FileSystem.locateFrom_of_locateWithin 2 rfl)⟩

/-- The inventory of the project does not depend on where the artifacts go. -/
theorem outcome_crossedFiles : ∃ i,
    (crossedConfig.extract crossedFiles (Clock.text 0 0)).outcome = .ok i ∧ i.routes = ["a"] := by
  have hmodule : Config.HasTinyModule crossedFiles := ⟨rfl, rfl⟩
  obtain ⟨i, hinventory, hroutes, -⟩ := hmodule.outcome (Clock.text 0 0)
  exact ⟨i, hinventory, hroutes⟩

theorem isDirectoryAt_crossedFiles : (crossedFiles.insert ⟨["x", "new"]⟩ .directory).IsDirectoryAt
    crossedConfig.outPath ⟨["x"]⟩ FileSystem.maxLinks := FileSystem.locateFrom_of_locateWithin 4 rfl

theorem makeDirectories_crossedFiles : crossedFiles.makeDirectories crossedConfig.outPath =
    (crossedFiles.insert ⟨["x", "new"]⟩ .directory, .ok ()) := by
  have hmissing : crossedFiles.locate .kept crossedConfig.outPath = .error .notFound :=
    FileSystem.locateFrom_of_locateWithin 3 rfl
  have habove : crossedFiles.locate .kept crossedConfig.outPath.parent =
      .ok ⟨⟨["x", "new"]⟩, none, FileSystem.maxLinks⟩ := FileSystem.locateFrom_of_locateWithin 3 rfl
  exact FileSystem.makeDirectories_of_parent (by decide) hmissing habove
    (FileSystem.isDirectory_iff.mpr ⟨_, _, isDirectoryAt_crossedFiles⟩)

theorem written_crossedFiles (hi : i.Consistent) :
    (crossedFiles.writeArtifacts i crossedConfig.outPath).2.isOk = true ∧
      (crossedFiles.writeArtifacts i crossedConfig.outPath).1.at?
        (crossedConfig.outPath.child Artifact.routesName) =
          some (.file (Utf8.encode ((Json.strings i.fullUrls).stableText (some 2)).toList)) := by
  have hrooted : (crossedFiles.insert ⟨["x", "new"]⟩ .directory).Rooted := .of_entries rfl (by decide)
  exact FileSystem.writeArtifacts_of_linked hi hrooted makeDirectories_crossedFiles
    isDirectoryAt_crossedFiles (FileSystem.locateFrom_of_locateWithin 6 rfl) (fun _ he => nomatch he)

/-- A directory can have links that its path does not show: where double dots lead out of a directory
that is missing, nothing is found before the run, and what is written afterwards may follow a link. -/
theorem run_crossedFiles :
    Request.ofLine (tinyLine "x/new/..") = .ok ⟨.extract (tinyTarget crossedOut) true, false⟩ ∧
    (run (tinyLine "x/new/..") crossedFiles (Clock.text 0 0)).status = 0 ∧ ∃ i artifacts,
      Renders (tinyTarget crossedOut) crossedFiles (Clock.text 0 0) crossedConfig i artifacts ∧
      (∀ name ∈ Artifact.names, crossedFiles.isLink (crossedConfig.outPath.child name) = false) ∧
      ∃ a ∈ artifacts, (run (tinyLine "x/new/..") crossedFiles (Clock.text 0 0)).fs.at?
        (crossedConfig.outPath.child a.name) ≠ some (.file (Utf8.encode a.text.toList)) := by
  obtain ⟨i, hinventory, hroutes⟩ := outcome_crossedFiles
  have hi := Config.consistent_of_extract (Clock.text_ne_empty 0 0) hinventory
  obtain ⟨hok, hat⟩ := written_crossedFiles hi
  obtain ⟨after, written, hwrite⟩ : ∃ after written,
      crossedFiles.writeArtifacts i crossedConfig.outPath = (after, .ok written) := by
    match hresult : crossedFiles.writeArtifacts i crossedConfig.outPath with
    | (after, .ok written) => exact ⟨after, written, rfl⟩
    | (after, .error fault) =>
      rw [hresult] at hok
      cases hok
  have hrun := run_of_writeArtifacts config_crossedFiles hinventory hwrite
  obtain ⟨hfs, hstatus⟩ := run_of_line ofLine_crossedLine crossedFiles (Clock.text 0 0)
  have hlocate : crossedFiles.locate .kept crossedConfig.outPath = .error .notFound :=
    FileSystem.locateFrom_of_locateWithin 3 rfl
  have hmissing := FileSystem.not_isDirectory_of_error hlocate
  refine ⟨ofLine_crossedLine, hstatus.trans hrun.2, i, _,
    ⟨config_crossedFiles, hinventory, hi.artifacts_eq⟩,
    fun name _ => FileSystem.isLink_child_of_not_isDirectory hmissing name, _, List.mem_cons_self .., ?_⟩
  rw [hwrite] at hat
  rw [hfs, hrun.1, hat, Inventory.fullUrls, hroutes]
  obtain ⟨mode, hmode⟩ := hi.mode
  rw [hmode]
  cases mode <;> decide +kernel

end CommandLine

end RouteInventory
