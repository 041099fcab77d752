import RouteInventory.Proofs.CommandLine.Frame
import RouteInventory.Proofs.Inventory.Unaffected

/-!
# Running again

Where there are no links, a deterministic extraction that succeeded finds the same when it is run again on what
it left: the same configuration, the same inventory, and its artifacts as it would write them. So it succeeds
again and changes nothing (`run_again`).
-/

namespace RouteInventory

open Text

namespace FileSystem

variable {fs after : FileSystem} {dir : Path} {artifacts : List Artifact} {written : List Path}
  {i : Inventory} {l : Location} {left : Nat}

/-! ### What a run leaves -/

/-- The places of the artifacts in a directory. -/
def IsArtifactOf (workingDir : Location) (dir : Path) (l : Location) : Prop :=
  ∃ name ∈ Artifact.names, l = (dir.child name).lexical workingDir

theorem ne_up_of_mem_names {name : String} (h : name ∈ Artifact.names) : name ≠ ".." :=
  (Artifact.isPlain_of_mem_names h).1

theorem areArtifacts_of (workingDir : Location) (dir : Path) :
    Artifact.AreArtifacts (IsArtifactOf workingDir dir) := by
  rintro l ⟨name, hname, rfl⟩
  refine ⟨name, hname, ?_⟩
  rw [Path.lexical_child (ne_up_of_mem_names hname), Location.child, List.getLast?_concat]

theorem isName_of_mem_names {name : String} (h : name ∈ Artifact.names) : IsName name := by
  have hall : ∀ name ∈ Artifact.names, IsName name := by decide
  exact hall name h

/-- Where there are no links, writing artifacts adds them and the missing directories above them. -/
theorem extends_writeArtifacts (hfs : fs.Straight) (hs : dir.IsSpelled) (hdots : ".." ∉ dir.names)
    (h : fs.writeArtifacts i dir = (after, .ok written)) :
    Extends (IsArtifactOf fs.workingDir dir) fs after ∧
      ∃ artifacts l left, i.artifacts = .ok artifacts ∧ after.IsDirectoryAt dir l left ∧
        ∀ a ∈ artifacts, after.entryAt? (l.child a.name) = some (.file (Utf8.encode a.text.toList)) := by
  obtain ⟨artifacts, made, hartifacts, hmake, hwrite⟩ := writeArtifacts_ok h
  have hnames := names_of_artifacts hartifacts
  have hname : ∀ a ∈ artifacts, a.name ∈ Artifact.names := fun a ha => hnames ▸ List.mem_map_of_mem ha
  have hmakes := makes_makeDirectories fs dir
  rw [hmake] at hmakes
  have hmade := hmakes.straight hfs hs
  have hafter := straight_writeAll hwrite hmade hs fun a ha => isName_of_mem_names (hname a ha)
  have hkeeps := hmakes.grown.keeps.trans (keeps_writeAll hwrite)
  obtain ⟨artifacts', l, left, hartifacts', hdir, hfiles, hframe⟩ := entryAt?_writeArtifacts h
    fun name _ => by rw [hmake]; exact hmade.isLink_eq_false _
  obtain rfl := Except.ok.inj (hartifacts.symm.trans hartifacts')
  -- the directory of the artifacts is the place that its path spells
  have hl : l = dir.lexical fs.workingDir := by
    have hloc := hafter.locate_followed hs (Path.isNormal_of_not_mem hdots)
    rw [hdir, hkeeps.workingDir] at hloc
    exact hloc.1
  have hplace {name : String} (hname : name ∈ Artifact.names) :
      (dir.child name).lexical fs.workingDir = l.child name := by
    rw [Path.lexical_child (ne_up_of_mem_names hname), hl]
  refine ⟨⟨hfs, hafter, hkeeps, ?_, fun {k} hk => ?_⟩, artifacts, l, left, hartifacts, hdir, hfiles⟩
  · rintro k ⟨name, hname, rfl⟩
    obtain ⟨a, ha, rfl⟩ := List.mem_map.mp (hnames ▸ hname)
    rw [hplace hname]
    exact ⟨_, hfiles a ha⟩
  · refine (hframe k fun a ha heq => hk ⟨a.name, hname a ha, ?_⟩).imp_right
      fun hnew => ⟨hnew.1, hnew.2.1⟩
    rw [hplace (hname a ha), heq]

/-! ### Writing again -/

theorem setEntry_of_lookup {e : Entry} {entries : List (Location × Entry)}
    (h : entries.lookup l = some e) : setEntry l e entries = entries := by
  induction entries with
  | nil => cases h
  | cons head rest ih =>
    obtain ⟨k, v⟩ := head
    rw [setEntry]
    by_cases hk : k = l
    · subst hk
      rw [List.lookup_cons_self] at h
      rw [if_pos rfl, Option.some.inj h]
    · rw [List.lookup_cons, beq_eq_false_iff_ne.mpr (Ne.symm hk)] at h
      rw [if_neg hk, ih h]

theorem insert_child_of_entry {name : String} {e : Entry} (h : fs.entryAt? (l.child name) = some e) :
    fs.insert (l.child name) e = fs := by
  rw [entryAt?_child_eq_lookup] at h
  rw [insert, setEntry_of_lookup h]

theorem writeAll_again (hdir : fs.IsDirectoryAt dir l left) (hplain : ∀ a ∈ artifacts, IsPlain a.name)
    (h : ∀ a ∈ artifacts, fs.entryAt? (l.child a.name) = some (.file (Utf8.encode a.text.toList))) :
    fs.writeAll dir artifacts = (fs, .ok (artifacts.map (dir.child ·.name))) := by
  induction artifacts with
  | nil => rfl
  | cons a rest ih =>
    obtain ⟨hpa, hprest⟩ := List.forall_mem_cons.mp hplain
    obtain ⟨ha, hrest⟩ := List.forall_mem_cons.mp h
    have hwrite := write_child hpa hdir (fun target => by rw [ha]; simp) (by rw [ha]; simp)
      (Utf8.encode a.text.toList)
    rw [insert_child_of_entry ha] at hwrite
    rw [writeAll, hwrite]
    simp only [ih hprest hrest, List.map_cons]

theorem written_of_writeAll (h : fs.writeAll dir artifacts = (after, .ok written)) :
    written = artifacts.map (dir.child ·.name) := by
  induction artifacts generalizing fs written with
  | nil =>
    cases h
    rfl
  | cons a rest ih =>
    obtain ⟨next, written', -, hrest, rfl⟩ := writeAll_cons h
    rw [ih hrest, List.map_cons]

/-- Artifacts that are there are written again without a change. -/
theorem writeArtifacts_again (h : fs.writeArtifacts i dir = (after, .ok written))
    (hartifacts : i.artifacts = .ok artifacts) (hdir : after.IsDirectoryAt dir l left)
    (hfiles : ∀ a ∈ artifacts, after.entryAt? (l.child a.name) =
      some (.file (Utf8.encode a.text.toList))) :
    after.writeArtifacts i dir = (after, .ok written) := by
  obtain ⟨artifacts', made, hartifacts', -, hwrite⟩ := writeArtifacts_ok h
  obtain rfl := Except.ok.inj (hartifacts.symm.trans hartifacts')
  have hplain : ∀ a ∈ artifacts, IsPlain a.name := fun a ha =>
    Artifact.isPlain_of_mem_names (names_of_artifacts hartifacts ▸ List.mem_map_of_mem ha)
  rw [writeArtifacts, hartifacts]
  simp only [makeDirectories_of_isDirectory (isDirectory_iff.mpr ⟨l, left, hdir⟩),
    writeAll_again hdir hplain hfiles, written_of_writeAll hwrite]

end FileSystem

/-! ### Configuring again -/

namespace Config

variable {fs fs' : FileSystem} {added : Location → Prop} {root file : Path} {c : Config}

theorem ofFile_of_extends (h : FileSystem.Extends added fs fs') (hs : file.IsSpelled) (hn : file.IsNormal)
    (hnot : ¬ added (file.lexical fs.workingDir)) (hc : ofFile fs root file = .ok c) :
    ofFile fs' root file = .ok c := by
  unfold ofFile FileSystem.readPiecewise at hc ⊢
  cases hread : fs.readBytes file with
  | error fault =>
    rw [hread] at hc
    cases hc
  | ok content =>
    rw [hread] at hc
    rwa [(h.readBytes_eq_ok_iff hs hn hnot).mpr hread]

theorem ofProject_of_extends (h : FileSystem.Extends added fs fs') (hadded : Artifact.AreArtifacts added)
    (hs : root.IsSpelled) (hn : root.IsNormal) (hc : ofProject fs root = .ok c) :
    ofProject fs' root = .ok c := by
  have hnames : ∀ name ∈ fileNames, IsName name ∧ name ≠ ".." ∧ name ∉ Artifact.names := by decide
  have hfile : ∀ file ∈ fileNames.map root.child,
      file.IsSpelled ∧ file.IsNormal ∧ ¬ added (file.lexical fs.workingDir) := by
    intro file hfile
    obtain ⟨name, hname, rfl⟩ := List.mem_map.mp hfile
    obtain ⟨hspelled, hdots, hother⟩ := hnames name hname
    refine ⟨hs.child hspelled, hn.child hdots, ?_⟩
    rw [Path.lexical_child hdots]
    exact hadded.not_child hother _
  have hfind : (fileNames.map root.child).find? fs'.isFile =
      (fileNames.map root.child).find? fs.isFile := by
    refine List.find?_congr fun file hmem => ?_
    obtain ⟨hspelled, hnormal, hnot⟩ := hfile file hmem
    exact h.isFile_eq hspelled hnormal hnot
  unfold ofProject at hc ⊢
  rw [hfind]
  cases hfound : (fileNames.map root.child).find? fs.isFile with
  | none =>
    rw [hfound] at hc
    exact hc
  | some file =>
    rw [hfound] at hc
    obtain ⟨hspelled, hnormal, hnot⟩ := hfile file (List.mem_of_find?_eq_some hfound)
    exact ofFile_of_extends h hspelled hnormal hnot hc

end Config

namespace CommandLine

variable {target : Target} {quiet verbose : Bool} {fs fs' : FileSystem} {now : String} {c : Config}
  {i : Inventory} {line : List String}

theorem config_of_extends {added : Location → Prop} (h : FileSystem.Extends added fs fs')
    (hadded : Artifact.AreArtifacts added) (ht : target.IsSpelled) (hproject : ".." ∉ target.project.names)
    (hfile : ∀ file ∈ target.configFile, ".." ∉ file.names ∧ ¬ added (file.lexical fs.workingDir))
    (hc : target.config fs = .ok c) : target.config fs' = .ok c := by
  obtain ⟨found, hfound, rfl⟩ := found_of_config hc
  have hagain : target.found fs' = .ok found := by
    unfold Target.found at hfound ⊢
    cases hasked : target.configFile with
    | none =>
      rw [hasked] at hfound
      exact Config.ofProject_of_extends h hadded ht.project (Path.isNormal_of_not_mem hproject) hfound
    | some file =>
      rw [hasked] at hfound
      obtain ⟨hdots, hnot⟩ := hfile file hasked
      exact Config.ofFile_of_extends h (ht.configFile file hasked) (Path.isNormal_of_not_mem hdots) hnot
        hfound
  rw [config_eq, hagain]
  rfl

theorem deterministic_config (hci : target.overrides.deterministic = some true)
    (hc : target.config fs = .ok c) : c.deterministic = true := by
  obtain ⟨found, -, rfl⟩ := found_of_config hc
  rw [Config.override, hci]
  rfl

/-- What a run reports of artifacts depends on the inventory and on where they were written. -/
theorem run_of_written (quiet : Bool) {after : FileSystem} {written : List Path}
    (hconfig : target.config fs = .ok c) (hinventory : (c.extract fs now).outcome = .ok i)
    (hwrite : fs.writeArtifacts i c.outPath = (after, .ok written)) :
    ((Task.extract target quiet).run fs now).fs = after ∧
      ((Task.extract target quiet).run fs now).complaint =
        if quiet then none else (Task.report after [] ((reportFor c).render i written)).complaint := by
  rw [Task.run, hconfig]
  dsimp only
  rw [Task.extractOutcome, hinventory]
  dsimp only
  rw [Task.write, hwrite]
  dsimp only
  cases quiet with
  | true => exact ⟨rfl, rfl⟩
  | false =>
    simp only [Bool.false_eq_true, if_false]
    refine ⟨fs_report .., ?_⟩
    unfold Task.report
    split <;> rfl

/-- A deterministic extraction that succeeded succeeds again on what it left, and changes nothing, wherever its
artifacts went. -/
theorem run_again (hline : Request.ofLine line = .ok ⟨.extract target quiet, verbose⟩)
    (hci : target.overrides.deterministic = some true) (hsound : fs.Sound) (hlinks : fs.links = [])
    (hproject : ".." ∉ target.project.names)
    (hfile : ∀ file ∈ target.configFile, ".." ∉ file.names)
    (hpaths : ∀ c, target.config fs = .ok c → ".." ∉ c.appDir.names ∧ ".." ∉ c.rootModulePath.names ∧
      ".." ∉ c.outPath.names)
    (hapart : ∀ c, target.config fs = .ok c → ∀ name ∈ Artifact.names,
      c.rootModulePath.lexical fs.workingDir ≠ (c.outPath.child name).lexical fs.workingDir ∧
        ∀ file ∈ target.configFile,
          file.lexical fs.workingDir ≠ (c.outPath.child name).lexical fs.workingDir)
    (h : (run line fs now).status = 0) (now' : String) :
    (run line (run line fs now).fs now').status = 0 ∧
      (run line (run line fs now).fs now').fs = (run line fs now).fs := by
  have hfs := FileSystem.Straight.of_links hsound hlinks
  have hspelled := isSpelled_ofLine hline
  obtain ⟨hrun, hstatus⟩ := run_of_line hline fs now
  rw [hstatus] at h
  obtain ⟨c, i, written, hconfig, hinventory, hwrite⟩ := run_of_status h
  rw [← hrun] at hwrite
  generalize (run line fs now).fs = after at hwrite ⊢
  obtain ⟨happ, hmodule, hout⟩ := hpaths c hconfig
  have hc := isSpelled_config hspelled hconfig
  obtain ⟨hextends, artifacts, l, left, hartifacts, hdir, hfiles⟩ :=
    FileSystem.extends_writeArtifacts hfs hc.outPath hout hwrite
  have hadded := FileSystem.areArtifacts_of fs.workingDir c.outPath
  have hconfig' := config_of_extends hextends hadded hspelled hproject
    (fun file hmem => ⟨hfile file hmem, fun ⟨name, hname, heq⟩ =>
      (hapart c hconfig name hname).2 file hmem heq⟩) hconfig
  have hinventory' := Config.extract_of_extends hextends hadded hc happ hmodule
    (fun ⟨name, hname, heq⟩ => (hapart c hconfig name hname).1 heq)
    (deterministic_config hci hconfig) hinventory now'
  have hwrite' := FileSystem.writeArtifacts_again hwrite hartifacts hdir hfiles
  obtain ⟨hfirst, hcomplaint⟩ := run_of_written quiet hconfig hinventory hwrite
  obtain ⟨hsecond, hcomplaint'⟩ := run_of_written quiet hconfig' hinventory' hwrite'
  obtain ⟨hrun', hstatus'⟩ := run_of_line hline after now'
  rw [hstatus', hrun', hsecond]
  refine ⟨?_, rfl⟩
  unfold Outcome.status at h ⊢
  rw [hcomplaint', ← hcomplaint]
  exact h

/-! ### A run that makes the directory of the sources -/

def ciTarget : Target :=
  { tinyTarget ⟨.relative, ["app"]⟩ with
    overrides := { (tinyTarget ⟨.relative, ["app"]⟩).overrides with deterministic := some true } }

def ciLine : List String :=
  ["--quiet", "--ci", "--app-root", "app", "--routing-file", "routes.ts", "--out", "app", "/"]

def ciConfig : Config := { Config.tinyConfig with outDir := ⟨.relative, ["app"]⟩, deterministic := true }

theorem ofLine_ciLine : Request.ofLine ciLine = .ok ⟨.extract ciTarget true, false⟩ :=
  eq_ok_of_toOption (by decide +kernel)

theorem config_ciTarget : ciTarget.config Config.tinyFiles = .ok ciConfig := by
  obtain ⟨found, hfound, hconfig⟩ := found_of_config config_tinyFiles
  have hfound : ciTarget.found Config.tinyFiles = .ok found := hfound
  have hoverride : found.override ciTarget.overrides =
      { found.override (tinyTarget ⟨.relative, []⟩).overrides with
        outDir := ⟨.relative, ["app"]⟩
        deterministic := true } := rfl
  rw [config_eq, hfound, Except.map, hoverride, ← hconfig]
  rfl

theorem outcome_ciConfig (now : String) :
    ∃ i, (ciConfig.extract Config.tinyFiles now).outcome = .ok i ∧ i.Consistent := by
  obtain ⟨i, hinventory, -⟩ := Config.hasTinyModule_tinyFiles.outcome fixedTime
  exact ⟨i, hinventory, Config.consistent_of_extract Config.fixedTime_ne_empty hinventory⟩

theorem sound_tinyFiles : Config.tinyFiles.Sound := .of_entries rfl (by decide) (by decide)

theorem writeArtifacts_ciConfig (hi : i.Consistent) : ∃ after written,
    Config.tinyFiles.writeArtifacts i ciConfig.outPath = (after, .ok written) := by
  have hmissing : Config.tinyFiles.locate .kept ciConfig.outPath =
      .ok ⟨⟨["app"]⟩, none, FileSystem.maxLinks⟩ := FileSystem.locateFrom_of_locateWithin 2 rfl
  have hmake : Config.tinyFiles.makeDirectories ciConfig.outPath =
      (Config.tinyFiles.insert ⟨["app"]⟩ .directory, .ok ()) := by
    rw [FileSystem.makeDirectories, FileSystem.makeDirectory, hmissing]
    rfl
  obtain ⟨l, left, hdir, hempty⟩ := FileSystem.isEmptyDirectory_insert sound_tinyFiles.toRooted hmissing
  have hname : ∀ a ∈ ([⟨Artifact.routesName, (Json.strings i.routes).stableText (some 2)⟩,
      ⟨Artifact.urlsName, (Json.strings i.fullUrls).stableText (some 2)⟩,
      ⟨Artifact.recordName, i.record.stableText (some 2)⟩] : List Artifact), FileSystem.IsPlain a.name := by
    simp only [List.forall_mem_cons, List.not_mem_nil, false_imp_iff, implies_true, and_true]
    decide
  obtain ⟨after, written, hwrite, -⟩ := FileSystem.exists_writeAll hdir _ hname fun a _ e he => by
    rw [hempty] at he
    cases he
  refine ⟨after, written, ?_⟩
  rw [FileSystem.writeArtifacts, hi.artifacts_eq]
  simp only [hmake, hwrite]

/-- The artifacts of the project go to the directory of its sources, which has to be made for them. -/
theorem run_again_tinyFiles :
    Request.ofLine ciLine = .ok ⟨.extract ciTarget true, false⟩ ∧
    ciTarget.overrides.deterministic = some true ∧ Config.tinyFiles.Sound ∧
    Config.tinyFiles.links = [] ∧ ".." ∉ ciTarget.project.names ∧
    (∀ file ∈ ciTarget.configFile, ".." ∉ file.names) ∧
    ciTarget.config Config.tinyFiles = .ok ciConfig ∧
    (run ciLine Config.tinyFiles (Clock.text 0 0)).status = 0 ∧
    (run ciLine (run ciLine Config.tinyFiles (Clock.text 0 0)).fs (Clock.text 1 0)).status = 0 ∧
    (run ciLine (run ciLine Config.tinyFiles (Clock.text 0 0)).fs (Clock.text 1 0)).fs =
      (run ciLine Config.tinyFiles (Clock.text 0 0)).fs := by
  obtain ⟨i, hinventory, hi⟩ := outcome_ciConfig (Clock.text 0 0)
  obtain ⟨after, written, hwrite⟩ := writeArtifacts_ciConfig hi
  have hrun := run_of_writeArtifacts config_ciTarget hinventory hwrite
  have hstatus := (run_of_line ofLine_ciLine Config.tinyFiles (Clock.text 0 0)).2.trans hrun.2
  have hconfig {c : Config} (hc : ciTarget.config Config.tinyFiles = .ok c) : c = ciConfig :=
    Except.ok.inj (hc.symm.trans config_ciTarget)
  refine ⟨ofLine_ciLine, rfl, sound_tinyFiles, by decide, by decide, by simp [ciTarget, tinyTarget],
    config_ciTarget, hstatus, run_again ofLine_ciLine rfl sound_tinyFiles (by decide) (by decide)
      (by simp [ciTarget, tinyTarget]) (fun c hc => ?_) (fun c hc name hname => ?_) hstatus (Clock.text 1 0)⟩
  · rw [hconfig hc]
    decide
  · rw [hconfig hc]
    have hapart : ∀ name ∈ Artifact.names, ciConfig.rootModulePath.lexical Config.tinyFiles.workingDir ≠
        (ciConfig.outPath.child name).lexical Config.tinyFiles.workingDir := by decide
    exact ⟨hapart name hname, by simp [ciTarget, tinyTarget]⟩

end CommandLine

end RouteInventory
