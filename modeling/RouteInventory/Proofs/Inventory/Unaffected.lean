import RouteInventory.Proofs.Config.Spelled
import RouteInventory.Proofs.FileSystem.Discovered
import RouteInventory.Proofs.FileSystem.Extended
import RouteInventory.Proofs.Inventory.Validity
import RouteInventory.Proofs.Routing.Agreement
import RouteInventory.Proofs.Routing.Candidates

/-!
# What artifacts do to an extraction

An extraction reads scripts and templates, and no artifact is named like one. So where artifacts have been
added, with the directories for them, the same inventory is extracted again, unless one of them took the place
of the root module (`extract_of_extends`).
-/

namespace RouteInventory

variable {fs fs' : FileSystem} {added : Location → Prop}

namespace Artifact

/-- Whether there are only artifacts at some places. -/
def AreArtifacts (added : Location → Prop) : Prop :=
  ∀ l, added l → ∃ name ∈ names, l.names.getLast? = some name

theorem AreArtifacts.not_child (h : AreArtifacts added) {name : String} (hname : name ∉ names)
    (l : Location) : ¬ added (l.child name) := by
  intro hadded
  obtain ⟨other, hother, hlast⟩ := h _ hadded
  rw [Location.child, List.getLast?_concat] at hlast
  exact hname (Option.some.inj hlast ▸ hother)

theorem not_mem_names_of_isScript {name : String} (h : Routing.IsScript name) : name ∉ names := by
  intro hname
  have hnone : ∀ name ∈ names, ¬ Routing.IsScript name := by decide
  exact hnone name hname h

end Artifact

open Artifact

namespace Routing.Guide

variable {guide : Guide} {source : Location} {d : Declaration}

theorem isSpelled_of_file (h : fs.Straight) {content : Text.Bytes}
    (hm : fs.entryAt? source = some (.file content)) : source.IsProper := h.isProper (by rw [hm]; simp)

/-- A guide is led to the same modules where artifacts have been added. -/
theorem agreesOn_of_extends (guide : Guide) (h : FileSystem.Extends added fs fs') (hadded : AreArtifacts added)
    (hproject : guide.projectRoot.IsSpelled) (happ : guide.appRoot.IsSpelled) :
    guide.AgreesOn guide fs fs' fun m => ¬ added m ∧ ∃ content, fs.entryAt? m = some (.file content) := by
  have hcandidate {m : Location} (hm : m.IsProper) {name : List Char} {c : Path}
      (hc : c ∈ candidatePaths (guide.basePath name m.path)) :
      c.IsSpelled ∧ c.IsNormal ∧ ¬ added (c.lexical fs.workingDir) := by
    have hbase := isSpelled_basePath hproject happ hm.isSpelled_path name
    obtain ⟨hs, hn, q, last, rfl, hscript, hdots⟩ :=
      exists_eq_child_of_candidate hbase (Path.isNormal_normalize _) hc
    refine ⟨hs, hn, ?_⟩
    rw [Path.lexical_child hdots]
    exact hadded.not_child (not_mem_names_of_isScript hscript) _
  refine ⟨?_, ?_, ?_⟩
  · rintro m ⟨hm, content, hcontent⟩
    have hproper := isSpelled_of_file h.before hcontent
    have hlexical := hproper.lexical_path h.before.not_mem_workingDir
    have hread := h.before.readBytes_path hcontent
    have hread' := (h.readBytes_eq_ok_iff hproper.isSpelled_path hproper.isNormal_path
      (by rwa [hlexical])).mpr hread
    exact declared_congr (by rw [FileSystem.readText, FileSystem.readText, hread, hread'])
  · rintro m decls d ⟨hm, content, hcontent⟩ - -
    have hproper := isSpelled_of_file h.before hcontent
    cases hd : d.loadChildren with
    | none => rw [loaded?_of_none hd, loaded?_of_none hd]
    | some reference =>
      cases hname : (referenceName reference).isEmpty with
      | true => rw [loaded?_of_empty hd hname, loaded?_of_empty hd hname]
      | false =>
        rw [loaded?_of_reference hd hname, loaded?_of_reference hd hname]
        refine findSome?_congr fun c hc => ?_
        obtain ⟨hs, hn, hnot⟩ := hcandidate hproper hc
        exact (h.regularFile?_eq hs hn hnot).symm
  · rintro m file decls d ⟨hm, content, hcontent⟩ - - hl
    have hproper := isSpelled_of_file h.before hcontent
    obtain ⟨reference, -, -, c, hc, hfile⟩ := exists_of_loaded? hl
    obtain ⟨hs, hn, hnot⟩ := hcandidate hproper hc
    obtain ⟨rfl, hentry⟩ := (h.before.regularFile?_eq_some_iff hs hn).mp hfile
    exact ⟨hnot, hentry⟩

end Routing.Guide

/-! ### Searches -/

namespace FileSystem

theorem discoverBelow_eq_discoverFrom (h : fs.Straight) {q : Query} (hq : q.followLinks = false)
    {root : Path} (hs : root.IsSpelled) (hn : root.IsNormal) :
    fs.discoverBelow q root = fs.discoverFrom q 0 (root.lexical fs.workingDir) := by
  have hloc := h.locate_followed hs hn
  have hempty (hdir : fs.entryAt? (root.lexical fs.workingDir) ≠ some .directory) :
      fs.discoverFrom q 0 (root.lexical fs.workingDir) = [] := by
    refine discoverFrom_of_empty hq 0 fun name => ?_
    by_contra hpresent
    have hparent := h.parent hpresent
    rw [parent_child] at hparent
    exact hdir hparent
  unfold discoverBelow
  rcases hp : fs.locate .followed root with cause | ⟨l, entry, links⟩
  · rw [hp] at hloc
    exact (hempty (by rw [hloc]; simp)).symm
  · rw [hp] at hloc
    obtain ⟨rfl, rfl⟩ := hloc
    cases hentry : fs.entryAt? (root.lexical fs.workingDir) with
    | none => exact (hempty (by rw [hentry]; simp)).symm
    | some e =>
      cases e with
      | directory => exact discoverFrom_eq hq (fun _ _ => .same rfl) _ _ _
      | file content => exact (hempty (by rw [hentry]; simp)).symm
      | symlink target => exact (hempty (by rw [hentry]; simp)).symm

variable {q : Query} {root : Path}

/-- Whether a search selects none of the names at some places. -/
def PassesOver (q : Query) (added : Location → Prop) : Prop :=
  ∀ (l : Location) name, added (l.child name) → q.selects name = false

/-- A search finds the same where files have been added that it does not select. -/
theorem discoverBelow_of_extends (h : Extends added fs fs') (hq : q.followLinks = false)
    (hsel : PassesOver q added) (hs : root.IsSpelled)
    (hn : root.IsNormal) : fs'.discoverBelow q root = fs.discoverBelow q root := by
  rw [discoverBelow_eq_discoverFrom h.after hq hs hn, discoverBelow_eq_discoverFrom h.before hq hs hn,
    h.keeps.workingDir]
  refine discoverFrom_eq hq (fun dir name => ?_) 0 0 _
  by_cases hadded : added (dir.child name)
  · exact .unselected (hsel dir name hadded) (h.not_directory hadded) (h.file hadded)
  · rcases h.frame hadded with hsame | ⟨hnone, hnew⟩
    · exact .same hsame
    · exact .added hnone (h.before.entryAt?_child hnone) hnew

/-- A file that is discovered is read as before. -/
theorem readLenient?_of_extends (h : Extends added fs fs') (hq : q.followLinks = false)
    (hsel : PassesOver q added) (hs : root.IsSpelled)
    (hdots : ".." ∉ root.names) {names : List String} (hnames : names ∈ fs.discoverBelow q root) :
    fs'.readLenient? (belowPath root names) = fs.readLenient? (belowPath root names) := by
  rw [discoverBelow_eq_discoverFrom h.before hq hs (Path.isNormal_of_not_mem hdots)] at hnames
  obtain ⟨front, last, content, rfl, hlast, hfile⟩ := mem_discoverFrom hq hnames
  have hproper : ∀ name ∈ front ++ [last], IsName name ∧ name ≠ ".." := fun name hname =>
    h.before.isProper (by rw [hfile]; simp) name (List.mem_append_right _ hname)
  have hspelled : (belowPath root (front ++ [last])).IsSpelled := by
    intro name hname
    rcases List.mem_append.mp hname with hname | hname
    exacts [hs name hname, (hproper name hname).1]
  have hnormal : (belowPath root (front ++ [last])).IsNormal := by
    refine Path.isNormal_of_not_mem fun hmem => ?_
    rcases List.mem_append.mp hmem with hmem | hmem
    exacts [hdots hmem, (hproper ".." hmem).2 rfl]
  have hchild : belowPath root (front ++ [last]) = (belowPath root front).child last := by
    simp [belowPath, Path.child]
  have hnot : ¬ added ((belowPath root (front ++ [last])).lexical fs.workingDir) := by
    rw [hchild, Path.lexical_child (hproper last (by simp)).2]
    intro hadded
    rw [hsel _ _ hadded] at hlast
    cases hlast
  have hread (content : Text.Bytes) : fs'.readBytes (belowPath root (front ++ [last])) = .ok content ↔
      fs.readBytes (belowPath root (front ++ [last])) = .ok content :=
    h.readBytes_eq_ok_iff hspelled hnormal hnot
  unfold readLenient?
  cases hbytes : fs.readBytes (belowPath root (front ++ [last])) with
  | ok content => rw [(hread content).mpr hbytes]
  | error fault =>
    cases hbytes' : fs'.readBytes (belowPath root (front ++ [last])) with
    | ok content =>
      rw [(hread content).mp hbytes'] at hbytes
      cases hbytes
    | error fault' => rfl

end FileSystem

namespace Config

variable {c : Config}

theorem passesOver_artifacts (hadded : AreArtifacts added) {q : Query}
    (h : ∀ name ∈ Artifact.names, q.selects name = false) : FileSystem.PassesOver q added := by
  intro l name hl
  by_contra hsel
  exact hadded.not_child (fun hname => hsel (h name hname)) l hl

theorem selects_routingFiles (ignored : List String) :
    ∀ name ∈ Artifact.names, (routingFileQuery ignored).selects name = false := by
  simp only [Artifact.names, List.forall_mem_cons, List.not_mem_nil, false_imp_iff, implies_true, and_true]
  exact ⟨rfl, rfl, rfl⟩

theorem selects_templates (ignored : List String) :
    ∀ name ∈ Artifact.names, (Reference.templates.query ignored).selects name = false := by
  simp only [Artifact.names, List.forall_mem_cons, List.not_mem_nil, false_imp_iff, implies_true, and_true]
  exact ⟨rfl, rfl, rfl⟩

theorem selects_navigation (ignored : List String) :
    ∀ name ∈ Artifact.names, (Reference.navigation.query ignored).selects name = false := by
  simp only [Artifact.names, List.forall_mem_cons, List.not_mem_nil, false_imp_iff, implies_true, and_true]
  exact ⟨rfl, rfl, rfl⟩

variable (h : FileSystem.Extends added fs fs') (hadded : AreArtifacts added) (hc : c.IsSpelled)
  (happ : ".." ∉ c.appDir.names)
include h hadded hc happ

theorem routingFiles_of_extends : c.routingFiles fs' = c.routingFiles fs := by
  have hsel := passesOver_artifacts hadded (selects_routingFiles c.ignoredDirectories)
  rw [routingFiles, routingFiles, FileSystem.routingFiles, FileSystem.routingFiles, FileSystem.discover,
    FileSystem.discover, FileSystem.discoverBelow_of_extends h rfl hsel hc.appDir
      (Path.isNormal_of_not_mem happ), h.keeps.workingDir]

theorem routes_scan_of_extends {s : Reference.Scanner}
    (hs : ∀ name ∈ Artifact.names, (s.query c.ignoredDirectories).selects name = false) :
    (c.scan fs' s).routes = (c.scan fs s).routes := by
  have hsel := passesOver_artifacts hadded hs
  exact routes_scan_eq
    (FileSystem.discoverBelow_of_extends h rfl hsel hc.appDir (Path.isNormal_of_not_mem happ))
    fun names hnames => FileSystem.readLenient?_of_extends h rfl hsel hc.appDir happ hnames

/-- Where artifacts have been added, the same inventory is extracted again, at whatever time if the inventory
does not bear it. -/
theorem extract_of_extends (hmodule : ".." ∉ c.rootModulePath.names)
    (hnot : ¬ added (c.rootModulePath.lexical fs.workingDir)) (hdet : c.deterministic = true)
    {now : String} {i : Inventory} (hi : (c.extract fs now).outcome = .ok i) (now' : String) :
    (c.extract fs' now').outcome = .ok i := by
  have hnormal := Path.isNormal_of_not_mem hmodule
  obtain ⟨hfile, text, htext, hfault, rfl⟩ := outcome_extract_iff.mp hi
  have hroot : fs.canonical c.rootModulePath = fs'.canonical c.rootModulePath := by
    rw [h.before.canonical_eq, h.after.canonical_eq, h.keeps.workingDir]
  have hamong : ∀ l, fs.canonical c.rootModulePath = .ok l →
      ¬ added l ∧ ∃ content, fs.entryAt? l = some (.file content) := by
    intro l hl
    rw [h.before.canonical_eq] at hl
    obtain rfl := Except.ok.inj hl
    obtain ⟨m, hm⟩ := Option.isSome_iff_exists.mp hfile
    obtain ⟨rfl, hentry⟩ := (h.before.regularFile?_eq_some_iff hc.rootModulePath hnormal).mp hm
    exact ⟨hnot, hentry⟩
  have hwalk := Routing.Guide.agrees_build
    (Routing.Guide.agreesOn_of_extends c.guide h hadded hc.projectRoot hc.appDir) hroot hamong
    Routing.ModuleCache.faithful_empty Routing.ModuleCache.faithful_empty
  have hshown : c.guide.shown fs' = c.guide.shown fs := by
    funext m
    rw [Routing.Guide.shown, Routing.Guide.shown, h.keeps.workingDir]
  have htree := hwalk.tree_eq (Routing.Guide.namedBy_build c.guide fs c.rootModulePath {})
    (hshown ▸ Routing.Guide.namedBy_build c.guide fs' c.rootModulePath {})
  have htext' : fs'.readText c.rootModulePath = .ok text :=
    FileSystem.readText_of_readBytes
      (fun content hread => (h.readBytes_eq_ok_iff hc.rootModulePath hnormal hnot).mpr hread) htext
  refine outcome_extract_iff.mpr ⟨?_, text, htext', hwalk.fault ▸ hfault, ?_⟩
  · rw [h.isFile_eq hc.rootModulePath hnormal hnot, hfile]
  · rw [finish, finish, routingFiles_of_extends h hadded hc happ,
      routes_scan_of_extends h hadded hc happ (selects_templates _),
      routes_scan_of_extends h hadded hc happ (selects_navigation _), hdet, htree]
    rfl

end Config

end RouteInventory
