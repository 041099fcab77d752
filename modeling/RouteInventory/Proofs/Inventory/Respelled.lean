import RouteInventory.Proofs.Config.Respelled
import RouteInventory.Proofs.Inventory.Validity
import RouteInventory.Proofs.Routing.Agreement
import RouteInventory.Proofs.Routing.Candidates
import RouteInventory.Proofs.Routing.Cycle

/-!
# An inventory and the spelling of the project

However the directory of a project is spelled, the same inventory is extracted, but for the names of modules
in the trace (`extract_respelled`): modules are walked at their canonical locations and named by the way there
from the spelling as it stands, which is another one if the spelling passes a symbolic link.
-/

namespace RouteInventory

open Relation Routing

namespace Config

/-- The path from the project of a reference that is not looked up beside the module it stands in. -/
def referencePath (c : Config) (name : List Char) : Path :=
  if (Text.after? "src/".toList name).isSome then .ofString (String.ofList name)
  else c.appRoot.join (.ofString (String.ofList (dropBoundary name)))

/-- Whether a module that the project leads to has a reference that is not looked up beside it. -/
def RefersTo (c : Config) (fs : FileSystem) (name : List Char) : Prop :=
  name ≠ [] ∧ (name.head? == some '.') = false ∧ ∃ root module decls d reference,
    fs.canonical c.rootModulePath = .ok root ∧ ReflTransGen (c.guide.Loads fs) root module ∧
      Holds fs module decls ∧ Declared decls d ∧ d.loadChildren = some reference ∧
        referenceName reference = name

/-- Whether there is no file beside a directory that would be taken for a reference to the directory: all
candidates for it but one stand there. -/
def NothingBeside (fs : FileSystem) (dir : Path) : Prop :=
  ∀ path ∈ candidatePaths dir.normalize, path ≠ dir.normalize.child "routing.module.ts" →
    fs.regularFile? path = none

/-- Whether what a project refers to from its directory is inside of the directory, also if that is spelled in
another way. An absolute path is not taken from there. -/
def StaysInside (c : Config) (fs : FileSystem) (q : Path) : Prop :=
  ∀ name, c.RefersTo fs name → (c.referencePath name).isAbsolute = true ∨
    (c.referencePath name).IsInside ∧
      ((c.referencePath name).normalize.names = [] → NothingBeside fs c.projectRoot ∧ NothingBeside fs q)

/-- The names that an extraction looks up from the directory of the project. -/
inductive LooksUp (c : Config) (fs : FileSystem) : List String → Prop
  | configFile {name : String} (h : name ∈ fileNames) : LooksUp c fs [name]
  | appRoot (h : c.appRoot.isAbsolute = false) : LooksUp c fs c.appRoot.names
  | rootModule (h : c.rootModule.isAbsolute = false) : LooksUp c fs c.rootModule.names
  | candidate {name : List Char} {path : Path} (h : c.RefersTo fs name)
      (hrelative : (c.referencePath name).isAbsolute = false)
      (hpath : path ∈ candidatePaths ⟨.relative, (c.referencePath name).normalize.names⟩) :
      LooksUp c fs path.names

theorem child_mem_candidatePaths (base : Path) :
    base.child "routing.module.ts" ∈ candidatePaths base := by
  unfold candidatePaths
  refine List.mem_append_left _ (List.mem_append_left _ (List.mem_append_left _ ?_))
  exact .tail _ (.tail _ (.head _))

theorem findSome?_child {fs : FileSystem} {dir : Path} (h : NothingBeside fs dir) :
    (candidatePaths dir.normalize).findSome? fs.regularFile? =
      fs.regularFile? (dir.normalize.child "routing.module.ts") :=
  findSome?_eq_of_forall_ne (child_mem_candidatePaths _) h

theorem basePath_eq (c : Config) {name : List Char} (hname : (name.head? == some '.') = false)
    (source : Path) :
    c.guide.basePath name source = (c.projectRoot.join (c.referencePath name)).normalize := by
  unfold Layout.basePath referencePath
  dsimp only [guide]
  rw [hname, if_neg (by simp)]
  split
  · rfl
  · rw [appDir, below, Path.join_assoc]

variable {c : Config} {fs : FileSystem} {q : Path} {dir : Location} {left left' : Nat}

section Same

variable (hp : fs.Denotes c.projectRoot dir left) (hq : fs.Denotes q dir left')
  (hcut : ∀ names, c.LooksUp fs names → fs.CutAlike dir left left' names)
include hp hq hcut

theorem spot_rootModulePath : FileSystem.spot (fs.locate .followed c.rootModulePath) =
    FileSystem.spot (fs.locate .followed (c.respelled q).rootModulePath) :=
  hp.spot_join hq fun h => hcut _ (.rootModule h)

theorem spot_appDir : FileSystem.spot (fs.locate .followed c.appDir) =
    FileSystem.spot (fs.locate .followed (c.respelled q).appDir) :=
  hp.spot_join hq fun h => hcut _ (.appRoot h)

/-- A candidate for a reference is the same file for both spellings. -/
theorem findSome?_candidates (happ : c.appRoot.IsSpelled) (hin : c.StaysInside fs q) {name : List Char}
    (h : c.RefersTo fs name) :
    (candidatePaths (c.projectRoot.join (c.referencePath name)).normalize).findSome? fs.regularFile? =
      (candidatePaths (q.join (c.referencePath name)).normalize).findSome? fs.regularFile? := by
  rcases hin name h with habs | ⟨hinside, hbeside⟩
  · rw [Path.join_of_isAbsolute _ habs, Path.join_of_isAbsolute _ habs]
  by_cases hnil : (c.referencePath name).normalize.names = []
  · obtain ⟨hnone, hnone'⟩ := hbeside hnil
    have hitself (root : Path) : (root.join (c.referencePath name)).normalize = root.normalize := by
      rw [hinside.normalize_join, hnil, List.append_nil]
      rfl
    have hlooked : c.LooksUp fs ["routing.module.ts"] := by
      have hcandidate := LooksUp.candidate h hinside.relative (child_mem_candidatePaths _)
      simpa only [Path.child, hnil, List.nil_append] using hcandidate
    rw [hitself, hitself, findSome?_child hnone, findSome?_child hnone']
    exact FileSystem.regularFile?_congr (hp.spot_normalize hq (hcut _ hlooked))
  have hspelled : (c.referencePath name).IsSpelled := by
    unfold referencePath
    split
    · exact Path.isSpelled_ofString _
    · exact happ.join (Path.isSpelled_ofString _)
  have hbelow {p : Path} (hs : p.IsSpelled) :
      candidatePaths (p.join (c.referencePath name)).normalize =
        (candidatePaths ⟨.relative, (c.referencePath name).normalize.names⟩).map fun path =>
          FileSystem.belowPath p.normalize path.names := by
    rw [hinside.normalize_join]
    exact candidatePaths_below p.anchor hnil hs.normalize hspelled.normalize
  rw [hbelow hp.isSpelled, hbelow hq.isSpelled, List.findSome?_map, List.findSome?_map]
  refine findSome?_congr fun path hpath => ?_
  exact FileSystem.regularFile?_congr
    (hp.spot_normalize hq (hcut _ (.candidate h hinside.relative hpath)))

/-- The modules that are walked load the same for both spellings. -/
theorem agreesOn_respelled (happ : c.appRoot.IsSpelled) (hin : c.StaysInside fs q) :
    c.guide.AgreesOn (c.respelled q).guide fs fs fun m =>
      ∃ root, fs.canonical c.rootModulePath = .ok root ∧ ReflTransGen (c.guide.Loads fs) root m := by
  refine ⟨fun _ => rfl, ?_, ?_⟩
  · rintro m decls d ⟨root, hroot, hm⟩ hdecls hd
    cases href : d.loadChildren with
    | none => rw [Guide.loaded?_of_none href, Guide.loaded?_of_none href]
    | some reference =>
      cases hempty : (referenceName reference).isEmpty with
      | true => rw [Guide.loaded?_of_empty href hempty, Guide.loaded?_of_empty href hempty]
      | false =>
        rw [Guide.loaded?_of_reference href hempty, Guide.loaded?_of_reference href hempty]
        cases hdot : (referenceName reference).head? == some '.' with
        | true =>
          -- beside the module, whatever the project is called
          have hbeside (layout : Layout) : layout.basePath (referenceName reference) m.path =
              (m.path.parent.join (.ofString (String.ofList (referenceName reference)))).normalize := by
            rw [Layout.basePath, hdot, if_pos rfl]
          rw [hbeside, hbeside]
        | false =>
          have hrefers : c.RefersTo fs (referenceName reference) :=
            ⟨by simpa using hempty, hdot, root, m, decls, d, reference, hroot, hm, hdecls, hd, href, rfl⟩
          have hsame := findSome?_candidates hp hq hcut happ hin hrefers
          rw [basePath_eq c hdot, basePath_eq (c.respelled q) hdot]
          exact hsame
  · rintro m file decls d ⟨root, hroot, hm⟩ hdecls hd hfile
    exact ⟨root, hroot, hm.tail ⟨decls, hdecls, d, hd, hfile⟩⟩

theorem discoverBelow_respelled {query : Query} (hquery : query.followLinks = false) :
    fs.discoverBelow query (c.respelled q).appDir = fs.discoverBelow query c.appDir :=
  (FileSystem.discoverBelow_congr hquery (spot_appDir hp hq hcut)).symm

theorem routes_scan_respelled (hfs : fs.Sound) {s : Reference.Scanner}
    (hs : (s.query c.ignoredDirectories).followLinks = false) :
    ((c.respelled q).scan fs s).routes = (c.scan fs s).routes :=
  routes_scan_eq (discoverBelow_respelled hp hq hcut hs) fun _ hnames =>
    (FileSystem.readLenient?_of_mem_discoverBelow hfs hs (spot_appDir hp hq hcut) hnames).symm

/-- Routing files are named by their ways from the project, if the sources are inside of it. -/
theorem routingFiles_respelled (hfs : fs.Sound) (h : c.appRoot.IsInside ∨
      q.lexical fs.workingDir = c.projectRoot.lexical fs.workingDir) :
    (c.respelled q).routingFiles fs = c.routingFiles fs := by
  have hquery : (routingFileQuery c.ignoredDirectories).followLinks = false := rfl
  have hignored : (c.respelled q).ignoredDirectories = c.ignoredDirectories := rfl
  rw [routingFiles, routingFiles, hignored, FileSystem.routingFiles, FileSystem.routingFiles,
    FileSystem.discover, FileSystem.discover, discoverBelow_respelled hp hq hcut hquery, List.map_map,
    List.map_map]
  refine List.map_congr_left fun names hnames => congrArg Path.text ?_
  obtain ⟨-, -, -, -, -, -, hdots⟩ := FileSystem.exists_of_mem_discoverBelow hfs hquery hnames
  have hworking := hfs.not_mem_workingDir
  have hjoin (root : Path) (hrel : c.appRoot.isAbsolute = false) :
      FileSystem.belowPath (root.join c.appRoot) names =
        root.join ⟨.relative, c.appRoot.names ++ names⟩ := by
    rw [Path.join_of_relative root hrel, FileSystem.belowPath, Path.join_of_relative root rfl,
      List.append_assoc]
  by_cases hinside : c.appRoot.IsInside
  · have hrel := hinside.relative
    have hfile := hinside.append hdots
    simp only [appDir, below, respelled]
    rw [hjoin q hrel, hjoin c.projectRoot hrel, Path.relativeTo_join hworking hfile,
      Path.relativeTo_join hworking hfile]
  · have hlexical := h.resolve_left hinside
    refine Path.relativeTo_congr ?_ hlexical
    simp only [appDir, below, respelled]
    cases hrel : c.appRoot.isAbsolute with
    | true => rw [Path.join_of_isAbsolute q hrel, Path.join_of_isAbsolute c.projectRoot hrel]
    | false =>
      rw [hjoin q hrel, hjoin c.projectRoot hrel, Path.lexical_join hworking q rfl,
        Path.lexical_join hworking c.projectRoot rfl, hlexical]

theorem length_routingFiles_respelled :
    ((c.respelled q).routingFiles fs).length = (c.routingFiles fs).length := by
  have hquery : (routingFileQuery c.ignoredDirectories).followLinks = false := rfl
  have hignored : (c.respelled q).ignoredDirectories = c.ignoredDirectories := rfl
  rw [routingFiles, routingFiles, hignored, FileSystem.routingFiles, FileSystem.routingFiles,
    FileSystem.discover, FileSystem.discover, discoverBelow_respelled hp hq hcut hquery]
  simp only [List.length_map]

/-- An extraction that succeeds with one spelling does with the other, after a walk that agrees. -/
theorem outcome_respelled (happ : c.appRoot.IsSpelled) (hin : c.StaysInside fs q) {now : String} {i : Inventory}
    (hi : (c.extract fs now).outcome = .ok i) (now' : String) : ∃ text,
      i = (c.finish fs now (modeOf text) (c.guide.build fs c.rootModulePath {}).tree).2 ∧
        ((c.respelled q).extract fs now').outcome = .ok ((c.respelled q).finish fs now' (modeOf text)
          ((c.respelled q).guide.build fs (c.respelled q).rootModulePath {}).tree).2 ∧
        (c.guide.build fs c.rootModulePath {}).Agrees
          ((c.respelled q).guide.build fs (c.respelled q).rootModulePath {}) := by
  obtain ⟨hfile, text, htext, hfault, rfl⟩ := outcome_extract_iff.mp hi
  have hspot := spot_rootModulePath hp hq hcut
  have hroot : fs.canonical c.rootModulePath = fs.canonical (c.respelled q).rootModulePath :=
    hp.canonical_join_eq hq c.rootModule
  have hwalk := Guide.agrees_build (agreesOn_respelled hp hq hcut happ hin) hroot
    (fun l hl => ⟨l, hl, .refl⟩) ModuleCache.faithful_empty ModuleCache.faithful_empty
  have hfile' : fs.isFile (c.respelled q).rootModulePath = true := by
    rwa [FileSystem.isFile, ← FileSystem.regularFile?_congr hspot]
  have htext' := FileSystem.readText_of_readBytes (fun _ => FileSystem.readBytes_of_spot hspot) htext
  exact ⟨text, rfl, outcome_extract hfile' htext' (hwalk.fault ▸ hfault), hwalk⟩

/-- The same inventory is extracted from a project however its directory is spelled, but for the names of
modules in the trace, which are those of the spelling. -/
theorem extract_respelled (hfs : fs.Sound) (happ : c.appRoot.IsSpelled) (hin : c.StaysInside fs q)
    (hci : c.deterministic = true) {now : String} {i : Inventory}
    (hi : (c.extract fs now).outcome = .ok i) (now' : String) :
    (∀ c' : Config, ofProject fs c.projectRoot = .ok c' → ofProject fs q = .ok (c'.respelled q)) ∧
      ∃ j : Inventory, ((c.respelled q).extract fs now').outcome = .ok j ∧ j.routes = i.routes ∧
        j.urlPrefix = i.urlPrefix ∧ j.statistics = i.statistics ∧ j.generatedAt = i.generatedAt ∧
        (∃ steps, i.trace = traceNaming (c.guide.shown fs) steps ∧
          j.trace = traceNaming ((c.respelled q).guide.shown fs) steps) ∧
        (c.appRoot.IsInside → j.routingFiles = i.routingFiles) ∧
        (q.lexical fs.workingDir = c.projectRoot.lexical fs.workingDir → j = i) := by
  refine ⟨fun c' hc' => ofProject_respelled hp hq (fun name hname => hcut _ (.configFile hname)) hc', ?_⟩
  obtain ⟨text, rfl, hj, hwalk⟩ := outcome_respelled hp hq hcut happ hin hi now'
  have htemplates := routes_scan_respelled hp hq hcut hfs (s := Reference.templates) rfl
  have hnavigation := routes_scan_respelled hp hq hcut hfs (s := Reference.navigation) rfl
  have hlength := length_routingFiles_respelled hp hq hcut
  have hroutes : ((c.respelled q).guide.build fs (c.respelled q).rootModulePath {}).tree.routes =
      (c.guide.build fs c.rootModulePath {}).tree.routes := hwalk.routes.symm
  have htrace := Walk.trace_tree (Guide.namedBy_build c.guide fs c.rootModulePath {})
  have htrace' := Walk.trace_tree
    (Guide.namedBy_build (c.respelled q).guide fs (c.respelled q).rootModulePath {})
  rw [← hwalk.outline] at htrace'
  have hci' : (c.respelled q).deterministic = true := hci
  refine ⟨_, hj, ?_, rfl, ?_, ?_, ⟨_, htrace, htrace'⟩,
    fun hinside => routingFiles_respelled hp hq hcut hfs (.inl hinside), fun hlexical => ?_⟩
  · rw [routes_finish, routes_finish, hroutes, htemplates, hnavigation]
    rfl
  · dsimp only [finish]
    rw [hroutes, htemplates, hnavigation, hlength]
    rfl
  · dsimp only [finish]
    rw [hci, hci']
    rfl
  · -- names are taken from what the spellings come to by their texts
    have hshown : (c.respelled q).guide.shown fs = c.guide.shown fs := by
      funext m
      exact congrArg Path.text (Path.relativeTo_congr rfl hlexical)
    have hfiles := routingFiles_respelled hp hq hcut hfs (.inr hlexical)
    rw [hshown, ← htrace] at htrace'
    dsimp only [finish]
    rw [hroutes, htemplates, hnavigation, hfiles, htrace', hci, hci']
    rfl

end Same

/-! ### A directory and a link to it -/

/-- A project of two modules, and a link to its directory. -/
def linkedFiles : FileSystem where
  entries :=
    [(⟨["link"]⟩, .symlink "proj"), (⟨["proj"]⟩, .directory),
    (⟨["proj", "routes.ts"]⟩, .file (Text.Utf8.encode
      "[\x7bpath:'a',loadChildren:()=>import('src/b')\x7d]".toList)),
    (⟨["proj", "src"]⟩, .directory),
    (⟨["proj", "src", "b-routing.module.ts"]⟩, .file (Text.Utf8.encode "[\x7bpath:'c'\x7d]".toList))]
  workingDir := .root

def linkedConfig : Config where
  projectRoot := ⟨.relative, ["proj"]⟩
  appRoot := ⟨.relative, ["src"]⟩
  rootModule := ⟨.relative, ["routes.ts"]⟩
  deterministic := true

theorem sound_linkedFiles : linkedFiles.Sound := .of_entries rfl (by decide) (by decide)

theorem denotes_linkedFiles : linkedFiles.Denotes ⟨.relative, ["proj"]⟩ ⟨["proj"]⟩ 40 ∧
    linkedFiles.Denotes ⟨.relative, ["link"]⟩ ⟨["proj"]⟩ 39 := by
  have hnames : ∀ name ∈ ["proj", "link"], IsName name := by decide
  have hproj : Path.IsSpelled ⟨.relative, ["proj"]⟩ := fun name hname => hnames name (by simp_all)
  have hlink : Path.IsSpelled ⟨.relative, ["link"]⟩ := fun name hname => hnames name (by simp_all)
  constructor
  · exact .of_isNormal hproj (Path.isNormal_of_not_mem (by decide))
      (FileSystem.locateFrom_of_locateWithin 3 rfl)
  · exact .of_isNormal hlink (Path.isNormal_of_not_mem (by decide))
      (FileSystem.locateFrom_of_locateWithin 3 rfl)

theorem isSpelled_linkedConfig : linkedConfig.appRoot.IsSpelled := by
  have hnames : ∀ name ∈ ["src"], IsName name := by decide
  exact hnames

theorem holds_linkedFiles :
    Holds linkedFiles ⟨["proj", "routes.ts"]⟩ [⟨"a", some "src/b", 1, []⟩] ∧
      Holds linkedFiles ⟨["proj", "src", "b-routing.module.ts"]⟩ [⟨"c", none, 1, []⟩] :=
  ⟨⟨_, sound_linkedFiles.readText_path rfl (by decide), by cbv⟩,
    ⟨_, sound_linkedFiles.readText_path rfl (by decide), by cbv⟩⟩

theorem loads_linkedFiles {m target : Location}
    (hm : m = ⟨["proj", "routes.ts"]⟩ ∨ m = ⟨["proj", "src", "b-routing.module.ts"]⟩) :
    linkedConfig.guide.Loads linkedFiles m target ↔
      m = ⟨["proj", "routes.ts"]⟩ ∧ target = ⟨["proj", "src", "b-routing.module.ts"]⟩ := by
  rcases hm with rfl | rfl
  · have hloaded : linkedConfig.guide.loaded? linkedFiles ⟨["proj", "routes.ts"]⟩
        ⟨"a", some "src/b", 1, []⟩ = some ⟨["proj", "src", "b-routing.module.ts"]⟩ := by
      refine Guide.loaded?_of_first rfl (by decide) ?_
      have hcandidate : (linkedConfig.guide.basePath (referenceName "src/b")
          (Location.path ⟨["proj", "routes.ts"]⟩)).appendText "-routing.module.ts" =
            ⟨.relative, ["proj", "src", "b-routing.module.ts"]⟩ := by decide
      have hlocate : linkedFiles.locate .followed ⟨.relative, ["proj", "src", "b-routing.module.ts"]⟩ =
          .ok ⟨⟨["proj", "src", "b-routing.module.ts"]⟩,
            some (.file (Text.Utf8.encode "[\x7bpath:'c'\x7d]".toList)), 40⟩ :=
        FileSystem.locateFrom_of_locateWithin 4 rfl
      rw [hcandidate, FileSystem.regularFile?, hlocate]
    rw [Guide.loads_iff holds_linkedFiles.1, Guide.loadsFrom_cons]
    simp [Guide.not_loadsFrom_nil, hloaded, eq_comm]
  · rw [Guide.loads_iff holds_linkedFiles.2, Guide.loadsFrom_cons]
    simp [Guide.not_loadsFrom_nil, Guide.loaded?_of_none]

theorem reached_linkedFiles {m : Location}
    (h : ReflTransGen (linkedConfig.guide.Loads linkedFiles) ⟨["proj", "routes.ts"]⟩ m) :
    m = ⟨["proj", "routes.ts"]⟩ ∨ m = ⟨["proj", "src", "b-routing.module.ts"]⟩ := by
  induction h with
  | refl => exact .inl rfl
  | tail _ hl ih => exact .inr ((loads_linkedFiles ih).mp hl).2

theorem canonical_linkedFiles :
    linkedFiles.canonical linkedConfig.rootModulePath = .ok ⟨["proj", "routes.ts"]⟩ := by
  have hentry : linkedFiles.entryAt? ⟨["proj"] ++ ["routes.ts"]⟩ = some (.file (Text.Utf8.encode
      "[\x7bpath:'a',loadChildren:()=>import('src/b')\x7d]".toList)) := rfl
  have hfile := sound_linkedFiles.canonicalFrom_below [] hentry (by simp)
  exact denotes_linkedFiles.1.canonical_join rfl hfile

theorem fault_linkedFiles :
    (linkedConfig.guide.build linkedFiles linkedConfig.rootModulePath {}).fault = none := by
  refine Guide.fault_build_eq_none canonical_linkedFiles ModuleCache.faithful_empty (fun m hm => ?_)
    fun m hm hback => ?_
  · rcases reached_linkedFiles hm with rfl | rfl
    · exact ⟨_, holds_linkedFiles.1⟩
    · exact ⟨_, holds_linkedFiles.2⟩
  · obtain ⟨next, hnext, hrest⟩ := TransGen.head'_iff.mp hback
    obtain ⟨rfl, rfl⟩ := (loads_linkedFiles (reached_linkedFiles hm)).mp hnext
    rcases ReflTransGen.cases_head hrest with heq | ⟨after, hafter, -⟩
    · exact absurd heq (by decide)
    · exact absurd ((loads_linkedFiles (.inr rfl)).mp hafter).1 (by decide)

theorem refersTo_linkedFiles {name : List Char} (h : linkedConfig.RefersTo linkedFiles name) :
    name = "src/b".toList := by
  obtain ⟨-, -, root, m, decls, d, reference, hroot, hm, hdecls, hd, href, rfl⟩ := h
  obtain rfl : ⟨["proj", "routes.ts"]⟩ = root := Except.ok.inj (canonical_linkedFiles.symm.trans hroot)
  rcases reached_linkedFiles hm with rfl | rfl
  · obtain rfl := hdecls.unique holds_linkedFiles.1
    cases hd with
    | here =>
      obtain rfl : "src/b" = reference := Option.some.inj href
      decide
    | inside hd => cases hd
    | later hd => cases hd
  · obtain rfl := hdecls.unique holds_linkedFiles.2
    cases hd with
    | here => cases href
    | inside hd => cases hd
    | later hd => cases hd

theorem staysInside_linkedFiles : linkedConfig.StaysInside linkedFiles ⟨.relative, ["link"]⟩ := by
  intro name h
  rw [refersTo_linkedFiles h]
  exact .inr ⟨⟨by decide, by decide⟩, fun hnil => absurd hnil (by decide)⟩

theorem cutAlike_linkedFiles {names : List String} (h : linkedConfig.LooksUp linkedFiles names) :
    linkedFiles.CutAlike ⟨["proj"]⟩ 40 39 names := by
  refine .of_not_symlink 40 39 ?_ fun back target hlink => ?_
  · cases h with
    | configFile hname =>
      have hfile : ∀ name ∈ fileNames, ".." ∉ [name] := by decide
      exact hfile _ hname
    | appRoot => decide
    | rootModule => decide
    | candidate hname _ hpath =>
      rw [refersTo_linkedFiles hname] at hpath
      have hdots : ∀ path ∈ candidatePaths ⟨.relative,
          (linkedConfig.referencePath "src/b".toList).normalize.names⟩, ".." ∉ path.names := by decide
      exact hdots _ hpath
  · have hlinks : linkedFiles.links = [⟨["link"]⟩] := by decide
    have hmem := FileSystem.mem_links hlink
    rw [hlinks, List.mem_singleton] at hmem
    simp at hmem

theorem exists_extract_linkedFiles (now : String) :
    ∃ i, (linkedConfig.extract linkedFiles now).outcome = .ok i := by
  have hlocate : linkedFiles.locate .followed linkedConfig.rootModulePath =
      .ok ⟨⟨["proj", "routes.ts"]⟩, some (.file (Text.Utf8.encode
        "[\x7bpath:'a',loadChildren:()=>import('src/b')\x7d]".toList)), 40⟩ :=
    FileSystem.locateFrom_of_locateWithin 3 rfl
  have hfile : linkedFiles.isFile linkedConfig.rootModulePath = true := by
    rw [FileSystem.isFile, FileSystem.regularFile?, hlocate]
    rfl
  have htext : linkedFiles.readText linkedConfig.rootModulePath =
      .ok "[\x7bpath:'a',loadChildren:()=>import('src/b')\x7d]".toList := by
    rw [FileSystem.readText, FileSystem.readBytes, hlocate]
    exact FileSystem.textOf_encode (by decide)
  exact ⟨_, outcome_extract hfile htext fault_linkedFiles⟩

/-- From the link the same is extracted as from the directory. -/
theorem extract_linkedFiles : ∃ i j,
    (linkedConfig.extract linkedFiles fixedTime).outcome = .ok i ∧
      ((linkedConfig.respelled ⟨.relative, ["link"]⟩).extract linkedFiles fixedTime).outcome = .ok j ∧
      j.routes = i.routes ∧ j.statistics = i.statistics ∧ j.routingFiles = i.routingFiles := by
  obtain ⟨i, hi⟩ := exists_extract_linkedFiles fixedTime
  obtain ⟨-, j, hj, hroutes, -, hstatistics, -, -, hfiles, -⟩ :=
    extract_respelled denotes_linkedFiles.1 denotes_linkedFiles.2 (fun _ => cutAlike_linkedFiles)
      sound_linkedFiles isSpelled_linkedConfig staysInside_linkedFiles rfl hi fixedTime
  exact ⟨i, j, hi, hj, hroutes, hstatistics, hfiles ⟨rfl, by decide⟩⟩

/-- But the modules are named by the way from the link to the directory. -/
theorem trace_linkedFiles_ne : ∃ i j,
    linkedFiles.IsDirectoryAt ⟨.relative, ["proj"]⟩ ⟨["proj"]⟩ 40 ∧
      linkedFiles.IsDirectoryAt ⟨.relative, ["link"]⟩ ⟨["proj"]⟩ 39 ∧
      linkedConfig.StaysInside linkedFiles ⟨.relative, ["link"]⟩ ∧
      (linkedConfig.extract linkedFiles fixedTime).outcome = .ok i ∧
      ((linkedConfig.respelled ⟨.relative, ["link"]⟩).extract linkedFiles fixedTime).outcome = .ok j ∧
      i.trace.head? = some "📂 Scanning: routes.ts" ∧
      j.trace.head? = some "📂 Scanning: ../proj/routes.ts" ∧ j.trace ≠ i.trace := by
  obtain ⟨i, hi⟩ := exists_extract_linkedFiles fixedTime
  have hroot := denotes_linkedFiles.1.canonical_join_eq denotes_linkedFiles.2 linkedConfig.rootModule
  obtain ⟨text, rfl, hj, -⟩ := outcome_respelled denotes_linkedFiles.1 denotes_linkedFiles.2
    (fun _ => cutAlike_linkedFiles) isSpelled_linkedConfig staysInside_linkedFiles hi fixedTime
  have htrace := Guide.head?_trace_build linkedConfig.guide canonical_linkedFiles {}
  have htrace' := Guide.head?_trace_build (linkedConfig.respelled ⟨.relative, ["link"]⟩).guide
    (hroot.symm.trans canonical_linkedFiles) {}
  have hshown : linkedConfig.guide.shown linkedFiles ⟨["proj", "routes.ts"]⟩ = "routes.ts" := by decide
  have hshown' : (linkedConfig.respelled ⟨.relative, ["link"]⟩).guide.shown linkedFiles
      ⟨["proj", "routes.ts"]⟩ = "../proj/routes.ts" := by decide
  rw [hshown] at htrace
  rw [hshown'] at htrace'
  refine ⟨_, _, denotes_linkedFiles.1.located, denotes_linkedFiles.2.located, staysInside_linkedFiles,
    hi, hj, htrace, htrace', fun heq => ?_⟩
  have hhead := htrace'.symm.trans ((congrArg List.head? heq).trans htrace)
  exact absurd (Option.some.inj hhead) (by decide)

end Config

end RouteInventory
