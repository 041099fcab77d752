import Mathlib.Tactic.DefEqTransformations
import RouteInventory.CommandLine.Outcome
import RouteInventory.Inventory.Clock
import RouteInventory.Proofs.FileSystem.Write
import RouteInventory.Proofs.Inventory.Reconciliation
import RouteInventory.Proofs.Inventory.Record
import RouteInventory.Proofs.Json.RoundTrip
import RouteInventory.Proofs.Routing.Visit
import RouteInventory.Proofs.Text.Utf8

/-!
# What an extraction emits

Every inventory that is extracted is consistent, so its record passes its own schema. The artifacts
that are written of it are read back as its routes, its addresses and its record, and the validation
of the written record succeeds.
-/

namespace RouteInventory

open Text

/-! ### Extracted inventories -/

theorem Clock.text_ne_empty (seconds microseconds : Nat) : Clock.text seconds microseconds ≠ "" := by
  -- unfolded as a function: applied to its arguments, the kernel would try to compute the date
  have htext : Clock.text = Clock.text := rfl
  conv at htext => rhs; delta Clock.text
  rw [htext]
  beta_reduce
  generalize civil (seconds / 86400) = date
  obtain ⟨year, month, day⟩ := date
  exact fun h => absurd (String.append_eq_empty_iff.mp h).2 (by decide)

namespace Config

/-- An extraction without a fault reads the root module, walks from it and joins what it finds. -/
theorem extract_ok {c : Config} {fs : FileSystem} {now : String} {i : Inventory}
    (h : (c.extract fs now).outcome = .ok i) :
    ∃ text, fs.readText c.rootModulePath = .ok text ∧
      i = (c.finish fs now (modeOf text) (c.guide.build fs c.rootModulePath {}).tree).2 := by
  unfold extract at h
  split at h
  · cases h
  split at h
  · cases h
  rename_i text htext
  dsimp only at h
  split at h
  · cases h
  · exact ⟨text, htext, (Except.ok.inj h).symm⟩

theorem outcome_extract {c : Config} {fs : FileSystem} {now : String} {text : List Char}
    (hfile : fs.isFile c.rootModulePath = true) (htext : fs.readText c.rootModulePath = .ok text)
    (hfault : (c.guide.build fs c.rootModulePath {}).fault = none) :
    (c.extract fs now).outcome =
      .ok (c.finish fs now (modeOf text) (c.guide.build fs c.rootModulePath {}).tree).2 := by
  rw [extract, if_neg (by simp [hfile]), htext]
  simp only [hfault]

theorem outcome_extract_iff {c : Config} {fs : FileSystem} {now : String} {i : Inventory} :
    (c.extract fs now).outcome = .ok i ↔ fs.isFile c.rootModulePath = true ∧
      ∃ text, fs.readText c.rootModulePath = .ok text ∧
        (c.guide.build fs c.rootModulePath {}).fault = none ∧
        i = (c.finish fs now (modeOf text) (c.guide.build fs c.rootModulePath {}).tree).2 := by
  constructor
  · intro h
    obtain ⟨text, htext, hi⟩ := extract_ok h
    rw [extract] at h
    split at h
    · cases h
    · next hfile =>
      rw [htext] at h
      dsimp only at h
      split at h
      · cases h
      · next hfault => exact ⟨by simpa using hfile, text, htext, hfault, hi⟩
  · rintro ⟨hfile, text, htext, hfault, rfl⟩
    exact outcome_extract hfile htext hfault

theorem routes_scan_eq {c c' : Config} {fs fs' : FileSystem} {s : Reference.Scanner}
    (hfiles : fs'.discoverBelow (s.query c'.ignoredDirectories) c'.appDir =
      fs.discoverBelow (s.query c.ignoredDirectories) c.appDir)
    (hread : ∀ names ∈ fs.discoverBelow (s.query c.ignoredDirectories) c.appDir,
      fs'.readLenient? (FileSystem.belowPath c'.appDir names) =
        fs.readLenient? (FileSystem.belowPath c.appDir names)) :
    (c'.scan fs' s).routes = (c.scan fs s).routes := by
  have hscan : (c'.scan fs' s).files = (c.scan fs s).files := by
    rw [scan, scan, Reference.Scanner.scan, Reference.Scanner.scan]
    dsimp only
    rw [hfiles]
    refine List.filterMap_congr fun names hnames => ?_
    rw [hread names hnames]
  rw [Reference.ScanResult.routes, Reference.ScanResult.routes, Reference.ScanResult.references,
    Reference.ScanResult.references, hscan]

theorem routes_finish (c : Config) (fs : FileSystem) (now : String) (mode : RoutingMode)
    (tree : Routing.RouteTree) : (c.finish fs now mode tree).2.routes =
      (reconcile c.excludedRoutes tree.routes (c.scan fs Reference.templates).routes
        (c.scan fs Reference.navigation).routes).routes := rfl

theorem readable_finish (c : Config) (fs : FileSystem) (now : String) (mode : RoutingMode)
    (tree : Routing.RouteTree) : (c.finish fs now mode tree).2.Readable ↔
      (tree.routes.length + (c.scan fs Reference.templates).routes.length +
        (c.scan fs Reference.navigation).routes.length : Int) < 10 ^ Number.maxDigits := .rfl

theorem fixedTime_ne_empty : fixedTime ≠ "" := by decide

/-- What a walk's routes and the references are joined to is consistent. -/
theorem consistent_finish (c : Config) (fs : FileSystem) {now : String} (hnow : now ≠ "")
    (mode : RoutingMode) (tree : Routing.RouteTree) : (c.finish fs now mode tree).2.Consistent where
  distinct := nodup_reconcile ..
  ne_empty h := ne_empty_of_isNavigable ((mem_reconcile ..).mp h).2
  no_parameter h := (isNavigable_iff.mp ((mem_reconcile ..).mp h).2).2.1 ":" (by decide)
  no_wildcard h := (isNavigable_iff.mp ((mem_reconcile ..).mp h).2).2.1 "**" (by decide)
  mode := ⟨mode, rfl⟩
  routingModules := Int.natCast_nonneg _
  htmlFiles := Int.natCast_nonneg _
  tsFiles := Int.natCast_nonneg _
  total := rfl
  total_le := Int.ofNat_le.mpr (total_reconcile_le ..)
  generatedAt := by
    show (if c.deterministic then fixedTime else now) ≠ ""
    split
    · exact fixedTime_ne_empty
    · exact hnow

theorem consistent_of_extract {c : Config} {fs : FileSystem} {now : String} (hnow : now ≠ "")
    {i : Inventory} (h : (c.extract fs now).outcome = .ok i) : i.Consistent := by
  obtain ⟨text, -, rfl⟩ := extract_ok h
  exact consistent_finish c fs hnow _ _

end Config

/-! ### Written artifacts -/

/-- Whether a file is the text of a JSON value. -/
def FileSystem.HoldsJson (fs : FileSystem) (p : Path) (x : Json) : Prop :=
  ∃ text, fs.readText p = .ok text ∧ Json.read text = .ok x

theorem FileSystem.holdsJson_of_readBytes {fs : FileSystem} {p : Path} {x : Json}
    (hx : x.Writable) (indent : Option Nat)
    (h : fs.readBytes p = .ok (Utf8.encode (x.stableText indent).toList)) :
    fs.HoldsJson p x.sorted := by
  refine ⟨(x.stableText indent).toList, ?_, Json.read_stableText hx indent⟩
  rw [readText, h]
  exact textOf_encode (Json.return_not_mem_stableText hx indent)

namespace Artifact

/-- The names of the artifacts. -/
def names : List String := [routesName, urlsName, recordName]

theorem isPlain_of_mem_names {name : String} (h : name ∈ names) : FileSystem.IsPlain name := by
  revert name
  decide

theorem nodup_names : names.Nodup := by decide

end Artifact

namespace FileSystem

variable {fs fs' : FileSystem} {i : Inventory} {dir : Path} {written : List Path}

theorem writeArtifacts_ok (h : fs.writeArtifacts i dir = (fs', .ok written)) :
    ∃ artifacts made, i.artifacts = .ok artifacts ∧ fs.makeDirectories dir = (made, .ok ()) ∧
      made.writeAll dir artifacts = (fs', .ok written) := by
  unfold writeArtifacts at h
  split at h
  · cases h
  rename_i artifacts hartifacts
  split at h
  · cases h
  rename_i made hmade
  split at h
  · cases h
  rename_i last written' hwritten
  cases h
  exact ⟨artifacts, made, hartifacts, hmade, hwritten⟩

/-- The written artifacts of a consistent inventory hold its routes, its addresses and its record. -/
theorem holdsJson_writeArtifacts (hi : i.Consistent) (hr : i.Readable)
    (h : fs.writeArtifacts i dir = (fs', .ok written))
    (hlinks : ∀ name ∈ Artifact.names, fs'.isLink (dir.child name) = false) :
    fs'.HoldsJson (dir.child Artifact.routesName) (.strings i.routes) ∧
      fs'.HoldsJson (dir.child Artifact.urlsName) (.strings i.fullUrls) ∧
      fs'.HoldsJson (dir.child Artifact.recordName) i.record.sorted := by
  obtain ⟨artifacts, made, hartifacts, -, hwritten⟩ := writeArtifacts_ok h
  rw [hi.artifacts_eq] at hartifacts
  have hnames : artifacts.map (·.name) = Artifact.names := by
    cases hartifacts
    rfl
  have hmem : ∀ a ∈ artifacts, a.name ∈ Artifact.names :=
    fun a ha => hnames ▸ List.mem_map_of_mem ha
  have hread : ∀ a ∈ artifacts, fs'.readBytes (dir.child a.name) = .ok (Utf8.encode a.text.toList) :=
    fun a => readBytes_writeAll (fun a ha => Artifact.isPlain_of_mem_names (hmem a ha))
      (hnames ▸ Artifact.nodup_names) hwritten fun a ha => hlinks a.name (hmem a ha)
  cases hartifacts
  obtain ⟨hroutes, hurls, hrecord, -⟩ : _ ∧ _ ∧ _ ∧ _ := by simpa only [List.forall_mem_cons] using hread
  replace hroutes := holdsJson_of_readBytes (Json.writable_strings i.routes) (some 2) hroutes
  replace hurls := holdsJson_of_readBytes (Json.writable_strings i.fullUrls) (some 2) hurls
  replace hrecord := holdsJson_of_readBytes (hi.writable_record hr) (some 2) hrecord
  rw [Json.sorted_strings] at hroutes hurls
  exact ⟨hroutes, hurls, hrecord⟩

end FileSystem

/-! ### The written record -/

namespace Schema

theorem validateFile_of_holdsJson {fs : FileSystem} {p : Path} {x : Json} (h : fs.HoldsJson p x)
    (hx : recordSchema.Accepts x) : validateFile fs recordSchemaName p = .ok () := by
  obtain ⟨text, htext, hread⟩ := h
  rw [validateFile, htext]
  simp only [hread, validateBy, named?_recordSchemaName, validate_eq_ok_iff.mpr hx]

end Schema

theorem status_validate {fs : FileSystem} {p : Path} (now : String)
    (h : Schema.validateFile fs Schema.recordSchemaName p = .ok ()) :
    ((CommandLine.Task.validate p).run fs now).status = 0 := by
  rw [CommandLine.Task.run, CommandLine.Task.validateOutcome, h]
  rfl

/-- Whether a value is a complete record of given routes and addresses: it has both lists, the number
of routes as both totals, and a mode. -/
structure IsRecordOf (paths urls : List String) (mode : String) (x : Json) : Prop where
  routes : x.field? "routes" = some (.strings paths)
  fullUrls : x.field? "fullUrls" = some (.strings urls)
  metadata : ∃ metadata statistics, x.field? "metadata" = some metadata ∧
    metadata.field? "stats" = some statistics ∧
    metadata.field? "totalRoutes" = some (.int paths.length) ∧
    statistics.field? "total" = some (.int paths.length) ∧
    metadata.field? "routingMode" = some (.text mode)

/-- The record of an inventory, with its fields sorted, has what the inventory has. -/
theorem Inventory.Consistent.isRecordOf {i : Inventory} (h : i.Consistent) (hr : i.Readable) :
    IsRecordOf i.routes i.fullUrls i.routingMode.name i.record.sorted := by
  have hrecord := Json.field?_sorted (h.writable_record hr)
  have hmetadata := Json.field?_sorted (h.writable_metadata hr)
  have hstatistics := Json.field?_sorted (h.writable_statistics hr)
  refine ⟨?_, ?_, i.metadata.sorted, i.statistics.record.sorted, ?_, ?_, ?_, ?_, ?_⟩
  · rw [hrecord]
    exact congrArg some (Json.sorted_strings i.routes)
  · rw [hrecord]
    exact congrArg some (Json.sorted_strings i.fullUrls)
  · rw [hrecord]
    rfl
  · rw [hmetadata]
    rfl
  · rw [hmetadata]
    rfl
  · rw [hstatistics, ← h.total]
    rfl
  · rw [hmetadata]
    rfl

namespace Config

/-- What stands in front of every route in its address. -/
def addressStart (text : List Char) : String := if Routing.usesHashRouting text then "#/" else "/"

theorem urlPrefix_modeOf (text : List Char) : (modeOf text).urlPrefix = addressStart text := by
  rw [modeOf, addressStart]
  split <;> rfl

/-- Every extracted inventory can be written. From the directory it is written to, its routes, its
addresses and its record are read back, all of them for the same routes; the addresses begin as the
root module's text says, and the validation of the record succeeds. -/
theorem extract_artifacts {c : Config} {fs : FileSystem} {seconds microseconds : Nat} {i : Inventory}
    (h : (c.extract fs (Clock.text seconds microseconds)).outcome = .ok i) (hr : i.Readable) :
    (∃ artifacts, i.artifacts = .ok artifacts) ∧
      ∀ before after dir written, FileSystem.writeArtifacts before i dir = (after, .ok written) →
        (∀ name ∈ Artifact.names, after.isLink (dir.child name) = false) →
        ∃ text record, fs.readText c.rootModulePath = .ok text ∧
          after.HoldsJson (dir.child Artifact.routesName) (.strings i.routes) ∧
          after.HoldsJson (dir.child Artifact.urlsName)
            (.strings (i.routes.map (addressStart text ++ ·))) ∧
          after.HoldsJson (dir.child Artifact.recordName) record ∧
          IsRecordOf i.routes (i.routes.map (addressStart text ++ ·))
            (if addressStart text = "#/" then "Hash" else "HTML5") record ∧
          Schema.validateFile after Schema.recordSchemaName (dir.child Artifact.recordName) = .ok () ∧
          ∀ now, ((CommandLine.Task.validate (dir.child Artifact.recordName)).run after now).status
            = 0 := by
  have hi := consistent_of_extract (Clock.text_ne_empty seconds microseconds) h
  refine ⟨⟨_, hi.artifacts_eq⟩, fun before after dir written hwrite hlinks => ?_⟩
  obtain ⟨hroutes, hurls, hrecord⟩ := FileSystem.holdsJson_writeArtifacts hi hr hwrite hlinks
  have hvalid := Schema.validateFile_of_holdsJson hrecord hi.accepts_record.2
  obtain ⟨text, htext, hfinish⟩ := extract_ok h
  have hstart : i.urlPrefix = addressStart text := by
    rw [hfinish]
    exact urlPrefix_modeOf text
  have hmode : i.routingMode.name = if addressStart text = "#/" then "Hash" else "HTML5" := by
    rw [Inventory.routingMode, hstart, RoutingMode.ofUrlPrefix]
    split <;> rfl
  have hfull : i.fullUrls = i.routes.map (addressStart text ++ ·) := by
    rw [Inventory.fullUrls, hstart]
  have hfields := hi.isRecordOf hr
  rw [hfull] at hurls hfields
  rw [hmode] at hfields
  exact ⟨text, i.record.sorted, htext, hroutes, hurls, hrecord, hfields, hvalid,
    fun now => status_validate now hvalid⟩

/-- A project that has a root module and nothing else. -/
def tinyFiles : FileSystem where
  entries := [(⟨["routes.ts"]⟩, .file (Utf8.encode "[\x7bpath:'a'\x7d]".toList))]
  workingDir := .root

def tinyConfig : Config where
  projectRoot := ⟨.slash, []⟩
  appRoot := ⟨.relative, ["app"]⟩
  rootModule := ⟨.relative, ["routes.ts"]⟩
  outDir := ⟨.relative, []⟩

theorem isDirectoryAt_tinyFiles :
    tinyFiles.IsDirectoryAt tinyConfig.outPath .root FileSystem.maxLinks := by
  simp [FileSystem.IsDirectoryAt, FileSystem.locate, FileSystem.locateFrom, tinyConfig, outPath, below,
    Path.join, Path.isAbsolute]

theorem entryAt?_tinyFiles (name : String) : tinyFiles.entryAt? (Location.root.child name) =
    if name = "routes.ts" then some (.file (Utf8.encode "[\x7bpath:'a'\x7d]".toList)) else none := by
  by_cases h : name = "routes.ts"
  · subst h
    rfl
  · have hne : (Location.root.child name == ⟨["routes.ts"]⟩) = false :=
      beq_eq_false_iff_ne.mpr fun heq => h (by simpa [Location.child, Location.root] using heq)
    rw [FileSystem.entryAt?, if_neg (by simp [Location.child, Location.root]), if_neg h, tinyFiles,
      List.lookup_cons, hne]
    rfl

theorem isFree_tinyFiles (name : String) : tinyFiles.IsFree .root name := by
  intro e he
  rw [entryAt?_tinyFiles] at he
  split at he
  · exact ⟨_, (Option.some.inj he).symm⟩
  · cases he

/-- Whether a root module with one route stands at the root, and there are no sources. -/
structure HasTinyModule (fs : FileSystem) : Prop where
  routes : fs.entryAt? ⟨["routes.ts"]⟩ = some (.file (Utf8.encode "[\x7bpath:'a'\x7d]".toList))
  sources : fs.entryAt? ⟨["app"]⟩ = none

theorem hasTinyModule_tinyFiles : HasTinyModule tinyFiles := ⟨rfl, rfl⟩

namespace HasTinyModule

variable {fs : FileSystem}

theorem locate_routes (h : HasTinyModule fs) (last : FileSystem.Last) :
    fs.locate last ⟨.slash, ["routes.ts"]⟩ =
      .ok ⟨⟨["routes.ts"]⟩, fs.entryAt? ⟨["routes.ts"]⟩, FileSystem.maxLinks⟩ := by
  refine FileSystem.locateFrom_singleton (by decide) (.inr fun target => ?_)
  rw [show Location.child _ "routes.ts" = ⟨["routes.ts"]⟩ from rfl, h.routes]
  exact nofun

theorem locate_sources (h : HasTinyModule fs) (last : FileSystem.Last) :
    fs.locate last ⟨.slash, ["app"]⟩ = .ok ⟨⟨["app"]⟩, none, FileSystem.maxLinks⟩ := by
  have hnone := h.sources
  rw [← hnone]
  refine FileSystem.locateFrom_singleton (by decide) (.inr fun target => ?_)
  rw [show Location.child _ "app" = ⟨["app"]⟩ from rfl, hnone]
  exact nofun

theorem readText_routes (h : HasTinyModule fs) :
    fs.readText ⟨.slash, ["routes.ts"]⟩ = .ok "[\x7bpath:'a'\x7d]".toList := by
  have hread : fs.readBytes ⟨.slash, ["routes.ts"]⟩ = .ok (Utf8.encode "[\x7bpath:'a'\x7d]".toList) := by
    rw [FileSystem.readBytes, h.locate_routes, h.routes]
  rw [FileSystem.readText, hread]
  exact FileSystem.textOf_encode (by decide)

theorem build (h : HasTinyModule fs) :
    (tinyConfig.guide.build fs ⟨.slash, ["routes.ts"]⟩ {}).fault = none ∧
      (tinyConfig.guide.build fs ⟨.slash, ["routes.ts"]⟩ {}).routes = ["a"] := by
  have hentry : fs.entryAt? (Location.root.child "routes.ts") = _ := h.routes
  have hroot : fs.canonical ⟨.slash, ["routes.ts"]⟩ = .ok ⟨["routes.ts"]⟩ := by
    simp [FileSystem.canonical, FileSystem.canonicalFrom, hentry, Path.isAbsolute]
    rfl
  have hholds : Routing.Holds fs ⟨["routes.ts"]⟩ [⟨"a", none, 1, []⟩] :=
    ⟨"[\x7bpath:'a'\x7d]".toList, h.readText_routes, by cbv⟩
  obtain ⟨cache', parsed, hload⟩ :=
    Routing.ModuleCache.loadAt_of_holds Routing.ModuleCache.faithful_empty hholds
  obtain ⟨steps, hw⟩ :=
    Routing.Guide.walkModule_of_ok tinyConfig.guide List.not_mem_nil hload "" 0
  rw [Routing.Guide.build_eq_walk hroot, Routing.Guide.walk_eq_walkModule, hw]
  simp [Routing.Walk.andThen, Routing.Guide.visit_cons, Routing.Guide.below, Routing.extend,
    Routing.joinPath, Routing.Walk.rest]

theorem outcome (h : HasTinyModule fs) (now : String) :
    ∃ i, (tinyConfig.extract fs now).outcome = .ok i ∧ i.routes = ["a"] ∧ i.Readable := by
  have hfile : fs.isFile ⟨.slash, ["routes.ts"]⟩ = true := by
    rw [FileSystem.isFile, FileSystem.regularFile?, h.locate_routes, h.routes]
    rfl
  have hnone (q : Query) : fs.discoverBelow q tinyConfig.appDir = [] := by
    rw [FileSystem.discoverBelow]
    exact h.locate_sources .followed ▸ rfl
  have hscan (s : Reference.Scanner) : (tinyConfig.scan fs s).routes = [] := by
    rw [scan, Reference.Scanner.scan, hnone]
    rfl
  obtain ⟨hfault, hroutes⟩ := h.build
  have hroutes : (tinyConfig.guide.build fs tinyConfig.rootModulePath {}).tree.routes = ["a"] :=
    hroutes
  refine ⟨_, outcome_extract hfile h.readText_routes hfault, ?_, ?_⟩
  · rw [routes_finish, hroutes, hscan, hscan]
    cbv
  · rw [readable_finish, hroutes, hscan, hscan]
    have hpow : 1 < 10 ^ Number.maxDigits := Nat.one_lt_pow (by decide) (by decide)
    have hcast := Int.ofNat_lt.mpr hpow
    rw [Int.natCast_pow] at hcast
    exact hcast

end HasTinyModule

theorem writeArtifacts_tinyFiles {i : Inventory} (hi : i.Consistent) :
    ∃ after written, tinyFiles.writeArtifacts i tinyConfig.outPath = (after, .ok written) ∧
      ∀ name ∈ Artifact.names, after.isLink (tinyConfig.outPath.child name) = false := by
  have hmake : tinyFiles.makeDirectories tinyConfig.outPath = (tinyFiles, .ok ()) := by
    have hmade : tinyFiles.makeDirectory tinyConfig.outPath =
        (tinyFiles, .error ⟨.alreadyExists, tinyConfig.outPath.text⟩) := by
      simp [FileSystem.makeDirectory, FileSystem.locate, FileSystem.locateFrom, tinyConfig, outPath,
        below, Path.join, Path.isAbsolute]
    have hdir : tinyFiles.isDirectory tinyConfig.outPath = true := by
      rw [FileSystem.isDirectory, FileSystem.at?, isDirectoryAt_tinyFiles]
      rfl
    rw [FileSystem.makeDirectories, hmade]
    simp only [FileSystem.acceptExisting, hdir, if_true]
  obtain ⟨after, written, hwritten, hfree⟩ := FileSystem.exists_writeAll isDirectoryAt_tinyFiles
    [⟨Artifact.routesName, (Json.strings i.routes).stableText (some 2)⟩,
      ⟨Artifact.urlsName, (Json.strings i.fullUrls).stableText (some 2)⟩,
      ⟨Artifact.recordName, i.record.stableText (some 2)⟩]
    (by
      simp only [List.forall_mem_cons, List.not_mem_nil, false_imp_iff, implies_true, and_true]
      decide)
    (fun a _ => isFree_tinyFiles a.name)
  refine ⟨after, written, ?_, fun name hname => ?_⟩
  · rw [FileSystem.writeArtifacts, hi.artifacts_eq]
    simp only [hmake, hwritten]
  · exact FileSystem.isLink_child_of_not_symlink (Artifact.isPlain_of_mem_names hname)
      ((FileSystem.keeps_writeAll hwritten).locate rfl isDirectoryAt_tinyFiles)
      (hfree name (isFree_tinyFiles name)).not_symlink

/-- The artifacts of that project hold its only route, and its record is valid. -/
theorem extract_tinyFiles : ∃ i after written,
    (tinyConfig.extract tinyFiles (Clock.text 0 0)).outcome = .ok i ∧
      tinyFiles.writeArtifacts i tinyConfig.outPath = (after, .ok written) ∧
      after.HoldsJson (tinyConfig.outPath.child Artifact.routesName) (.strings ["a"]) ∧
      after.HoldsJson (tinyConfig.outPath.child Artifact.urlsName) (.strings ["/a"]) ∧
      Schema.validateFile after Schema.recordSchemaName
        (tinyConfig.outPath.child Artifact.recordName) = .ok () := by
  obtain ⟨i, hi, hroutes, hr⟩ := hasTinyModule_tinyFiles.outcome (Clock.text 0 0)
  obtain ⟨after, written, hwrite, hlinks⟩ :=
    writeArtifacts_tinyFiles (consistent_of_extract (Clock.text_ne_empty 0 0) hi)
  obtain ⟨text, record, htext, hlist, hurls, -, -, hvalid, -⟩ :=
    (extract_artifacts hi hr).2 _ _ _ _ hwrite hlinks
  obtain rfl := Except.ok.inj (hasTinyModule_tinyFiles.readText_routes.symm.trans htext)
  have hstart : addressStart "[\x7bpath:'a'\x7d]".toList = "/" := by cbv
  rw [hroutes] at hlist hurls
  rw [hstart] at hurls
  exact ⟨i, after, written, hi, hwrite, hlist, hurls, hvalid⟩

end Config

end RouteInventory
