import RouteInventory.CommandLine.Outcome
import RouteInventory.Proofs.Path.Names

/-!
# The paths of a configuration

Whatever a configuration file or a command line gives, the paths of the configuration are ones that texts
spell (`isSpelled_config`).
-/

namespace RouteInventory

namespace Config

/-- Whether all paths of a configuration can be read from texts. -/
structure IsSpelled (c : Config) : Prop where
  projectRoot : c.projectRoot.IsSpelled
  appRoot : c.appRoot.IsSpelled
  rootModule : c.rootModule.IsSpelled
  outDir : c.outDir.IsSpelled

namespace IsSpelled

variable {c : Config} (h : c.IsSpelled)
include h

theorem appDir : c.appDir.IsSpelled := h.projectRoot.join h.appRoot

theorem rootModulePath : c.rootModulePath.IsSpelled := h.projectRoot.join h.rootModule

theorem outPath : c.outPath.IsSpelled := h.projectRoot.join h.outDir

end IsSpelled

variable {c c' : Config} {root file : Path}

theorem isSpelled_default (h : root.IsSpelled) : Config.IsSpelled { projectRoot := root } :=
  ⟨h, Path.isSpelled_ofString _, Path.isSpelled_ofString _, Path.isSpelled_ofString _⟩

theorem isSpelled_setPath {s : Setting} {value : Value} {put : Path → Config}
    (hput : ∀ p, p.IsSpelled → (put p).IsSpelled) (h : setPath s value put = .ok c') : c'.IsSpelled := by
  unfold setPath at h
  split at h
  · cases h
    exact hput _ (Path.isSpelled_ofString _)
  · cases h

theorem isSpelled_setTexts {s : Setting} {value : Value} {put : List String → Config}
    (hput : ∀ items, (put items).IsSpelled) (h : setTexts s value put = .ok c') : c'.IsSpelled := by
  unfold setTexts at h
  split at h <;> cases h
  exact hput _

theorem isSpelled_set (hc : c.IsSpelled) {s : Setting} {value : Value} (h : c.set s value = .ok c') :
    c'.IsSpelled := by
  have hsame (c' : Config) (hroot : c'.projectRoot = c.projectRoot) (happ : c'.appRoot = c.appRoot)
      (hmodule : c'.rootModule = c.rootModule) (hout : c'.outDir = c.outDir) : c'.IsSpelled :=
    ⟨hroot ▸ hc.projectRoot, happ ▸ hc.appRoot, hmodule ▸ hc.rootModule, hout ▸ hc.outDir⟩
  cases s with
  | appRoot =>
    have h : setPath .appRoot value (fun p => { c with appRoot := p }) = .ok c' := h
    refine isSpelled_setPath (fun p hp => ?_) h
    exact ⟨hc.projectRoot, hp, hc.rootModule, hc.outDir⟩
  | rootModule =>
    have h : setPath .rootModule value (fun p => { c with rootModule := p }) = .ok c' := h
    refine isSpelled_setPath (fun p hp => ?_) h
    exact ⟨hc.projectRoot, hc.appRoot, hp, hc.outDir⟩
  | outDir =>
    have h : setPath .outDir value (fun p => { c with outDir := p }) = .ok c' := h
    refine isSpelled_setPath (fun p hp => ?_) h
    exact ⟨hc.projectRoot, hc.appRoot, hc.rootModule, hp⟩
  | ignoredDirectories | excludedRoutes | exampleLookups =>
    refine isSpelled_setTexts (fun items => ?_) h
    exact hsame _ rfl rfl rfl rfl
  | sampleSize | deterministic =>
    unfold Config.set at h
    dsimp only at h
    split at h <;> cases h
    exact hsame _ rfl rfl rfl rfl

theorem isSpelled_setAll {entries : List (Value × Value)} (hc : c.IsSpelled)
    (h : c.setAll entries = .ok c') : c'.IsSpelled := by
  induction entries generalizing c with
  | nil =>
    cases h
    exact hc
  | cons entry rest ih =>
    obtain ⟨key, value⟩ := entry
    rw [setAll] at h
    split at h
    · exact ih hc h
    · next s _ =>
      cases hset : c.set s value with
      | error fault =>
        rw [hset] at h
        cases h
      | ok next =>
        rw [hset] at h
        exact ih (isSpelled_set hc hset) h

theorem isSpelled_ofMapping {entries : List (Value × Value)} (hroot : root.IsSpelled)
    (h : ofMapping root entries = .ok c) : c.IsSpelled := by
  unfold ofMapping at h
  dsimp only at h
  split at h
  · exact isSpelled_setAll (isSpelled_default hroot) h
  · cases h

theorem isSpelled_ofFile {fs : FileSystem} (hroot : root.IsSpelled) (h : ofFile fs root file = .ok c) :
    c.IsSpelled := by
  simp only [ofFile, Option.getD_some] at h
  split at h
  · cases h
  split at h
  · cases h
  next document _ =>
  cases hdocument : ofDocument root file document with
  | error fault =>
    rw [hdocument] at h
    cases h
  | ok c' =>
    rw [hdocument] at h
    cases h
    unfold ofDocument at hdocument
    split at hdocument
    · exact isSpelled_ofMapping hroot hdocument
    split at hdocument
    · exact isSpelled_ofMapping hroot hdocument
    · cases hdocument

theorem isSpelled_ofProject {fs : FileSystem} (hroot : root.IsSpelled) (h : ofProject fs root = .ok c) :
    c.IsSpelled := by
  unfold ofProject at h
  split at h
  · exact isSpelled_ofFile hroot h
  · cases h
    exact isSpelled_default hroot

end Config

/-- Whether all paths that replace those of a configuration can be read from texts. -/
structure Overrides.IsSpelled (o : Overrides) : Prop where
  projectRoot : ∀ p ∈ o.projectRoot, p.IsSpelled
  appRoot : ∀ p ∈ o.appRoot, p.IsSpelled
  rootModule : ∀ p ∈ o.rootModule, p.IsSpelled
  outDir : ∀ p ∈ o.outDir, p.IsSpelled

theorem Config.IsSpelled.override {c : Config} (hc : c.IsSpelled) {o : Overrides} (ho : o.IsSpelled) :
    (c.override o).IsSpelled := by
  have hgetD {p : Option Path} (hp : ∀ q ∈ p, q.IsSpelled) {q : Path} (hq : q.IsSpelled) :
      (p.getD q).IsSpelled := by
    cases p with
    | none => exact hq
    | some p => exact hp p rfl
  exact ⟨hgetD ho.projectRoot hc.projectRoot, hgetD ho.appRoot hc.appRoot,
    hgetD ho.rootModule hc.rootModule, hgetD ho.outDir hc.outDir⟩

namespace CommandLine

/-- Whether all paths of a target can be read from texts. -/
structure Target.IsSpelled (t : Target) : Prop where
  project : t.project.IsSpelled
  configFile : ∀ p ∈ t.configFile, p.IsSpelled
  overrides : t.overrides.IsSpelled

theorem isSpelled_target (r : Reading) : r.target.IsSpelled := by
  have hpath (key : Key) : ∀ p ∈ r.path? key, p.IsSpelled := by
    intro p hp
    obtain ⟨text, -, rfl⟩ := Option.map_eq_some_iff.mp hp
    exact Path.isSpelled_ofString text
  have hroot : ∀ p ∈ r.target.overrides.projectRoot, p.IsSpelled := fun p hp => nomatch hp
  exact ⟨Path.isSpelled_ofString _, hpath _, ⟨hroot, hpath _, hpath _, hpath _⟩⟩

theorem exists_reading {line : List String} {request : Request} (h : Request.ofLine line = .ok request) :
    ∃ (r : Reading) (c : Command), request.task = r.task c := by
  unfold Request.ofLine at h
  split at h
  · unfold Request.ofCommandLine at h
    split at h
    · cases h
    split at h
    · cases h
    split at h
    · cases h
    next c _ =>
    unfold Request.ofCommand at h
    split at h
    · cases h
    next r _ =>
    split at h <;> cases h
    exact ⟨r, c, rfl⟩
  · unfold Request.ofPlainLine at h
    split at h
    · cases h
    next r _ =>
    split at h <;> cases h
    exact ⟨r, .extract, rfl⟩

theorem isSpelled_ofLine {line : List String} {target : Target} {quiet verbose : Bool}
    (h : Request.ofLine line = .ok ⟨.extract target quiet, verbose⟩) : target.IsSpelled := by
  obtain ⟨r, c, htask⟩ := exists_reading h
  cases c with
  | extract =>
    obtain ⟨rfl, -⟩ := Task.extract.inj htask
    exact isSpelled_target r
  | modules | validate => cases htask

/-- The configuration of a target before its settings are replaced. -/
def Target.found (t : Target) (fs : FileSystem) : Except ConfigFileFault Config :=
  match t.configFile with
  | some file => Config.ofFile fs t.project file
  | none => Config.ofProject fs t.project

theorem config_eq (t : Target) (fs : FileSystem) :
    t.config fs = (t.found fs).map (·.override t.overrides) := rfl

theorem found_of_config {target : Target} {fs : FileSystem} {c : Config}
    (h : target.config fs = .ok c) :
    ∃ found, target.found fs = .ok found ∧ c = found.override target.overrides := by
  rw [config_eq] at h
  cases hfound : target.found fs with
  | error fault =>
    rw [hfound] at h
    cases h
  | ok found =>
    rw [hfound] at h
    exact ⟨found, rfl, (Except.ok.inj h).symm⟩

theorem isSpelled_config {target : Target} (ht : target.IsSpelled) {fs : FileSystem} {c : Config}
    (h : target.config fs = .ok c) : c.IsSpelled := by
  obtain ⟨found, hfound, rfl⟩ := found_of_config h
  refine Config.IsSpelled.override ?_ ht.overrides
  unfold Target.found at hfound
  split at hfound
  · exact Config.isSpelled_ofFile ht.project hfound
  · exact Config.isSpelled_ofProject ht.project hfound

end CommandLine

end RouteInventory
