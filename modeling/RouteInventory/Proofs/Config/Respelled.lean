import RouteInventory.Config.File
import RouteInventory.Proofs.FileSystem.Denoted

/-!
# Configurations of one directory

The settings of a project do not depend on how its directory is spelled: they come from the same file, and no
setting is taken from the path.
-/

namespace RouteInventory

namespace Config

/-- The same settings for a project whose directory is spelled in another way. -/
def respelled (c : Config) (root : Path) : Config := { c with projectRoot := root }

variable {c : Config} {p q : Path}

theorem set_respelled (c : Config) (q : Path) (s : Setting) (value : Value) :
    (c.respelled q).set s value = (c.set s value).map (·.respelled q) := by
  have hpath (put put' : Path → Config) (h : ∀ p, put' p = (put p).respelled q) :
      setPath s value put' = (setPath s value put).map (·.respelled q) := by
    unfold setPath
    split
    · exact congrArg Except.ok (h _)
    · rfl
  have htexts (put put' : List String → Config) (h : ∀ items, put' items = (put items).respelled q) :
      setTexts s value put' = (setTexts s value put).map (·.respelled q) := by
    unfold setTexts
    split
    · exact congrArg Except.ok (h _)
    · rfl
  unfold set
  cases s with
  | appRoot | rootModule | outDir => exact hpath _ _ fun _ => rfl
  | ignoredDirectories | excludedRoutes | exampleLookups => exact htexts _ _ fun _ => rfl
  | sampleSize =>
    dsimp only
    split
    · rfl
    · rfl
  | deterministic =>
    dsimp only
    split
    · rfl
    · rfl

theorem setAll_respelled (c : Config) (q : Path) (entries : List (Value × Value)) :
    (c.respelled q).setAll entries = (c.setAll entries).map (·.respelled q) := by
  induction entries generalizing c with
  | nil => rfl
  | cons entry rest ih =>
    obtain ⟨key, value⟩ := entry
    rw [setAll, setAll]
    cases Setting.ofKey? key with
    | none => exact ih c
    | some s =>
      dsimp only
      rw [set_respelled]
      cases c.set s value with
      | error fault => rfl
      | ok c' => exact ih c'

theorem ofMapping_respelled {entries : List (Value × Value)} (h : ofMapping p entries = .ok c) :
    ofMapping q entries = .ok (c.respelled q) := by
  unfold ofMapping at h ⊢
  dsimp only at h ⊢
  split at h
  · next hknown =>
    rw [if_pos hknown]
    have hall := setAll_respelled { projectRoot := p } q entries
    rw [h] at hall
    exact hall
  · cases h

theorem ofDocument_respelled {file file' : Path} {document : Value}
    (h : ofDocument p file document = .ok c) : ofDocument q file' document = .ok (c.respelled q) := by
  unfold ofDocument at h ⊢
  split
  · next hblank =>
    rw [if_pos hblank] at h
    exact ofMapping_respelled h
  · next hblank =>
    rw [if_neg hblank] at h
    cases document with
    | mapping entries => exact ofMapping_respelled h
    | _ => cases h

variable {fs : FileSystem} {dir : Location} {left left' : Nat}

theorem ofFile_respelled {file file' : Path}
    (hspot : FileSystem.spot (fs.locate .followed file) = FileSystem.spot (fs.locate .followed file'))
    (h : ofFile fs p file = .ok c) : ofFile fs q file' = .ok (c.respelled q) := by
  simp only [ofFile, Option.getD_some] at h ⊢
  cases hread : fs.readBytes file with
  | error fault =>
    rw [FileSystem.readPiecewise, hread] at h
    cases h
  | ok content =>
    have hpieces : fs.readPiecewise file' = fs.readPiecewise file := by
      rw [FileSystem.readPiecewise, FileSystem.readPiecewise, hread, FileSystem.readBytes_of_spot hspot hread]
    rw [hpieces]
    split at h
    · cases h
    · split at h
      · cases h
      · next document _ =>
        cases hc : ofDocument p file document with
        | error fault =>
          rw [hc] at h
          cases h
        | ok c' =>
          rw [hc] at h
          cases h
          rw [ofDocument_respelled hc]
          rfl

/-- A project has the same settings however its directory is spelled. -/
theorem ofProject_respelled (hp : fs.Denotes p dir left) (hq : fs.Denotes q dir left')
    (hcut : ∀ name ∈ fileNames, fs.CutAlike dir left left' [name]) (h : ofProject fs p = .ok c) :
    ofProject fs q = .ok (c.respelled q) := by
  have hspot (name : String) (hname : name ∈ fileNames) :
      FileSystem.spot (fs.locate .followed (p.child name)) =
        FileSystem.spot (fs.locate .followed (q.child name)) :=
    hp.spot_join (x := ⟨.relative, [name]⟩) hq fun _ => hcut name hname
  have hfind : (fileNames.map p.child).find? fs.isFile =
      (fileNames.find? fun name => fs.isFile (p.child name)).map p.child := by
    rw [List.find?_map]
    rfl
  have hfind' : (fileNames.map q.child).find? fs.isFile =
      (fileNames.find? fun name => fs.isFile (p.child name)).map q.child := by
    rw [List.find?_map]
    refine congrArg (Option.map q.child) (List.find?_congr fun name hname => ?_)
    rw [Function.comp_apply, FileSystem.isFile, FileSystem.isFile,
      FileSystem.regularFile?_congr (hspot name hname)]
  unfold ofProject at h ⊢
  rw [hfind] at h
  rw [hfind']
  cases hname : fileNames.find? fun name => fs.isFile (p.child name) with
  | none =>
    rw [hname] at h
    cases h
    rfl
  | some name =>
    rw [hname] at h
    exact ofFile_respelled (hspot name (List.mem_of_find?_eq_some hname)) h

end Config

end RouteInventory
