import RouteInventory.Proofs.FileSystem.Directory
import RouteInventory.Proofs.FileSystem.Straight

/-!
# Added files

`Extends` relates two file systems without links, the second of which has some files more, or with other
contents, and some directories more. A path that does not spell the place of an added file then leads to the
same file as before, or to none as before: a directory that is new is no file, and what leads through it
leads to nothing else.
-/

namespace RouteInventory

theorem Path.lexical_child {workingDir : Location} {p : Path} {name : String} (h : name ≠ "..") :
    (p.child name).lexical workingDir = (p.lexical workingDir).child name := by
  obtain ⟨anchor, names⟩ := p
  cases anchor <;>
    simp [lexical, join, isAbsolute, child, normalize, Location.child, ← List.append_assoc, pushName_of_ne h]

namespace FileSystem

variable {fs fs' made : FileSystem} {p dir : Path} {place : Place} {l : Location} {e : Entry}

namespace Straight

theorem isProper_of_locateFrom (h : fs.Straight) {last : Last} {links : Nat} {dir : Location}
    {names : List String} (hdir : dir.IsProper) (hnames : ∀ name ∈ names, IsName name)
    (hloc : fs.locateFrom last links dir names = .ok place) : place.location.IsProper := by
  rw [locateFrom_eq_ok_iff] at hloc
  induction hloc with
  | here => exact hdir
  | up _ ih => exact ih hdir.parent (List.forall_mem_cons.mp hnames).2
  | skip _ _ ih => exact ih hdir (List.forall_mem_cons.mp hnames).2
  | arrive hname => exact hdir.child (hnames _ List.mem_cons_self) hname.1
  | enter hname _ _ _ ih =>
    exact ih (hdir.child (hnames _ List.mem_cons_self) hname.1) (List.forall_mem_cons.mp hnames).2
  | follow _ _ he => exact absurd he (h.not_symlink _ _)

theorem isProper_of_locate (h : fs.Straight) (hp : p.IsSpelled) {last : Last}
    (hloc : fs.locate last p = .ok place) : place.location.IsProper := by
  refine h.isProper_of_locateFrom ?_ hp hloc
  split
  · exact fun name hname => absurd hname List.not_mem_nil
  · exact h.isProper (by rw [h.workingDir]; simp)

theorem isLink_eq_false (h : fs.Straight) (p : Path) : fs.isLink p = false := by
  unfold isLink
  split
  · next hloc => exact absurd (entryAt?_of_locateFrom hloc (by simp)) (h.not_symlink _ _)
  · rfl

theorem insert (h : fs.Straight) (hp : p.IsSpelled) {last : Last} (hloc : fs.locate last p = .ok place)
    (hvacant : fs.IsVacant place.location) (he : ∀ target, e ≠ .symlink target) :
    (fs.insert place.location e).Straight where
  toRooted := h.toRooted.insert hloc hvacant e
  isProper := by
    intro k hk
    by_cases hplace : k = place.location
    · rw [hplace]
      exact h.isProper_of_locate hp hloc
    · rw [hvacant.entryAt?_insert_of_ne hplace] at hk
      exact h.isProper hk
  not_symlink := by
    intro k target hk
    by_cases hplace : k = place.location
    · rw [hplace, hvacant.entryAt?_insert_self] at hk
      exact he target (Option.some.inj hk)
    · rw [hvacant.entryAt?_insert_of_ne hplace] at hk
      exact h.not_symlink k target hk

end Straight

theorem Attempt.straight {there : Bool} (h : Attempt fs p fs' there) (hfs : fs.Straight)
    (hp : p.IsSpelled) : fs'.Straight := by
  cases h with
  | made hloc => exact hfs.insert hp hloc (isVacant_of_locate_kept hloc) (by simp)
  | found | refused => exact hfs

theorem Makes.straight {there : Bool} (h : Makes fs p fs' there) (hfs : fs.Straight)
    (hp : p.IsSpelled) : fs'.Straight := by
  induction h with
  | attempt h => exact h.straight hfs hp
  | failed _ _ ih => exact ih hp.parent
  | inside _ _ h ih => exact h.straight (ih hp.parent) hp

theorem straight_write {content : Text.Bytes} (h : fs.write p content = (fs', .ok ()))
    (hfs : fs.Straight) (hp : p.IsSpelled) : fs'.Straight := by
  obtain ⟨place, hloc, hdir, rfl⟩ := write_ok h
  refine hfs.insert hp hloc (fun e he => ?_) (by simp)
  cases e with
  | file content => exact ⟨content, rfl⟩
  | directory => exact absurd ((entryAt?_of_locateFrom hloc hdir).symm.trans he) hdir
  | symlink target => exact absurd he (hfs.not_symlink _ target)

theorem straight_writeAll {artifacts : List Artifact} {written : List Path}
    (h : fs.writeAll dir artifacts = (fs', .ok written)) (hfs : fs.Straight) (hdir : dir.IsSpelled)
    (hnames : ∀ a ∈ artifacts, IsName a.name) : fs'.Straight := by
  induction artifacts generalizing fs written with
  | nil =>
    cases h
    exact hfs
  | cons a rest ih =>
    obtain ⟨next, written', hwrite, hrest, -⟩ := writeAll_cons h
    obtain ⟨hname, hnames⟩ := List.forall_mem_cons.mp hnames
    exact ih hrest (straight_write hwrite hfs (hdir.child hname)) hnames

/-! ### What is read as before -/

/-- Whether a file system is another with files at some places and directories where there was nothing. -/
structure Extends (added : Location → Prop) (fs fs' : FileSystem) : Prop where
  before : fs.Straight
  after : fs'.Straight
  keeps : Keeps fs fs'
  file {l : Location} (h : added l) : ∃ content, fs'.entryAt? l = some (.file content)
  frame {l : Location} (h : ¬ added l) : fs'.entryAt? l = fs.entryAt? l ∨
    (fs.entryAt? l = none ∧ fs'.entryAt? l = some .directory)

namespace Extends

variable {added : Location → Prop} {content : Text.Bytes}

theorem not_directory (h : Extends added fs fs') (hl : added l) : fs.entryAt? l ≠ some .directory := by
  intro hdir
  obtain ⟨content, hcontent⟩ := h.file hl
  rw [h.keeps.entry hdir (by simp)] at hcontent
  simp at hcontent

theorem entry_file_iff (h : Extends added fs fs') (hl : ¬ added l) :
    fs'.entryAt? l = some (.file content) ↔ fs.entryAt? l = some (.file content) := by
  rcases h.frame hl with hsame | ⟨hnone, hnew⟩
  · rw [hsame]
  · simp [hnone, hnew]

variable (hp : p.IsSpelled) (hn : p.IsNormal)
include hp hn

theorem regularFile?_eq (h : Extends added fs fs') (hl : ¬ added (p.lexical fs.workingDir)) :
    fs'.regularFile? p = fs.regularFile? p := by
  refine Option.ext fun l => ?_
  rw [h.after.regularFile?_eq_some_iff hp hn, h.before.regularFile?_eq_some_iff hp hn,
    h.keeps.workingDir]
  refine and_congr_right fun hlexical => exists_congr fun content => h.entry_file_iff ?_
  rwa [hlexical]

theorem isFile_eq (h : Extends added fs fs') (hl : ¬ added (p.lexical fs.workingDir)) :
    fs'.isFile p = fs.isFile p := by
  rw [isFile, isFile, h.regularFile?_eq hp hn hl]

theorem readBytes_eq_ok_iff (h : Extends added fs fs') (hl : ¬ added (p.lexical fs.workingDir)) :
    fs'.readBytes p = .ok content ↔ fs.readBytes p = .ok content := by
  rw [FileSystem.readBytes_eq_ok_iff, FileSystem.readBytes_eq_ok_iff, h.after.at?_eq hp hn,
    h.before.at?_eq hp hn, h.keeps.workingDir, h.entry_file_iff hl]

end Extends

end FileSystem

end RouteInventory
