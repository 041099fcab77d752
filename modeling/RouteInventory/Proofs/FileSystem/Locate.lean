import Mathlib
import RouteInventory.FileSystem.Edit

/-!
# Following paths

What becomes of the names of a path one after another is a way to its place (`Way`), and what holds of all
the places that paths lead to goes by induction on it. The way to a name in a directory is the way to the
directory and one more step. The way to a directory depends on the directories and links it passes only, so
it stays the same while files are written.
-/

namespace RouteInventory.FileSystem

variable {fs : FileSystem} {last : Last} {links : Nat} {dir : Location} {names : List String}

/-- What a name is that leads to an entry of a directory. -/
def IsPlain (name : String) : Prop := name ≠ ".." ∧ name ≠ "." ∧ name ≠ ""

instance (name : String) : Decidable (IsPlain name) := inferInstanceAs (Decidable (_ ∧ _))

theorem IsPlain.append_ne {name : String} (h : IsPlain name) (rest : List String) :
    rest ++ [name] ≠ [""] := by
  cases rest with
  | nil => exact fun heq => h.2.2 (List.cons.inj heq).1
  | cons a rest => simp

theorem locateFrom_plain {name : String} (hplain : IsPlain name) {rest : List String}
    (hrest : ¬ (last = .created ∧ rest = [""])) : fs.locateFrom last links dir (name :: rest) =
      match fs.entryAt? (dir.child name) with
      | none => if rest = [] then .ok ⟨dir.child name, none, links⟩ else .error .notFound
      | some .directory => fs.locateFrom last links (dir.child name) rest
      | some (.file content) =>
        if rest = [] then .ok ⟨dir.child name, some (.file content), links⟩
        else .error .notADirectory
      | some (.symlink target) =>
        if rest = [] ∧ last = .kept then .ok ⟨dir.child name, some (.symlink target), links⟩
        else
          match links with
          | 0 => .error .tooManyLinks
          | left + 1 => fs.locateFrom last left
              (if (Path.ofString target).isAbsolute then .root else dir)
              (targetNames target ++ rest) := by
  rw [locateFrom, if_neg hplain.1, if_neg (not_or.mpr hplain.2)]
  exact if_neg hrest

/-! ### Ways -/

/-- Whether a path can end at an entry by name. -/
def IsEnd (last : Last) : Option Entry → Prop
  | none | some (.file _) => True
  | some .directory => False
  | some (.symlink _) => last = .kept

theorem IsEnd.not_symlink {entry : Option Entry} (h : IsEnd last entry) (hlast : last ≠ .kept)
    (target : String) : entry ≠ some (.symlink target) := by
  rintro rfl
  exact hlast h

theorem IsEnd.of_not_symlink {last' : Last} {entry : Option Entry} (h : IsEnd last entry)
    (hlink : ∀ target, entry ≠ some (.symlink target)) : IsEnd last' entry := by
  cases entry with
  | none => exact trivial
  | some e =>
    cases e with
    | file content => exact trivial
    | directory => exact h.elim
    | symlink target => exact absurd rfl (hlink target)

theorem IsEnd.kept {entry : Option Entry} (h : IsEnd last entry) : IsEnd .kept entry := by
  cases entry with
  | none => exact trivial
  | some e =>
    cases e with
    | file content => exact trivial
    | directory => exact h.elim
    | symlink target => rfl

/-- A way to a place: what becomes of the names one after another. -/
inductive Way (fs : FileSystem) (last : Last) :
    (links : Nat) → (dir : Location) → (names : List String) → Place → Prop
  | here {links : Nat} {dir : Location} : Way fs last links dir [] ⟨dir, some .directory, links⟩
  | up {links : Nat} {dir : Location} {rest : List String} {place : Place}
      (h : Way fs last links dir.parent rest place) : Way fs last links dir (".." :: rest) place
  | skip {links : Nat} {dir : Location} {name : String} {rest : List String} {place : Place}
      (hname : name = "." ∨ name = "") (h : Way fs last links dir rest place) :
      Way fs last links dir (name :: rest) place
  | arrive {links : Nat} {dir : Location} {name : String} {entry : Option Entry} (hname : IsPlain name)
      (he : fs.entryAt? (dir.child name) = entry) (hend : IsEnd last entry) :
      Way fs last links dir [name] ⟨dir.child name, entry, links⟩
  | enter {links : Nat} {dir : Location} {name : String} {rest : List String} {place : Place}
      (hname : IsPlain name) (hrest : ¬ (last = .created ∧ rest = [""]))
      (he : fs.entryAt? (dir.child name) = some .directory)
      (h : Way fs last links (dir.child name) rest place) : Way fs last links dir (name :: rest) place
  | follow {left : Nat} {dir : Location} {name target : String} {rest : List String} {place : Place}
      (hname : IsPlain name) (hrest : ¬ (last = .created ∧ rest = [""]))
      (he : fs.entryAt? (dir.child name) = some (.symlink target)) (hkept : ¬ (rest = [] ∧ last = .kept))
      (h : Way fs last left (if (Path.ofString target).isAbsolute then .root else dir)
        (targetNames target ++ rest) place) : Way fs last (left + 1) dir (name :: rest) place

theorem Way.of_locateFrom {place : Place} (h : fs.locateFrom last links dir names = .ok place) :
    fs.Way last links dir names place := by
  fun_induction locateFrom fs last links dir names with
  | case1 =>
    cases h
    exact .here
  | case2 _ _ _ ih => exact .up (ih h)
  | case3 _ _ _ _ _ hskip ih => exact .skip hskip (ih h)
  | case5 _ _ _ hup hskip _ he | case8 _ _ _ hup hskip _ _ he =>
    cases h
    exact .arrive ⟨hup, not_or.mp hskip⟩ he trivial
  | case7 _ _ _ _ hup hskip hrest _ he ih => exact .enter ⟨hup, not_or.mp hskip⟩ hrest he (ih h)
  | case10 _ _ _ _ hup hskip _ _ _ he hkept =>
    cases h
    rw [hkept.1]
    exact .arrive ⟨hup, not_or.mp hskip⟩ he hkept.2
  | case12 _ _ _ hup hskip hrest _ _ he hkept _ _ ih =>
    exact .follow ⟨hup, not_or.mp hskip⟩ hrest he hkept (ih h)
  | _ => cases h

theorem Way.locateFrom {place : Place} (h : fs.Way last links dir names place) :
    fs.locateFrom last links dir names = .ok place := by
  induction h with
  | here => rw [FileSystem.locateFrom]
  | up _ ih => rw [FileSystem.locateFrom, if_pos rfl, ih]
  | @skip _ _ name _ _ hname _ ih =>
    have hup : name ≠ ".." := by
      rcases hname with rfl | rfl
      · decide
      · decide
    rw [FileSystem.locateFrom, if_neg hup, if_pos hname, ih]
  | @arrive _ _ _ entry hname he hend =>
    rw [locateFrom_plain hname (by simp), he]
    cases entry with
    | none => exact if_pos rfl
    | some e =>
      cases e with
      | file content => exact if_pos rfl
      | directory => exact hend.elim
      | symlink target => exact if_pos ⟨rfl, hend⟩
  | enter hname hrest he _ ih => rw [locateFrom_plain hname hrest, he, ih]
  | follow hname hrest he hkept _ ih =>
    rw [locateFrom_plain hname hrest, he]
    exact (if_neg hkept).trans ih

theorem locateFrom_eq_ok_iff {place : Place} :
    fs.locateFrom last links dir names = .ok place ↔ fs.Way last links dir names place :=
  ⟨Way.of_locateFrom, Way.locateFrom⟩

theorem entryAt?_of_locateFrom {place : Place} (h : fs.locateFrom last links dir names = .ok place)
    (hne : place.entry ≠ some .directory) : fs.entryAt? place.location = place.entry := by
  rw [locateFrom_eq_ok_iff] at h
  induction h with
  | here => exact absurd rfl hne
  | up _ ih | skip _ _ ih | enter _ _ _ _ ih | follow _ _ _ _ _ ih => exact ih hne
  | arrive _ he => exact he

/-- A link that is followed is not what a path leads to. -/
theorem not_symlink_of_locateFrom {place : Place}
    (h : fs.locateFrom last links dir names = .ok place) (hlast : last ≠ .kept) (target : String) :
    place.entry ≠ some (.symlink target) := by
  rw [locateFrom_eq_ok_iff] at h
  induction h with
  | here => exact nofun
  | up _ ih | skip _ _ ih | enter _ _ _ _ ih | follow _ _ _ _ _ ih => exact ih
  | arrive _ _ hend => exact hend.not_symlink hlast target

/-- What is not a link in the end is where the path leads if links are followed. -/
theorem locateFrom_followed {place : Place} (h : fs.locateFrom last links dir names = .ok place)
    (hlink : ∀ target, place.entry ≠ some (.symlink target)) :
    fs.locateFrom .followed links dir names = .ok place := by
  rw [locateFrom_eq_ok_iff] at h ⊢
  induction h with
  | here => exact .here
  | up _ ih => exact .up (ih hlink)
  | skip hname _ ih => exact .skip hname (ih hlink)
  | arrive hname he hend => exact .arrive hname he (hend.of_not_symlink hlink)
  | enter hname _ he _ ih => exact .enter hname (by simp) he (ih hlink)
  | follow hname _ he _ _ ih => exact .follow hname (by simp) he (by simp) (ih hlink)

/-- A last name leads to what its directory has by that name, unless that is a link to be followed. -/
theorem locateFrom_singleton {name : String} (hplain : IsPlain name)
    (h : last = .kept ∨ ∀ target, fs.entryAt? (dir.child name) ≠ some (.symlink target)) :
    fs.locateFrom last links dir [name] =
      .ok ⟨dir.child name, fs.entryAt? (dir.child name), links⟩ := by
  rw [locateFrom_plain hplain (by simp)]
  split
  · rename_i he
    rw [if_pos rfl, he]
  · rename_i he
    rw [locateFrom, he]
  · rename_i content he
    rw [if_pos rfl, he]
  · rename_i target he
    rw [if_pos ⟨rfl, h.resolve_right fun hne => hne target he⟩, he]

/-- The step from a place on the way to a name in it. -/
def stepInto (fs : FileSystem) (last : Last) (name : String) (place : Place) :
    Except FileCause Place :=
  match place.entry with
  | some .directory => fs.locateFrom last place.linksLeft place.location [name]
  | none => .error .notFound
  | some _ => .error .notADirectory

/-- The way to one more name; a file that is to be made has a name of its own. -/
theorem locateFrom_append {name : String} (h : IsPlain name ∨ last ≠ .created) :
    fs.locateFrom last links dir (names ++ [name]) =
      (fs.locateFrom .followed links dir names).bind (fs.stepInto last name) := by
  have hne (rest : List String) : rest ++ [name] ≠ [] := by simp
  have hend (rest : List String) : ¬ (last = .created ∧ rest ++ [name] = [""]) := by
    rintro ⟨hlast, heq⟩
    rcases h with hplain | hcreated
    · exact hplain.append_ne rest heq
    · exact hcreated hlast
  fun_induction locateFrom fs .followed links dir names with
  | case1 => rfl
  | case2 links dir rest ih => rw [List.cons_append, locateFrom, if_pos rfl, ih]
  | case3 links dir n rest hup hskip ih =>
    rw [List.cons_append, locateFrom, if_neg hup, if_pos hskip, ih]
  | case4 _ _ _ _ _ _ hcreated => exact absurd hcreated.1 nofun
  | case5 links dir n hup hskip _ he _ | case6 links dir n _ hup hskip _ _ he _ =>
    rw [List.cons_append, locateFrom_plain ⟨hup, not_or.mp hskip⟩ (hend _)]
    simp only [show fs.entryAt? (dir.child n) = none from he, if_neg (hne _)]
    rfl
  | case7 links dir n rest hup hskip _ _ he ih =>
    rw [List.cons_append, locateFrom_plain ⟨hup, not_or.mp hskip⟩ (hend _)]
    simp only [show fs.entryAt? (dir.child n) = some .directory from he]
    exact ih
  | case8 links dir n hup hskip _ content he _ | case9 links dir n _ hup hskip _ _ content he _ =>
    rw [List.cons_append, locateFrom_plain ⟨hup, not_or.mp hskip⟩ (hend _)]
    simp only [show fs.entryAt? (dir.child n) = some (.file content) from he, if_neg (hne _)]
    rfl
  | case10 _ _ _ _ _ _ _ _ _ _ hkept => exact absurd hkept.2 nofun
  | case11 dir n rest hup hskip _ _ target he _ =>
    rw [List.cons_append, locateFrom_plain ⟨hup, not_or.mp hskip⟩ (hend _)]
    simp only [show fs.entryAt? (dir.child n) = some (.symlink target) from he,
      if_neg fun hc => hne _ (And.left hc)]
    rfl
  | case12 dir n rest hup hskip _ _ target he _ left _ ih =>
    rw [List.cons_append, locateFrom_plain ⟨hup, not_or.mp hskip⟩ (hend _)]
    simp only [show fs.entryAt? (dir.child n) = some (.symlink target) from he,
      if_neg fun hc => hne _ (And.left hc)]
    rw [List.append_assoc] at ih
    exact ih

/-! ### Ways that stay -/

/-- Whether everything of one file system but its files is in another. -/
structure Keeps (fs fs' : FileSystem) : Prop where
  workingDir : fs'.workingDir = fs.workingDir
  entry {l : Location} {e : Entry} (h : fs.entryAt? l = some e) (hfile : ∀ content, e ≠ .file content) :
    fs'.entryAt? l = some e

namespace Keeps

variable {fs' fs'' : FileSystem}

theorem refl (fs : FileSystem) : Keeps fs fs := ⟨rfl, fun h _ => h⟩

theorem trans (h : Keeps fs fs') (h' : Keeps fs' fs'') : Keeps fs fs'' :=
  ⟨h'.workingDir.trans h.workingDir, fun he hfile => h'.entry (h.entry he hfile) hfile⟩

/-- The way to a directory stays. -/
theorem locateFrom (h : Keeps fs fs') {place : Place} (hdir : place.entry = some .directory)
    (hloc : fs.locateFrom last links dir names = .ok place) :
    fs'.locateFrom last links dir names = .ok place := by
  rw [locateFrom_eq_ok_iff] at hloc ⊢
  induction hloc with
  | here => exact .here
  | up _ ih => exact .up (ih hdir)
  | skip hname _ ih => exact .skip hname (ih hdir)
  | arrive _ _ hend =>
    obtain rfl := hdir
    exact hend.elim
  | enter hname hrest he _ ih => exact .enter hname hrest (h.entry he nofun) (ih hdir)
  | follow hname hrest he hkept _ ih => exact .follow hname hrest (h.entry he nofun) hkept (ih hdir)

theorem locate (h : Keeps fs fs') {p : Path} {place : Place} (hdir : place.entry = some .directory)
    (hloc : fs.locate last p = .ok place) : fs'.locate last p = .ok place := by
  rw [FileSystem.locate, h.workingDir]
  exact h.locateFrom hdir hloc

end Keeps

/-! ### Names in a directory -/

/-- Whether a path leads to a directory, where it is found after so many links. -/
def IsDirectoryAt (fs : FileSystem) (p : Path) (l : Location) (left : Nat) : Prop :=
  fs.locate .followed p = .ok ⟨l, some .directory, left⟩

/-- Whether a path denotes a symbolic link. -/
def isLink (fs : FileSystem) (p : Path) : Bool :=
  match fs.locate .kept p with
  | .ok ⟨_, some (.symlink _), _⟩ => true
  | _ => false

variable {p : Path} {name : String}

theorem locate_child (h : IsPlain name ∨ last ≠ .created) :
    fs.locate last (p.child name) = (fs.locate .followed p).bind (fs.stepInto last name) :=
  locateFrom_append h

theorem locate_child_of_directory (hplain : IsPlain name) {l : Location} {left : Nat}
    (hdir : fs.IsDirectoryAt p l left) :
    fs.locate last (p.child name) = fs.locateFrom last left l [name] := by
  rw [locate_child (.inl hplain), hdir]
  rfl

/-- What is in a directory by a name, where that is no link. -/
theorem locate_child_eq (hplain : IsPlain name) {l : Location} {left : Nat}
    (hdir : fs.IsDirectoryAt p l left)
    (hlink : ∀ target, fs.entryAt? (l.child name) ≠ some (.symlink target)) :
    fs.locate last (p.child name) = .ok ⟨l.child name, fs.entryAt? (l.child name), left⟩ := by
  rw [locate_child_of_directory hplain hdir, locateFrom_singleton hplain (.inr hlink)]

theorem isLink_child_of_not_symlink (hplain : IsPlain name) {l : Location} {left : Nat}
    (hdir : fs.IsDirectoryAt p l left)
    (hlink : ∀ target, fs.entryAt? (l.child name) ≠ some (.symlink target)) :
    fs.isLink (p.child name) = false := by
  rw [isLink, locate_child_eq hplain hdir hlink]
  generalize fs.entryAt? (l.child name) = entry at hlink
  match entry with
  | none | some (.file _) | some .directory => rfl
  | some (.symlink target) => exact absurd rfl (hlink target)

theorem isDirectoryAt_of_locate_child (hname : IsPlain name ∨ last ≠ .created) {place : Place}
    (h : fs.locate last (p.child name) = .ok place) : ∃ l left, fs.IsDirectoryAt p l left := by
  rw [locate_child hname] at h
  cases hp : fs.locate .followed p with
  | error cause =>
    rw [hp] at h
    cases h
  | ok found =>
    rw [hp] at h
    obtain ⟨l, entry, left⟩ := found
    match entry with
    | some .directory => exact ⟨l, left, hp⟩
    | none => cases h
    | some (.file _) => cases h
    | some (.symlink _) => cases h

theorem isLink_child (hplain : IsPlain name) {l : Location} {left : Nat}
    (hdir : fs.IsDirectoryAt p l left) {target : String}
    (h : fs.entryAt? (l.child name) = some (.symlink target)) : fs.isLink (p.child name) = true := by
  rw [isLink, locate_child_of_directory hplain hdir, locateFrom_singleton hplain (.inl rfl), h]

/-! ### Computing -/

/-- `locateFrom` with a bound on its steps, by which it can be computed. -/
def locateWithin (fs : FileSystem) (last : Last) :
    (bound links : Nat) → (dir : Location) → (names : List String) → Option (Except FileCause Place)
  | 0, _, _, _ => none
  | _ + 1, links, dir, [] => some (.ok ⟨dir, some .directory, links⟩)
  | bound + 1, links, dir, name :: rest =>
    if name = ".." then fs.locateWithin last bound links dir.parent rest
    else if name = "." ∨ name = "" then fs.locateWithin last bound links dir rest
    else if last = .created ∧ rest = [""] then some (.error .isADirectory)
    else
      match fs.entryAt? (dir.child name) with
      | none => some (if rest = [] then .ok ⟨dir.child name, none, links⟩ else .error .notFound)
      | some .directory => fs.locateWithin last bound links (dir.child name) rest
      | some (.file content) =>
        some (if rest = [] then .ok ⟨dir.child name, some (.file content), links⟩
          else .error .notADirectory)
      | some (.symlink target) =>
        if rest = [] ∧ last = .kept then some (.ok ⟨dir.child name, some (.symlink target), links⟩)
        else
          match links with
          | 0 => some (.error .tooManyLinks)
          | left + 1 => fs.locateWithin last bound left
              (if (Path.ofString target).isAbsolute then .root else dir) (targetNames target ++ rest)

theorem locateFrom_of_locateWithin (bound : Nat) {result : Except FileCause Place}
    (h : fs.locateWithin last bound links dir names = some result) :
    fs.locateFrom last links dir names = result := by
  fun_induction locateWithin fs last bound links dir names with
  | case1 => cases h
  | case2 =>
    cases h
    rw [locateFrom]
  | case3 _ _ _ _ ih =>
    rw [locateFrom, if_pos rfl]
    exact ih h
  | case4 _ _ _ _ _ hup hskip ih =>
    rw [locateFrom, if_neg hup, if_pos hskip]
    exact ih h
  | case5 _ _ _ _ _ hup hskip hcreated =>
    cases h
    rw [locateFrom, if_neg hup, if_neg hskip, if_pos hcreated]
  | case6 _ _ _ _ _ hup hskip hcreated he =>
    cases h
    rw [locateFrom_plain ⟨hup, not_or.mp hskip⟩ hcreated, he]
  | case7 _ _ _ _ _ hup hskip hcreated he ih =>
    rw [locateFrom_plain ⟨hup, not_or.mp hskip⟩ hcreated, he]
    exact ih h
  | case8 _ _ _ _ _ hup hskip hcreated _ he =>
    cases h
    rw [locateFrom_plain ⟨hup, not_or.mp hskip⟩ hcreated, he]
  | case9 _ _ _ _ _ hup hskip hcreated _ he hkept =>
    cases h
    rw [locateFrom_plain ⟨hup, not_or.mp hskip⟩ hcreated, he]
    exact if_pos hkept
  | case10 _ _ _ _ hup hskip hcreated _ he hkept =>
    cases h
    rw [locateFrom_plain ⟨hup, not_or.mp hskip⟩ hcreated, he]
    exact if_neg hkept
  | case11 _ _ _ _ hup hskip hcreated _ he hkept _ ih =>
    rw [locateFrom_plain ⟨hup, not_or.mp hskip⟩ hcreated, he]
    dsimp only
    rw [if_neg hkept]
    exact ih h

end RouteInventory.FileSystem
