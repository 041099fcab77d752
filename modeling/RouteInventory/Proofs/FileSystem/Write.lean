import RouteInventory.Inventory.Artifacts
import RouteInventory.Proofs.FileSystem.Locate

/-!
# What writing leaves

A write puts one file at one location, or what is stored of it before the medium fails, or nothing
(`Writes`). Files written by different names into one directory stand side by side: each of them is
read back, and nothing else has changed.
-/

namespace RouteInventory.FileSystem

variable {fs fs' : FileSystem} {p dir : Path} {content : Text.Bytes} {medium : Medium}

/-- Whether a file can be opened for writing where a path leads. -/
def Opens (fs : FileSystem) (medium : Medium) (p : Path) : Prop :=
  medium.refuses p = none ∧ ∃ place, fs.locate .created p = .ok place ∧ place.entry ≠ some .directory

/-- What a write comes to: nothing is changed as no file can be opened, or where there was a file or
nothing there is now a file that holds all that is written, or just a beginning. -/
inductive Writes (medium : Medium) (fs : FileSystem) (p : Path) (content : Text.Bytes) :
    FileSystem × Except FileFault Unit → Prop
  | refused (cause : FileCause) (h : ¬ fs.Opens medium p) :
      Writes medium fs p content (fs, .error ⟨cause, p.text⟩)
  | stored {place : Place} (hloc : fs.locate .created p = .ok place)
      (hfile : place.entry ≠ some .directory) :
      Writes medium fs p content (fs.insert place.location (.file content), .ok ())
  | cut {place : Place} {kept : Nat} {message : String} (hloc : fs.locate .created p = .ok place)
      (hfile : place.entry ≠ some .directory) (hcut : medium.cuts p = some (kept, message)) :
      Writes medium fs p content
        (fs.insert place.location (.file (content.take kept)), .error ⟨.medium message, p.text⟩)

theorem not_opens_of_error {cause : FileCause} (h : fs.locate .created p = .error cause) :
    ¬ fs.Opens medium p := by
  rintro ⟨-, place, hloc, -⟩
  rw [h] at hloc
  cases hloc

theorem not_opens_of_directory {l : Location} {left : Nat}
    (h : fs.locate .created p = .ok ⟨l, some .directory, left⟩) : ¬ fs.Opens medium p := by
  rintro ⟨-, place, hloc, hfile⟩
  obtain rfl := Except.ok.inj (h.symm.trans hloc)
  exact hfile rfl

theorem not_opens_of_refuses {message : String} (h : medium.refuses p = some message) :
    ¬ fs.Opens medium p := fun hopens => nomatch h.symm.trans hopens.1

theorem writes_write (fs : FileSystem) (p : Path) (content : Text.Bytes) (medium : Medium) :
    Writes medium fs p content (fs.write p content medium) := by
  unfold write
  split
  · next hloc => exact .refused _ (not_opens_of_directory hloc)
  · rename_i hfile hloc
    split
    · next hrefuses => exact .refused _ (not_opens_of_refuses hrefuses)
    · next hcut => exact .cut hloc hfile hcut
    · exact .stored hloc hfile
  · next hloc => exact .refused _ (not_opens_of_error hloc)

/-- Where a file can be opened, it depends on the medium alone what is stored. -/
theorem write_of_locate {place : Place} (hloc : fs.locate .created p = .ok place)
    (hfile : place.entry ≠ some .directory) (hrefuses : medium.refuses p = none)
    (content : Text.Bytes) : fs.write p content medium =
      (medium.cuts p).elim (fs.insert place.location (.file content), .ok ()) fun cut =>
        (fs.insert place.location (.file (content.take cut.1)), .error ⟨.medium cut.2, p.text⟩) := by
  obtain ⟨l, entry, left⟩ := place
  rw [write, hloc]
  rcases entry with - | _ | _ | -
  on_goal 4 => exact absurd rfl hfile
  all_goals
    cases hcuts : medium.cuts p <;> simp only [hrefuses, Option.elim]

theorem write_eq_stored {place : Place} (hloc : fs.locate .created p = .ok place)
    (hfile : place.entry ≠ some .directory) (hrefuses : medium.refuses p = none)
    (hcuts : medium.cuts p = none) (content : Text.Bytes) :
    fs.write p content medium = (fs.insert place.location (.file content), .ok ()) := by
  rw [write_of_locate hloc hfile hrefuses, hcuts, Option.elim_none]

theorem write_eq_cut {place : Place} {kept : Nat} {message : String}
    (hloc : fs.locate .created p = .ok place) (hfile : place.entry ≠ some .directory)
    (hrefuses : medium.refuses p = none) (hcuts : medium.cuts p = some (kept, message))
    (content : Text.Bytes) : fs.write p content medium =
      (fs.insert place.location (.file (content.take kept)), .error ⟨.medium message, p.text⟩) := by
  rw [write_of_locate hloc hfile hrefuses, hcuts, Option.elim_some]

/-- A successful write puts a file where there was a file or nothing. -/
theorem write_ok (h : fs.write p content medium = (fs', .ok ())) :
    ∃ place, fs.locate .created p = .ok place ∧ place.entry ≠ some .directory ∧
      fs' = fs.insert place.location (.file content) := by
  have hwrites := writes_write fs p content medium
  rw [h] at hwrites
  cases hwrites with
  | stored hloc hfile => exact ⟨_, hloc, hfile, rfl⟩

theorem keeps_write (h : fs.write p content medium = (fs', .ok ())) : Keeps fs fs' := by
  obtain ⟨⟨l, e, left⟩, hloc, hdir, rfl⟩ := write_ok h
  have he : fs.entryAt? l = e := entryAt?_of_locateFrom hloc hdir
  refine ⟨rfl, fun {k d} hk hfile => ?_⟩
  have hroot : l ≠ .root := by
    rintro rfl
    exact hdir he.symm
  rw [entryAt?_insert hroot, if_neg, hk]
  rintro rfl
  rw [hk] at he
  cases d with
  | file content => exact hfile content rfl
  | directory => exact hdir he.symm
  | symlink target => exact not_symlink_of_locateFrom hloc nofun target he.symm

/-- A file can be written by a name into a directory that has none but a file by it. -/
theorem write_child {name : String} (hplain : IsPlain name) {l : Location} {left : Nat}
    (hdir : fs.IsDirectoryAt dir l left)
    (hlink : ∀ target, fs.entryAt? (l.child name) ≠ some (.symlink target))
    (hentry : fs.entryAt? (l.child name) ≠ some .directory) (content : Text.Bytes) :
    fs.write (dir.child name) content = (fs.insert (l.child name) (.file content), .ok ()) :=
  write_eq_stored (locate_child_eq hplain hdir hlink) hentry rfl rfl content

theorem write_child_of_directory {name : String} (hplain : IsPlain name) {l : Location} {left : Nat}
    (hdir : fs.IsDirectoryAt dir l left) (hentry : fs.entryAt? (l.child name) = some .directory)
    (content : Text.Bytes) :
    fs.write (dir.child name) content = (fs, .error ⟨.isADirectory, (dir.child name).text⟩) := by
  have hlink (target : String) : fs.entryAt? (l.child name) ≠ some (.symlink target) := by
    rw [hentry]
    exact nofun
  rw [write, locate_child_eq hplain hdir hlink, hentry]

theorem entryAt?_write_child {name : String} (hplain : IsPlain name) {l : Location} {left : Nat}
    (hdir : fs.IsDirectoryAt dir l left)
    (hlink : ∀ target, fs.entryAt? (l.child name) ≠ some (.symlink target))
    (h : fs.write (dir.child name) content medium = (fs', .ok ())) (k : Location) :
    fs'.entryAt? k = if k = l.child name then some (.file content) else fs.entryAt? k := by
  obtain ⟨place, hloc, -, rfl⟩ := write_ok h
  rw [locate_child_eq hplain hdir hlink] at hloc
  obtain rfl := Except.ok.inj hloc
  exact entryAt?_insert (by simp [Location.child, Location.root])

theorem child_inj {l : Location} {a b : String} : l.child a = l.child b ↔ a = b := by
  simp [Location.child]

theorem writeAll_cons {a : Artifact} {rest : List Artifact} {written : List Path}
    (h : fs.writeAll dir (a :: rest) = (fs', .ok written)) :
    ∃ next written', fs.write (dir.child a.name) (Text.Utf8.encode a.text.toList) = (next, .ok ()) ∧
      next.writeAll dir rest = (fs', .ok written') ∧ written = dir.child a.name :: written' := by
  rw [writeAll] at h
  split at h
  · cases h
  · rename_i next hwrite
    split at h
    · cases h
    · rename_i last written' hrest
      obtain ⟨rfl, hwritten⟩ := Prod.mk.inj h
      exact ⟨next, written', hwrite, hrest, (Except.ok.inj hwritten).symm⟩

theorem keeps_writeAll {artifacts : List Artifact} {written : List Path}
    (h : fs.writeAll dir artifacts = (fs', .ok written)) : Keeps fs fs' := by
  induction artifacts generalizing fs written with
  | nil =>
    cases h
    exact .refl _
  | cons a rest ih =>
    obtain ⟨next, written', hwrite, hrest, -⟩ := writeAll_cons h
    exact (keeps_write hwrite).trans (ih hrest)

section Artifacts

variable {artifacts : List Artifact} {written : List Path} {l : Location} {left : Nat}

theorem not_symlink_of_keeps {name : String} (hplain : IsPlain name) (hkeeps : Keeps fs fs')
    (hdir : fs.IsDirectoryAt dir l left) (hlink : fs'.isLink (dir.child name) = false)
    (target : String) : fs.entryAt? (l.child name) ≠ some (.symlink target) := by
  intro h
  have hdir' : fs'.IsDirectoryAt dir l left := hkeeps.locate rfl hdir
  rw [isLink_child hplain hdir' (hkeeps.entry h nofun)] at hlink
  cases hlink

/-- Writing files into a directory changes nothing but these files. -/
theorem entryAt?_writeAll_of_ne (hdir : fs.IsDirectoryAt dir l left)
    (hplain : ∀ a ∈ artifacts, IsPlain a.name)
    (h : fs.writeAll dir artifacts = (fs', .ok written))
    (hlinks : ∀ a ∈ artifacts, fs'.isLink (dir.child a.name) = false) {k : Location}
    (hk : ∀ a ∈ artifacts, k ≠ l.child a.name) : fs'.entryAt? k = fs.entryAt? k := by
  induction artifacts generalizing fs written with
  | nil =>
    cases h
    rfl
  | cons a rest ih =>
    obtain ⟨next, written', hwrite, hrest, -⟩ := writeAll_cons h
    obtain ⟨hka, hkrest⟩ := List.forall_mem_cons.mp hk
    obtain ⟨hpa, hprest⟩ := List.forall_mem_cons.mp hplain
    obtain ⟨hla, hlrest⟩ := List.forall_mem_cons.mp hlinks
    have hdir' : next.IsDirectoryAt dir l left := (keeps_write hwrite).locate rfl hdir
    have hlink := not_symlink_of_keeps hpa (keeps_writeAll h) hdir hla
    rw [ih hdir' hprest hrest hlrest hkrest, entryAt?_write_child hpa hdir hlink hwrite, if_neg hka]

/-- Each of the files that are written into a directory by different names is there in the end. -/
theorem entryAt?_writeAll_of_mem (hdir : fs.IsDirectoryAt dir l left)
    (hplain : ∀ a ∈ artifacts, IsPlain a.name) (hdistinct : (artifacts.map (·.name)).Nodup)
    (h : fs.writeAll dir artifacts = (fs', .ok written))
    (hlinks : ∀ a ∈ artifacts, fs'.isLink (dir.child a.name) = false) {a : Artifact}
    (ha : a ∈ artifacts) :
    fs'.entryAt? (l.child a.name) = some (.file (Text.Utf8.encode a.text.toList)) := by
  induction artifacts generalizing fs written with
  | nil => cases ha
  | cons b rest ih =>
    obtain ⟨next, written', hwrite, hrest, -⟩ := writeAll_cons h
    obtain ⟨hpb, hprest⟩ := List.forall_mem_cons.mp hplain
    obtain ⟨hlb, hlrest⟩ := List.forall_mem_cons.mp hlinks
    obtain ⟨hnew, hdrest⟩ := List.nodup_cons.mp hdistinct
    have hdir' : next.IsDirectoryAt dir l left := (keeps_write hwrite).locate rfl hdir
    rcases List.mem_cons.mp ha with rfl | ha
    · have hlink := not_symlink_of_keeps hpb (keeps_writeAll h) hdir hlb
      have hne : ∀ b ∈ rest, l.child a.name ≠ l.child b.name :=
        fun b hb heq => hnew (List.mem_map.mpr ⟨b, hb, (child_inj.mp heq).symm⟩)
      rw [entryAt?_writeAll_of_ne hdir' hprest hrest hlrest hne,
        entryAt?_write_child hpb hdir hlink hwrite, if_pos rfl]
    · exact ih hdir' hprest hdrest hrest hlrest ha

/-- The files that are written by different names into a directory are read back from there. -/
theorem readBytes_writeAll (hplain : ∀ a ∈ artifacts, IsPlain a.name)
    (hdistinct : (artifacts.map (·.name)).Nodup)
    (h : fs.writeAll dir artifacts = (fs', .ok written))
    (hlinks : ∀ a ∈ artifacts, fs'.isLink (dir.child a.name) = false) {a : Artifact}
    (ha : a ∈ artifacts) :
    fs'.readBytes (dir.child a.name) = .ok (Text.Utf8.encode a.text.toList) := by
  obtain ⟨l, left, hdir⟩ : ∃ l left, fs.IsDirectoryAt dir l left := by
    cases artifacts with
    | nil => cases ha
    | cons b rest =>
      obtain ⟨next, written', hwrite, -⟩ := writeAll_cons h
      obtain ⟨place, hloc, -⟩ := write_ok hwrite
      exact isDirectoryAt_of_locate_child (.inl (hplain b (List.mem_cons_self ..))) hloc
  have hfile := entryAt?_writeAll_of_mem hdir hplain hdistinct h hlinks ha
  have hdir' : fs'.IsDirectoryAt dir l left := (keeps_writeAll h).locate rfl hdir
  have hlink (target : String) : fs'.entryAt? (l.child a.name) ≠ some (.symlink target) := by
    rw [hfile]
    exact nofun
  rw [readBytes, locate_child_eq (hplain a ha) hdir' hlink, hfile]

/-- Whether a name in a directory is free for a file: there is nothing by it, or a file. -/
def IsFree (fs : FileSystem) (l : Location) (name : String) : Prop :=
  ∀ e, fs.entryAt? (l.child name) = some e → ∃ content, e = .file content

theorem IsFree.not_symlink {name : String} (h : fs.IsFree l name) (target : String) :
    fs.entryAt? (l.child name) ≠ some (.symlink target) := fun he => nomatch h _ he

theorem IsFree.not_directory {name : String} (h : fs.IsFree l name) :
    fs.entryAt? (l.child name) ≠ some .directory := fun he => nomatch h _ he

theorem IsFree.insert {name : String} (h : fs.IsFree l name) (other : String)
    (content : Text.Bytes) : (fs.insert (l.child other) (.file content)).IsFree l name := by
  intro e he
  rw [entryAt?_insert (by simp [Location.child, Location.root])] at he
  split at he
  · exact ⟨content, (Option.some.inj he).symm⟩
  · exact h e he

/-- Files can be written into a directory by names that are free. -/
theorem exists_writeAll (hdir : fs.IsDirectoryAt dir l left) (artifacts : List Artifact)
    (hplain : ∀ a ∈ artifacts, IsPlain a.name) (hfree : ∀ a ∈ artifacts, fs.IsFree l a.name) :
    ∃ fs' written, fs.writeAll dir artifacts = (fs', .ok written) ∧
      ∀ name, fs.IsFree l name → fs'.IsFree l name := by
  induction artifacts generalizing fs with
  | nil => exact ⟨fs, [], rfl, fun _ h => h⟩
  | cons a rest ih =>
    obtain ⟨hpa, hprest⟩ := List.forall_mem_cons.mp hplain
    obtain ⟨hfa, hfrest⟩ := List.forall_mem_cons.mp hfree
    have hwrite := write_child hpa hdir hfa.not_symlink hfa.not_directory
      (Text.Utf8.encode a.text.toList)
    obtain ⟨fs', written, hrest, hkeep⟩ := ih ((keeps_write hwrite).locate rfl hdir) hprest
      fun b hb => (hfrest b hb).insert _ _
    refine ⟨fs', dir.child a.name :: written, ?_, fun name h => hkeep name (h.insert _ _)⟩
    rw [writeAll, hwrite]
    simp only [hrest]

end Artifacts

end RouteInventory.FileSystem
