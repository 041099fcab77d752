import RouteInventory.Proofs.FileSystem.Write

/-!
# Ways past a new entry

Something that is put where there was a file or nothing is on no way to another place: what leads
elsewhere still leads there, and what leads to the new entry led to its place before. So a write
changes what is at one location, for every path that leads there, and for no other
(`at?_insert_created`).
-/

namespace RouteInventory.FileSystem

variable {fs fs' : FileSystem} {last : Last} {links : Nat} {dir l : Location} {names : List String}
  {place : Place} {e : Entry} {content : Text.Bytes}

/-- Whether there is nothing at a location, or a file. -/
def IsVacant (fs : FileSystem) (l : Location) : Prop :=
  ∀ e, fs.entryAt? l = some e → ∃ content, e = .file content

namespace IsVacant

theorem ne_root (h : fs.IsVacant l) : l ≠ .root := by
  rintro rfl
  exact nomatch h .directory rfl

theorem entryAt?_insert_of_ne (h : fs.IsVacant l) {k : Location} (hk : k ≠ l) :
    (fs.insert l e).entryAt? k = fs.entryAt? k := by
  rw [entryAt?_insert h.ne_root, if_neg hk]

theorem entryAt?_insert_self (h : fs.IsVacant l) : (fs.insert l e).entryAt? l = some e := by
  rw [entryAt?_insert h.ne_root, if_pos rfl]

theorem keeps_insert (h : fs.IsVacant l) (e : Entry) : Keeps fs (fs.insert l e) := by
  refine ⟨rfl, fun {k d} hk hfile => ?_⟩
  rw [h.entryAt?_insert_of_ne, hk]
  rintro rfl
  obtain ⟨content, rfl⟩ := h d hk
  exact hfile content rfl

theorem isEnd (h : fs.IsVacant l) (last : Last) : IsEnd last (fs.entryAt? l) := by
  cases hl : fs.entryAt? l with
  | none => exact trivial
  | some e =>
    obtain ⟨content, rfl⟩ := h e hl
    exact trivial

/-- What leads elsewhere still leads there. -/
theorem locateFrom_insert_of_ne (h : fs.IsVacant l) (e : Entry)
    (hloc : fs.locateFrom last links dir names = .ok place) (hne : place.location ≠ l) :
    (fs.insert l e).locateFrom last links dir names = .ok place := by
  have hkeeps := h.keeps_insert e
  rw [locateFrom_eq_ok_iff] at hloc ⊢
  induction hloc with
  | here => exact .here
  | up _ ih => exact .up (ih hne)
  | skip hname _ ih => exact .skip hname (ih hne)
  | arrive hname he hend => exact .arrive hname ((h.entryAt?_insert_of_ne hne).trans he) hend
  | enter hname hrest he _ ih => exact .enter hname hrest (hkeeps.entry he nofun) (ih hne)
  | follow hname hrest he hkept _ ih =>
    exact .follow hname hrest (hkeeps.entry he nofun) hkept (ih hne)

/-- What leads to the place of a new entry leads to it. -/
theorem locateFrom_insert_self (h : fs.IsVacant l) (he : ∀ target, e ≠ .symlink target)
    (hloc : fs.locateFrom last links dir names = .ok place) (hl : place.location = l)
    (hdir : place.entry ≠ some .directory) :
    (fs.insert l e).locateFrom last links dir names = .ok ⟨l, some e, place.linksLeft⟩ := by
  have hkeeps := h.keeps_insert e
  rw [locateFrom_eq_ok_iff] at hloc ⊢
  induction hloc with
  | here => exact absurd rfl hdir
  | up _ ih => exact .up (ih hl hdir)
  | skip hname _ ih => exact .skip hname (ih hl hdir)
  | arrive hname =>
    obtain rfl := hl
    cases e with
    | file content => exact .arrive hname h.entryAt?_insert_self trivial
    | directory => exact .enter hname (by simp) h.entryAt?_insert_self .here
    | symlink target => exact absurd rfl (he target)
  | enter hname hrest hk _ ih => exact .enter hname hrest (hkeeps.entry hk nofun) (ih hl hdir)
  | follow hname hrest hk hkept _ ih =>
    exact .follow hname hrest (hkeeps.entry hk nofun) hkept (ih hl hdir)

theorem entryAt?_of_insert_file (h : fs.IsVacant l) {k : Location}
    (hk : (fs.insert l (.file content)).entryAt? k = some e) (hfile : ∀ content, e ≠ .file content) :
    fs.entryAt? k = some e := by
  rw [← hk, h.entryAt?_insert_of_ne]
  rintro rfl
  rw [h.entryAt?_insert_self] at hk
  exact hfile content (Option.some.inj hk).symm

/-- A new file is at the end of a way that had an end there. -/
theorem exists_way_of_insert_file (h : fs.IsVacant l)
    (hway : (fs.insert l (.file content)).Way last links dir names place) :
    ∃ place', fs.Way last links dir names place' := by
  induction hway with
  | here => exact ⟨_, .here⟩
  | up _ ih =>
    obtain ⟨place', h'⟩ := ih
    exact ⟨place', .up h'⟩
  | skip hname _ ih =>
    obtain ⟨place', h'⟩ := ih
    exact ⟨place', .skip hname h'⟩
  | @arrive _ dir name _ hname he hend =>
    by_cases hl : dir.child name = l
    · exact ⟨_, .arrive hname rfl (hl ▸ h.isEnd last)⟩
    · rw [h.entryAt?_insert_of_ne hl] at he
      exact ⟨_, .arrive hname he hend⟩
  | enter hname hrest he _ ih =>
    obtain ⟨place', h'⟩ := ih
    exact ⟨place', .enter hname hrest (h.entryAt?_of_insert_file he nofun) h'⟩
  | follow hname hrest he hkept _ ih =>
    obtain ⟨place', h'⟩ := ih
    exact ⟨place', .follow hname hrest (h.entryAt?_of_insert_file he nofun) hkept h'⟩

/-- No way is opened by a new file. -/
theorem locateFrom_insert_file (h : fs.IsVacant l) (content : Text.Bytes) {cause : FileCause}
    (hloc : fs.locateFrom last links dir names = .error cause) :
    ∃ cause, (fs.insert l (.file content)).locateFrom last links dir names = .error cause := by
  cases hnew : (fs.insert l (.file content)).locateFrom last links dir names with
  | error cause => exact ⟨cause, rfl⟩
  | ok place =>
    obtain ⟨place', hway⟩ := h.exists_way_of_insert_file (.of_locateFrom hnew)
    rw [hway.locateFrom] at hloc
    cases hloc

end IsVacant

/-! ### Rooted file systems -/

/-- Whether everything stands in a directory, and the working directory is one. -/
structure Rooted (fs : FileSystem) : Prop where
  workingDir : fs.entryAt? fs.workingDir = some .directory
  parent {l : Location} (h : fs.entryAt? l ≠ none) : fs.entryAt? l.parent = some .directory

theorem parent_child (l : Location) (name : String) : (l.child name).parent = l := by
  rw [Location.child, Location.parent, List.dropLast_concat]

variable {p q : Path}

namespace Rooted

theorem parent_of_directory (h : fs.Rooted) (hl : fs.entryAt? l = some .directory) :
    fs.entryAt? l.parent = some .directory := h.parent (by rw [hl]; exact nofun)

theorem of_entries (hworking : fs.entryAt? fs.workingDir = some .directory)
    (h : ∀ l ∈ fs.entries.map (·.1), fs.entryAt? l.parent = some .directory) : fs.Rooted := by
  refine ⟨hworking, fun {l} hl => ?_⟩
  obtain ⟨e, he⟩ := Option.ne_none_iff_exists'.mp hl
  unfold entryAt? at he
  split at he
  · next hroot =>
    subst hroot
    rfl
  · exact h l (mem_keys_of_lookup he)

theorem entryAt?_child (h : fs.Rooted) (hl : fs.entryAt? l = none) (name : String) :
    fs.entryAt? (l.child name) = none := by
  cases he : fs.entryAt? (l.child name) with
  | none => rfl
  | some e =>
    have hparent := h.parent (l := l.child name) (by rw [he]; exact nofun)
    rw [parent_child, hl] at hparent
    cases hparent

/-- A path leads to what is at its place, in a directory. -/
theorem entryAt?_of_locateFrom (h : fs.Rooted) (hdir : fs.entryAt? dir = some .directory)
    (hloc : fs.locateFrom last links dir names = .ok place) :
    fs.entryAt? place.location = place.entry ∧
      fs.entryAt? place.location.parent = some .directory := by
  rw [locateFrom_eq_ok_iff] at hloc
  induction hloc with
  | here => exact ⟨hdir, h.parent_of_directory hdir⟩
  | up _ ih => exact ih (h.parent_of_directory hdir)
  | skip _ _ ih => exact ih hdir
  | arrive _ he =>
    rw [parent_child]
    exact ⟨he, hdir⟩
  | enter _ _ he _ ih => exact ih he
  | follow _ _ _ _ _ ih =>
    refine ih ?_
    split
    · rfl
    · exact hdir

theorem entryAt?_of_locate (h : fs.Rooted) (hloc : fs.locate last p = .ok place) :
    fs.entryAt? place.location = place.entry ∧
      fs.entryAt? place.location.parent = some .directory := by
  refine h.entryAt?_of_locateFrom ?_ hloc
  split
  · rfl
  · exact h.workingDir

theorem insert (h : fs.Rooted) (hloc : fs.locate last p = .ok place)
    (hvacant : fs.IsVacant place.location) (e : Entry) : (fs.insert place.location e).Rooted := by
  refine ⟨(hvacant.keeps_insert e).entry h.workingDir nofun, fun {k} hk => ?_⟩
  refine (hvacant.keeps_insert e).entry ?_ nofun
  by_cases heq : k = place.location
  · rw [heq]
    exact (h.entryAt?_of_locate hloc).2
  · rw [hvacant.entryAt?_insert_of_ne heq] at hk
    exact h.parent hk

end Rooted

/-! ### Where paths lead -/

/-- The location that a path leads to. -/
def location? (fs : FileSystem) (p : Path) : Option Location :=
  match fs.locate .followed p with
  | .ok place => some place.location
  | .error _ => none

theorem location?_of_locate (h : fs.locate .followed p = .ok place) :
    fs.location? p = some place.location := by rw [location?, h]

theorem at?_of_locate (h : fs.locate .followed p = .ok place) : fs.at? p = place.entry := by
  rw [at?, h]

/-- A new file leaves every path leading where it led. It is what the paths to its place lead to. -/
theorem IsVacant.at?_insert_file (h : fs.IsVacant l) (hrooted : fs.Rooted) (content : Text.Bytes)
    (q : Path) : (fs.insert l (.file content)).location? q = fs.location? q ∧
      (fs.insert l (.file content)).at? q =
        if fs.location? q = some l then some (.file content) else fs.at? q := by
  cases hq : fs.locate .followed q with
  | error cause =>
    obtain ⟨cause', hcause⟩ := h.locateFrom_insert_file content hq
    have hq' : (fs.insert l (.file content)).locate .followed q = .error cause' := hcause
    have hnone : fs.location? q = none := by rw [location?, hq]
    exact ⟨by rw [location?, hnone, hq'], by rw [hnone, if_neg nofun, at?, at?, hq, hq']⟩
  | ok place =>
    rw [location?_of_locate hq]
    by_cases hl : place.location = l
    · have hdir : place.entry ≠ some .directory := by
        intro hdir
        rw [← (hrooted.entryAt?_of_locate hq).1, hl] at hdir
        exact nomatch h _ hdir
      have hq' : (fs.insert l (.file content)).locate .followed q =
          .ok ⟨l, some (.file content), place.linksLeft⟩ := h.locateFrom_insert_self nofun hq hl hdir
      exact ⟨by rw [location?_of_locate hq', hl], by rw [at?_of_locate hq', if_pos (hl ▸ rfl)]⟩
    · have hq' : (fs.insert l (.file content)).locate .followed q = .ok place :=
        h.locateFrom_insert_of_ne _ hq hl
      refine ⟨location?_of_locate hq', ?_⟩
      rw [at?_of_locate hq', at?_of_locate hq, if_neg fun heq => hl (Option.some.inj heq)]

/-- A file that is put where a path leads for writing leaves every path leading where it led. It is what
all the paths lead to that lead where this one does. -/
theorem at?_insert_created (hrooted : fs.Rooted) (hloc : fs.locate .created p = .ok place)
    (hdir : place.entry ≠ some .directory) (content : Text.Bytes) :
    (fs.insert place.location (.file content)).Rooted ∧
      ∃ l, fs.location? p = some l ∧ ∀ q,
        (fs.insert place.location (.file content)).location? q = fs.location? q ∧
        (fs.insert place.location (.file content)).at? q =
          if fs.location? q = some l then some (.file content) else fs.at? q := by
  have hlink := not_symlink_of_locateFrom hloc nofun
  have hvacant : fs.IsVacant place.location := by
    intro e he
    rw [entryAt?_of_locateFrom hloc hdir] at he
    match e with
    | .file content => exact ⟨content, rfl⟩
    | .directory => exact absurd he hdir
    | .symlink target => exact absurd he (hlink target)
  have hfollowed : fs.locate .followed p = .ok place := locateFrom_followed hloc hlink
  exact ⟨hrooted.insert hloc hvacant _, place.location, location?_of_locate hfollowed,
    hvacant.at?_insert_file hrooted content⟩

end RouteInventory.FileSystem
