import RouteInventory.FileSystem.Canonical
import RouteInventory.Proofs.FileSystem.Insert
import RouteInventory.Proofs.Path.Names
import RouteInventory.Proofs.Text.Utf8

/-!
# Ways without links

Where there are no symbolic links, a path without double dots behind other names leads to the place that it
spells: what is there is what the file system has at that place (`Straight.at?_eq`). And whatever links there
are, the names of a place at which something other than a link stands lead there (`Sound.locateFrom_below`).
-/

namespace RouteInventory

namespace Location

/-- The place that names lead to from another, by the text alone. -/
def follow (dir : Location) (names : List String) : Location :=
  ⟨(names.foldl (Path.pushName true) dir.names.reverse).reverse⟩

variable {dir : Location} {name : String} {names : List String}

@[simp] theorem follow_nil (dir : Location) : dir.follow [] = dir := by
  rw [follow, List.foldl_nil, List.reverse_reverse]

theorem follow_name (h : name ≠ "..") (names : List String) :
    dir.follow (name :: names) = (dir.child name).follow names := by
  rw [follow, List.foldl_cons, Path.pushName_of_ne h, follow, child, List.reverse_append,
    List.reverse_singleton, List.singleton_append]

theorem follow_up (h : ".." ∉ dir.names) (names : List String) :
    dir.follow (".." :: names) = dir.parent.follow names := by
  obtain ⟨inside⟩ := dir
  rcases List.eq_nil_or_concat inside with rfl | ⟨front, last, rfl⟩
  · rfl
  · have hlast : last ≠ ".." := fun heq => h (by simp [heq])
    simp only [follow, parent, List.foldl_cons, List.concat_eq_append, List.reverse_append,
      List.reverse_singleton, List.singleton_append, Path.pushName_of_top hlast, List.dropLast_concat]

theorem follow_down (h : ".." ∉ names) : dir.follow names = ⟨dir.names ++ names⟩ := by
  rw [follow, Path.foldl_pushName_down h, List.reverse_append, List.reverse_reverse,
    List.reverse_reverse]

/-- Whether a place is one that a path can spell. -/
def IsProper (l : Location) : Prop := ∀ name ∈ l.names, IsName name ∧ name ≠ ".."

namespace IsProper

variable {l : Location}

theorem not_mem (h : l.IsProper) : ".." ∉ l.names := fun hmem => (h ".." hmem).2 rfl

theorem parent (h : l.IsProper) : l.parent.IsProper := fun name hname => h name (List.dropLast_subset _ hname)

theorem child (h : l.IsProper) (hname : IsName name) (hdots : name ≠ "..") : (l.child name).IsProper := by
  intro n hn
  rcases List.mem_append.mp hn with hn | hn
  · exact h n hn
  · rw [List.mem_singleton.mp hn]
    exact ⟨hname, hdots⟩

theorem isSpelled_path (h : l.IsProper) : l.path.IsSpelled := fun name hname => (h name hname).1

theorem isNormal_path (h : l.IsProper) : l.path.IsNormal := Path.isNormal_of_not_mem h.not_mem

theorem root : Location.IsProper .root := by
  intro name hname
  exact absurd hname List.not_mem_nil

theorem start {dir : Location} (h : dir.IsProper) (p : Path) :
    (if p.isAbsolute then .root else dir : Location).IsProper := by
  split
  · exact root
  · exact h

/-- Names taken from the root by their text lead to a proper place. -/
theorem of_names {names : List String} (h : ∀ name ∈ names, IsName name) :
    Location.IsProper ⟨(Path.mk .slash names).normalize.names⟩ := by
  obtain ⟨ups, inner, heq, hdots, hups⟩ := Path.isNormal_normalize ⟨.slash, names⟩
  intro name hname
  refine ⟨Path.IsSpelled.normalize (p := ⟨.slash, names⟩) h name hname, ?_⟩
  rintro rfl
  rw [heq, hups rfl] at hname
  simp [hdots] at hname

end IsProper

end Location

theorem Path.lexical_eq_follow {workingDir : Location} (h : ".." ∉ workingDir.names) (p : Path) :
    p.lexical workingDir = (if p.isAbsolute then .root else workingDir).follow p.names := by
  unfold lexical join
  cases hp : p.isAbsolute with
  | true =>
    simp only [if_true, normalize, hp]
    rfl
  | false =>
    have habs : isAbsolute ⟨.slash, workingDir.names ++ p.names⟩ = true := rfl
    simp only [Bool.false_eq_true, if_false, normalize, Location.path, habs, List.foldl_append,
      foldl_pushName_down h, List.append_nil, Location.follow]

theorem Location.IsProper.lexical_path {l workingDir : Location} (h : l.IsProper)
    (hdir : ".." ∉ workingDir.names) : l.path.lexical workingDir = l := by
  have habs : l.path.isAbsolute = true := rfl
  rw [Path.lexical_eq_follow hdir, if_pos habs]
  exact follow_down h.not_mem

namespace FileSystem

variable {fs : FileSystem} {dir l : Location} {names : List String} {p : Path}

/-- Whether everything stands in a directory and has a proper name. -/
structure Sound (fs : FileSystem) : Prop extends Rooted fs where
  isProper {l : Location} (h : fs.entryAt? l ≠ none) : l.IsProper

/-- Whether there are no symbolic links besides. -/
structure Straight (fs : FileSystem) : Prop extends Sound fs where
  not_symlink (l : Location) (target : String) : fs.entryAt? l ≠ some (.symlink target)

theorem Rooted.directory_above (h : fs.Rooted) {front back : List String} (hback : back ≠ [])
    (hl : fs.entryAt? ⟨front ++ back⟩ ≠ none) : fs.entryAt? ⟨front⟩ = some .directory := by
  induction back using List.reverseRecOn with
  | nil => exact absurd rfl hback
  | append_singleton back name ih =>
    have hparent := h.parent hl
    rw [Location.parent, ← List.append_assoc, List.dropLast_concat] at hparent
    by_cases hnil : back = []
    · rwa [hnil, List.append_nil] at hparent
    · exact ih hnil (by rw [hparent]; simp)

theorem canonicalFrom_name (replacing : List Location) {name : String} (hname : name ≠ "..")
    (hlink : ∀ target, fs.entryAt? (dir.child name) ≠ some (.symlink target)) :
    fs.canonicalFrom replacing dir (name :: names) = fs.canonicalFrom replacing (dir.child name) names := by
  rw [canonicalFrom, if_neg hname]
  dsimp only
  split
  · next target htarget => exact absurd htarget (hlink target)
  · rfl

/-- From a proper place names lead to a proper one, and what a loop leaves of them are names. -/
theorem isProper_canonicalFrom (fs : FileSystem) (replacing : List Location) (hdir : dir.IsProper)
    (hnames : ∀ name ∈ names, IsName name) :
    match fs.canonicalFrom replacing dir names with
    | .ok l => l.IsProper
    | .error left => ∀ name ∈ left, IsName name := by
  fun_induction canonicalFrom fs replacing dir names with
  | case1 => exact hdir
  | case2 replacing dir rest ih => exact ih hdir.parent (List.forall_mem_cons.mp hnames).2
  | case3 replacing dir name rest hup here =>
    obtain ⟨hname, hrest⟩ := List.forall_mem_cons.mp hnames
    exact List.forall_mem_append.mpr ⟨fun n hn => (hdir.child hname hup n hn).1, hrest⟩
  | case4 replacing dir name rest hup here target _ _ path _ left heq ih =>
    have hleft := ih (hdir.start path) (Path.isSpelled_ofString target)
    rw [heq] at hleft
    exact List.forall_mem_append.mpr ⟨hleft, (List.forall_mem_cons.mp hnames).2⟩
  | case5 replacing dir name rest hup here target _ _ path _ reached heq ihTarget ihRest =>
    have hreached := ihTarget (hdir.start path) (Path.isSpelled_ofString target)
    rw [heq] at hreached
    exact ihRest hreached (List.forall_mem_cons.mp hnames).2
  | case6 replacing dir name rest hup here _ ih =>
    obtain ⟨hname, hrest⟩ := List.forall_mem_cons.mp hnames
    exact ih (hdir.child hname hup) hrest

namespace Sound

theorem of_entries (hworking : fs.entryAt? fs.workingDir = some .directory)
    (hparent : ∀ l ∈ fs.entries.map (·.1), fs.entryAt? l.parent = some .directory)
    (hproper : ∀ l ∈ fs.entries.map (·.1), ∀ name ∈ l.names, IsName name ∧ name ≠ "..") :
    fs.Sound := by
  refine ⟨.of_entries hworking hparent, fun {l} hl name hname => ?_⟩
  obtain ⟨e, he⟩ := Option.ne_none_iff_exists'.mp hl
  unfold entryAt? at he
  split at he
  · next hroot =>
    rw [hroot] at hname
    exact absurd hname List.not_mem_nil
  · exact hproper l (mem_keys_of_lookup he) name hname

theorem isProper_workingDir (h : fs.Sound) : fs.workingDir.IsProper := h.isProper (by rw [h.workingDir]; simp)

theorem not_mem_workingDir (h : fs.Sound) : ".." ∉ fs.workingDir.names := h.isProper_workingDir.not_mem

theorem isProper_canonical (h : fs.Sound) (hp : p.IsSpelled) (hl : fs.canonical p = .ok l) :
    l.IsProper := by
  have hfrom := fs.isProper_canonicalFrom [] (h.isProper_workingDir.start p) hp
  unfold canonical at hl
  split at hl
  · next heq =>
    rw [heq] at hfrom
    obtain rfl := Except.ok.inj hl
    exact hfrom
  · next left heq =>
    rw [heq] at hfrom
    dsimp only at hl
    split at hl
    · cases hl
    · obtain rfl := Except.ok.inj hl
      exact .of_names hfrom

/-- The way to what stands below a directory passes no link. -/
theorem locateFrom_below (h : fs.Sound) (links : Nat) {front back : List String} {e : Entry}
    (hback : back ≠ []) (he : fs.entryAt? ⟨front ++ back⟩ = some e)
    (hlink : ∀ target, e ≠ .symlink target) :
    fs.locateFrom .followed links ⟨front⟩ back = .ok ⟨⟨front ++ back⟩, some e, links⟩ := by
  have hne : fs.entryAt? ⟨front ++ back⟩ ≠ none := by rw [he]; simp
  induction back generalizing front with
  | nil => exact absurd rfl hback
  | cons name rest ih =>
    have hname := h.isProper hne name (by simp)
    have hplain : IsPlain name := ⟨hname.2, hname.1.2.1, hname.1.1⟩
    have hassoc : front ++ name :: rest = (front ++ [name]) ++ rest := by simp
    rw [hassoc] at he hne ⊢
    by_cases hrest : rest = []
    · subst hrest
      rw [List.append_nil] at he ⊢
      have hhere : fs.entryAt? (Location.child ⟨front⟩ name) = some e := he
      rw [locateFrom_singleton hplain (.inr fun target => by rw [hhere]; simpa using hlink target), hhere]
      rfl
    · have habove : fs.entryAt? (Location.child ⟨front⟩ name) = some .directory :=
        h.directory_above hrest hne
      rw [locateFrom_plain hplain (by simp), habove]
      exact ih hrest he hne

/-- What stands at a place is read by the path of the place. -/
theorem readBytes_path (h : fs.Sound) {l : Location} {content : Text.Bytes}
    (hl : fs.entryAt? l = some (.file content)) : fs.readBytes l.path = .ok content := by
  have hne : l.names ≠ [] := by
    intro hnil
    obtain ⟨names⟩ := l
    obtain rfl : names = [] := hnil
    cases hl
  have hlocate : fs.locate .followed l.path = .ok ⟨l, some (.file content), maxLinks⟩ :=
    h.locateFrom_below maxLinks hne hl (by simp)
  rw [readBytes, hlocate]

theorem readText_path (h : fs.Sound) {l : Location} {text : List Char}
    (hl : fs.entryAt? l = some (.file (Text.Utf8.encode text))) (htext : '\r' ∉ text) :
    fs.readText l.path = .ok text := by
  rw [readText, h.readBytes_path hl]
  exact textOf_encode htext

end Sound

/-- A path leads to a file's content if it is read there. -/
theorem readBytes_eq_ok_iff {content : Text.Bytes} :
    fs.readBytes p = .ok content ↔ fs.at? p = some (.file content) := by
  unfold readBytes at?
  rcases fs.locate .followed p with cause | ⟨l, _ | ⟨content'⟩ | _ | _, left⟩ <;> simp

theorem readText_of_readBytes {fs' : FileSystem} {q : Path} {text : List Char}
    (h : ∀ content, fs.readBytes p = .ok content → fs'.readBytes q = .ok content)
    (htext : fs.readText p = .ok text) : fs'.readText q = .ok text := by
  unfold readText at htext ⊢
  cases hread : fs.readBytes p with
  | error fault =>
    rw [hread] at htext
    cases htext
  | ok content =>
    rw [hread] at htext
    rwa [h content hread]

namespace Straight

theorem of_links (h : fs.Sound) (hlinks : fs.links = []) : fs.Straight :=
  ⟨h, fun l target hl => by
    have hmem := mem_links hl
    rw [hlinks] at hmem
    exact absurd hmem List.not_mem_nil⟩

/-- Names that lead down from a directory lead to the place that they spell. -/
theorem locateFrom_down (h : fs.Straight) (links : Nat) (hdir : fs.entryAt? dir = some .directory)
    (hplain : ∀ name ∈ names, IsPlain name) :
    match fs.locateFrom .followed links dir names with
    | .ok place => place.location = dir.follow names ∧ place.entry = fs.entryAt? (dir.follow names)
    | .error _ => fs.entryAt? (dir.follow names) = none := by
  induction names generalizing dir with
  | nil => simp [locateFrom, hdir]
  | cons name rest ih =>
    obtain ⟨hname, hrest⟩ := List.forall_mem_cons.mp hplain
    have hdots : ".." ∉ rest := fun hmem => (hrest ".." hmem).1 rfl
    rw [Location.follow_name hname.1, locateFrom_plain hname (by simp)]
    -- behind anything but a directory there is nothing
    have hbehind (hne : rest ≠ []) (hhere : fs.entryAt? (dir.child name) ≠ some .directory) :
        fs.entryAt? ((dir.child name).follow rest) = none := by
      rw [Location.follow_down hdots]
      by_contra hpresent
      exact hhere (h.directory_above hne hpresent)
    cases he : fs.entryAt? (dir.child name) with
    | none =>
      by_cases hne : rest = []
      · simp [hne, he]
      · simpa only [if_neg hne] using hbehind hne (by rw [he]; simp)
    | some e =>
      cases e with
      | directory => exact ih he hrest
      | file content =>
        by_cases hne : rest = []
        · simp [hne, he]
        · simpa only [if_neg hne] using hbehind hne (by rw [he]; simp)
      | symlink target => exact absurd he (h.not_symlink _ target)

/-- Double dots at the beginning lead up. -/
theorem locateFrom_normal (h : fs.Straight) (links ups : Nat) (hdir : fs.entryAt? dir = some .directory)
    (hplain : ∀ name ∈ names, IsPlain name) :
    match fs.locateFrom .followed links dir (List.replicate ups ".." ++ names) with
    | .ok place => place.location = dir.follow (List.replicate ups ".." ++ names) ∧
        place.entry = fs.entryAt? (dir.follow (List.replicate ups ".." ++ names))
    | .error _ => fs.entryAt? (dir.follow (List.replicate ups ".." ++ names)) = none := by
  induction ups generalizing dir with
  | zero => exact h.locateFrom_down links hdir hplain
  | succ ups ih =>
    have hdots : ".." ∉ dir.names := (h.isProper (by rw [hdir]; simp)).not_mem
    rw [List.replicate_succ, List.cons_append, Location.follow_up hdots, locateFrom, if_pos rfl]
    exact ih (h.parent_of_directory hdir)

theorem locate_followed (h : fs.Straight) (hp : p.IsSpelled) (hn : p.IsNormal) :
    match fs.locate .followed p with
    | .ok place => place.location = p.lexical fs.workingDir ∧
        place.entry = fs.entryAt? (p.lexical fs.workingDir)
    | .error _ => fs.entryAt? (p.lexical fs.workingDir) = none := by
  rw [Path.lexical_eq_follow h.not_mem_workingDir, locate]
  obtain ⟨ups, down, hnames, hdown, -⟩ := hn
  have hplain : ∀ name ∈ down, IsPlain name := fun name hname =>
    have hspelled := hp name (hnames ▸ List.mem_append_right _ hname)
    ⟨fun heq => hdown (heq ▸ hname), hspelled.2.1, hspelled.1⟩
  have hdir : fs.entryAt? (if p.isAbsolute then .root else fs.workingDir) = some .directory := by
    split
    · rfl
    · exact h.workingDir
  rw [hnames]
  exact h.locateFrom_normal maxLinks ups hdir hplain

/-- A path leads to what is at the place that it spells. -/
theorem at?_eq (h : fs.Straight) (hp : p.IsSpelled) (hn : p.IsNormal) :
    fs.at? p = fs.entryAt? (p.lexical fs.workingDir) := by
  have hloc := h.locate_followed hp hn
  unfold at?
  cases hq : fs.locate .followed p with
  | error cause =>
    rw [hq] at hloc
    exact hloc.symm
  | ok place =>
    rw [hq] at hloc
    exact hloc.2

theorem regularFile?_eq_some_iff (h : fs.Straight) (hp : p.IsSpelled) (hn : p.IsNormal) :
    fs.regularFile? p = some l ↔
      l = p.lexical fs.workingDir ∧ ∃ content, fs.entryAt? l = some (.file content) := by
  have hloc := h.locate_followed hp hn
  unfold regularFile?
  rcases hq : fs.locate .followed p with cause | ⟨place, entry, left⟩
  · rw [hq] at hloc
    simp only [reduceCtorEq, false_iff, not_and, not_exists]
    rintro rfl content hcontent
    rw [hloc] at hcontent
    simp at hcontent
  · rw [hq] at hloc
    obtain ⟨rfl, rfl⟩ := hloc
    cases he : fs.entryAt? (p.lexical fs.workingDir) with
    | none => simp_all
    | some e =>
      cases e with
      | file content =>
        simp only [Option.some.injEq]
        exact ⟨fun hl => ⟨hl.symm, content, hl ▸ he⟩, fun hl => hl.1.symm⟩
      | directory | symlink => simp_all

theorem canonicalFrom_eq (h : fs.Straight) (replacing : List Location) (hdir : ".." ∉ dir.names)
    (names : List String) : fs.canonicalFrom replacing dir names = .ok (dir.follow names) := by
  induction names generalizing dir with
  | nil => rw [canonicalFrom, Location.follow_nil]
  | cons name rest ih =>
    by_cases hname : name = ".."
    · subst hname
      rw [canonicalFrom, if_pos rfl, Location.follow_up hdir]
      exact ih fun hmem => hdir (List.dropLast_subset _ hmem)
    · rw [Location.follow_name hname]
      rw [canonicalFrom_name replacing hname (h.not_symlink _)]
      exact ih (by simp [Location.child, hdir, Ne.symm hname])

/-- The canonical location of a path is the place that it spells. -/
theorem canonical_eq (h : fs.Straight) (p : Path) :
    fs.canonical p = .ok (p.lexical fs.workingDir) := by
  have hdots : ".." ∉ (if p.isAbsolute then .root else fs.workingDir : Location).names := by
    split
    · exact List.not_mem_nil
    · exact h.not_mem_workingDir
  rw [canonical, h.canonicalFrom_eq [] hdots, Path.lexical_eq_follow h.not_mem_workingDir]

end Straight

end FileSystem

end RouteInventory
