import RouteInventory.Proofs.FileSystem.Insert

/-!
# Made directories

Making a directory with the missing ones above it comes to attempts to make one, from above. An attempt
makes the directory where there was nothing, or finds it, or is refused, also by the medium. So nothing
but directories is added, each of them where the path or one above it leads (`Grown`); what is made is
empty.
-/

namespace RouteInventory.FileSystem

variable {fs fs' mid : FileSystem} {p : Path} {there : Bool} {medium : Medium}

/-! ### Directories that paths lead to -/

theorem isDirectory_iff : fs.isDirectory p = true ↔ ∃ l left, fs.IsDirectoryAt p l left := by
  unfold isDirectory at? IsDirectoryAt
  cases hloc : fs.locate .followed p with
  | error cause => simp
  | ok place =>
    obtain ⟨l, entry, left⟩ := place
    simp

/-- A last link that is followed stands for itself where it is kept. -/
theorem locateFrom_kept {last : Last} {links : Nat} {dir : Location} {names : List String} {place : Place}
    (h : fs.locateFrom last links dir names = .ok place) (hentry : place.entry ≠ none) :
    ∃ place', fs.locateFrom .kept links dir names = .ok place' ∧ place'.entry ≠ none := by
  simp only [locateFrom_eq_ok_iff] at h ⊢
  induction h with
  | here => exact ⟨_, .here, nofun⟩
  | up _ ih =>
    obtain ⟨place', hway, hsome⟩ := ih hentry
    exact ⟨place', .up hway, hsome⟩
  | skip hname _ ih =>
    obtain ⟨place', hway, hsome⟩ := ih hentry
    exact ⟨place', .skip hname hway, hsome⟩
  | arrive hname he hend => exact ⟨_, .arrive hname he hend.kept, hentry⟩
  | enter hname _ he _ ih =>
    obtain ⟨place', hway, hsome⟩ := ih hentry
    exact ⟨place', .enter hname (by simp) he hway, hsome⟩
  | @follow _ _ _ _ rest _ hname _ he _ _ ih =>
    by_cases hrest : rest = []
    · subst hrest
      exact ⟨_, .arrive hname he rfl, nofun⟩
    · obtain ⟨place', hway, hsome⟩ := ih hentry
      exact ⟨place', .follow hname (by simp) he (fun hc => hrest hc.1) hway, hsome⟩

theorem exists_locate_kept (h : fs.isDirectory p = true) :
    ∃ place, fs.locate .kept p = .ok place ∧ place.entry ≠ none := by
  obtain ⟨l, left, hdir⟩ := isDirectory_iff.mp h
  exact locateFrom_kept hdir nofun

theorem not_isDirectory_of_error {cause : FileCause} (h : fs.locate .kept p = .error cause) :
    fs.isDirectory p = false := by
  by_cases hdir : fs.isDirectory p = true
  · obtain ⟨place, hplace, -⟩ := exists_locate_kept hdir
    rw [h] at hplace
    cases hplace
  · exact Bool.eq_false_iff.mpr hdir

theorem exists_eq_child (h : p.names ≠ []) : ∃ name, p = p.parent.child name := by
  refine ⟨p.names.getLast h, ?_⟩
  rw [Path.parent, Path.child, List.dropLast_concat_getLast h]

/-- A directory stands in one. -/
theorem isDirectory_parent (h : fs.isDirectory p = true) : fs.isDirectory p.parent = true := by
  by_cases hnames : p.names = []
  · rwa [Path.parent, hnames, List.dropLast_nil, ← hnames]
  · obtain ⟨name, hp⟩ := exists_eq_child hnames
    rw [hp] at h
    obtain ⟨l, left, hdir⟩ := isDirectory_iff.mp h
    have hlast : Last.followed ≠ .created := by decide
    exact isDirectory_iff.mpr (isDirectoryAt_of_locate_child (.inr hlast) hdir)

theorem at?_child_of_not_isDirectory (h : fs.isDirectory p = false) (name : String) :
    fs.at? (p.child name) = none := by
  cases hloc : fs.locate .followed (p.child name) with
  | error cause => rw [at?, hloc]
  | ok place =>
    have hlast : Last.followed ≠ .created := by decide
    rw [isDirectory_iff.mpr (isDirectoryAt_of_locate_child (.inr hlast) hloc)] at h
    cases h

theorem isLink_child_of_not_isDirectory (h : fs.isDirectory p = false) (name : String) :
    fs.isLink (p.child name) = false := by
  cases hloc : fs.locate .kept (p.child name) with
  | error cause => rw [isLink, hloc]
  | ok place =>
    have hlast : Last.kept ≠ .created := by decide
    rw [isDirectory_iff.mpr (isDirectoryAt_of_locate_child (.inr hlast) hloc)] at h
    cases h

/-! ### Attempts -/

/-- One attempt to make a directory, and whether it is there after it. -/
inductive Attempt (fs : FileSystem) (p : Path) : FileSystem → Bool → Prop
  | made {l : Location} {left : Nat} (h : fs.locate .kept p = .ok ⟨l, none, left⟩) :
      Attempt fs p (fs.insert l .directory) true
  | found (h : fs.isDirectory p = true) : Attempt fs p fs true
  | refused (h : fs.isDirectory p = false) : Attempt fs p fs false

/-- What making a directory with those above it comes to, and whether it is there in the end. -/
inductive Makes : FileSystem → Path → FileSystem → Bool → Prop
  | attempt {fs : FileSystem} {p : Path} {fs' : FileSystem} {there : Bool} (h : Attempt fs p fs' there) :
      Makes fs p fs' there
  | failed {fs : FileSystem} {p : Path} {fs' : FileSystem}
      (hmissing : fs.locate .kept p = .error .notFound) (habove : Makes fs p.parent fs' false) :
      Makes fs p fs' false
  | inside {fs : FileSystem} {p : Path} {mid fs' : FileSystem} {there : Bool}
      (hmissing : fs.locate .kept p = .error .notFound) (habove : Makes fs p.parent mid true)
      (h : Attempt mid p fs' there) : Makes fs p fs' there

theorem attempt_acceptExisting (fs : FileSystem) (p : Path) (medium : Medium) :
    Attempt fs p (acceptExisting p (fs.makeDirectory p medium)).1
      (acceptExisting p (fs.makeDirectory p medium)).2.isOk := by
  unfold makeDirectory
  have hrefused (fault : FileFault) : Attempt fs p (acceptExisting p (fs, .error fault)).1
      (acceptExisting p (fs, .error fault)).2.isOk := by
    rw [acceptExisting]
    split
    · next hdir => exact .found hdir
    · next hdir => exact .refused (Bool.eq_false_iff.mpr hdir)
  split
  · next hloc =>
    split
    · exact hrefused _
    · exact .made hloc
  · exact hrefused _
  · exact hrefused _

theorem locate_of_makeDirectory_notFound {text : String}
    (h : fs.makeDirectory p medium = (fs', .error ⟨.notFound, text⟩)) :
    fs' = fs ∧ fs.locate .kept p = .error .notFound := by
  unfold makeDirectory at h
  split at h
  · split at h <;> cases h
  · cases h
  · next hloc =>
    cases h
    exact ⟨rfl, hloc⟩

theorem makes_makeDirectories (fs : FileSystem) (p : Path) (medium : Medium := .reliable) :
    Makes fs p (fs.makeDirectories p medium).1 (fs.makeDirectories p medium).2.isOk := by
  fun_induction makeDirectories fs p medium with
  | case1 fs p fs' text hmake =>
    obtain ⟨rfl, hloc⟩ := locate_of_makeDirectory_notFound hmake
    exact .attempt (.refused (not_isDirectory_of_error hloc))
  | case2 fs p fs' text hmake _ _ mid habove fs'' text' hmake' ih =>
    obtain ⟨rfl, hloc⟩ := locate_of_makeDirectory_notFound hmake
    obtain ⟨rfl, hloc'⟩ := locate_of_makeDirectory_notFound hmake'
    rw [habove] at ih
    exact .inside hloc ih (.refused (not_isDirectory_of_error hloc'))
  | case3 fs p fs' text hmake _ _ mid habove _ ih =>
    obtain ⟨rfl, hloc⟩ := locate_of_makeDirectory_notFound hmake
    rw [habove] at ih
    exact .inside hloc ih (attempt_acceptExisting mid p medium)
  | case4 fs p fs' text hmake _ _ habove ih =>
    obtain ⟨rfl, hloc⟩ := locate_of_makeDirectory_notFound hmake
    match hresult : fs'.makeDirectories p.parent medium with
    | (after, .ok ()) => exact (habove after hresult).elim
    | (after, .error fault) =>
      rw [hresult] at ih
      exact .failed hloc ih
  | case5 fs p _ => exact .attempt (attempt_acceptExisting fs p medium)

/-! ### What is left -/

theorem isVacant_of_locate_kept {l : Location} {left : Nat}
    (h : fs.locate .kept p = .ok ⟨l, none, left⟩) : fs.IsVacant l := by
  intro e he
  rw [entryAt?_of_locateFrom h nofun] at he
  cases he

theorem isDirectoryAt_insert {l : Location} {left : Nat} (h : fs.locate .kept p = .ok ⟨l, none, left⟩) :
    (fs.insert l .directory).IsDirectoryAt p l left := by
  have hlink (target : String) : Entry.directory ≠ .symlink target := nofun
  exact (isVacant_of_locate_kept h).locateFrom_insert_self hlink (locateFrom_followed h fun _ => nofun)
    rfl nofun

theorem Attempt.isDirectory_eq (h : Attempt fs p fs' there) : fs'.isDirectory p = there := by
  cases h with
  | made h => exact isDirectory_iff.mpr ⟨_, _, isDirectoryAt_insert h⟩
  | found h => exact h
  | refused h => exact h

theorem Makes.isDirectory_eq (h : Makes fs p fs' there) : fs'.isDirectory p = there := by
  induction h with
  | attempt h => exact h.isDirectory_eq
  | @failed p fs' _ _ ih =>
    cases hdir : fs'.isDirectory p with
    | false => rfl
    | true => rw [← ih, isDirectory_parent hdir]
  | inside _ _ h _ => exact h.isDirectory_eq

theorem makeDirectory_of_isDirectory (h : fs.isDirectory p = true) :
    fs.makeDirectory p medium = (fs, .error ⟨.alreadyExists, p.text⟩) := by
  obtain ⟨⟨l, entry, left⟩, hloc, hentry⟩ := exists_locate_kept h
  rw [makeDirectory, hloc]
  cases entry with
  | none => exact absurd rfl hentry
  | some e => rfl

theorem makeDirectories_of_isDirectory (h : fs.isDirectory p = true) :
    fs.makeDirectories p medium = (fs, .ok ()) := by
  rw [makeDirectories, makeDirectory_of_isDirectory h]
  simp only [acceptExisting, h, if_true]

/-- Nothing more is made where the directory is found once the one above it is made. -/
theorem makeDirectories_of_parent {l : Location} {left : Nat} (hnames : p.names ≠ [])
    (hmissing : fs.locate .kept p = .error .notFound)
    (habove : fs.locate .kept p.parent = .ok ⟨l, none, left⟩)
    (hfound : (fs.insert l .directory).isDirectory p = true) :
    fs.makeDirectories p = (fs.insert l .directory, .ok ()) := by
  have hmake : fs.makeDirectories p.parent = (fs.insert l .directory, .ok ()) := by
    rw [makeDirectories, makeDirectory, habove]
    rfl
  have hagain : (fs.insert l .directory).makeDirectory p = _ := makeDirectory_of_isDirectory hfound
  rw [makeDirectories, makeDirectory, hmissing]
  simp only [hmake]
  rw [dif_neg hnames, hagain]
  simp only [acceptExisting, hfound, if_true]

/-- Where no directory is there in the end, there was none before. -/
theorem not_isDirectory_of_makeDirectories (h : (fs.makeDirectories p medium).2.isOk = false) :
    fs.isDirectory p = false ∧ (fs.makeDirectories p medium).1.isDirectory p = false := by
  refine ⟨?_, h ▸ (makes_makeDirectories fs p medium).isDirectory_eq⟩
  cases hdir : fs.isDirectory p with
  | false => rfl
  | true =>
    rw [makeDirectories_of_isDirectory hdir] at h
    cases h

/-- Whether a path is another or leads to one above it by its names. -/
def IsAbove (q p : Path) : Prop := q.anchor = p.anchor ∧ q.names <+: p.names

/-- Whether a location is as it was, or nothing was there and now there is a directory, where a path or
one above it leads. -/
def SameOrMade (fs fs' : FileSystem) (p : Path) (k : Location) : Prop :=
  fs'.entryAt? k = fs.entryAt? k ∨
    (fs.entryAt? k = none ∧ fs'.entryAt? k = some .directory ∧
      ∃ q left, IsAbove q p ∧ fs'.IsDirectoryAt q k left)

theorem SameOrMade.of_keeps {k : Location} (h : SameOrMade fs mid p k) (hkeeps : Keeps mid fs')
    (hsame : fs'.entryAt? k = mid.entryAt? k) : SameOrMade fs fs' p k := by
  rw [SameOrMade, hsame]
  refine h.imp_right ?_
  rintro ⟨hnone, hnew, q, left, habove, hq⟩
  exact ⟨hnone, hnew, q, left, habove, hkeeps.locate rfl hq⟩

/-- Whether a file system is another with missing directories of a path added. -/
structure Grown (fs fs' : FileSystem) (p : Path) : Prop where
  workingDir : fs'.workingDir = fs.workingDir
  entry (k : Location) : SameOrMade fs fs' p k

namespace Grown

theorem refl (fs : FileSystem) (p : Path) : Grown fs fs p := ⟨rfl, fun _ => .inl rfl⟩

theorem keeps (h : Grown fs fs' p) : Keeps fs fs' := by
  refine ⟨h.workingDir, fun {l e} he _ => ?_⟩
  obtain hsame | ⟨hnone, -⟩ := h.entry l
  · rw [hsame, he]
  · rw [hnone] at he
    cases he

theorem of_parent (h : Grown fs fs' p.parent) : Grown fs fs' p := by
  refine ⟨h.workingDir, fun k => (h.entry k).imp_right ?_⟩
  rintro ⟨hnone, hnew, q, left, ⟨hanchor, hnames⟩, hq⟩
  exact ⟨hnone, hnew, q, left, ⟨hanchor, hnames.trans (List.dropLast_prefix p.names)⟩, hq⟩

theorem trans (h : Grown fs mid p) (h' : Grown mid fs' p) : Grown fs fs' p := by
  refine ⟨h'.workingDir.trans h.workingDir, fun k => ?_⟩
  obtain hsame' | ⟨hnone', hnew', hq'⟩ := h'.entry k
  · exact (h.entry k).of_keeps h'.keeps hsame'
  · obtain hsame | ⟨-, hnew, -⟩ := h.entry k
    · exact .inr ⟨hsame ▸ hnone', hnew', hq'⟩
    · rw [hnew] at hnone'
      cases hnone'

end Grown

theorem Attempt.grown (h : Attempt fs p fs' there) : Grown fs fs' p := by
  cases h with
  | @made l left h =>
    refine ⟨rfl, fun k => ?_⟩
    have hvacant := isVacant_of_locate_kept h
    by_cases hk : k = l
    · subst hk
      exact .inr ⟨entryAt?_of_locateFrom h nofun, hvacant.entryAt?_insert_self, p, _,
        ⟨rfl, List.prefix_refl _⟩, isDirectoryAt_insert h⟩
    · exact .inl (hvacant.entryAt?_insert_of_ne hk)
  | found | refused => exact .refl fs p

theorem Makes.grown (h : Makes fs p fs' there) : Grown fs fs' p := by
  induction h with
  | attempt h => exact h.grown
  | failed _ _ ih => exact ih.of_parent
  | inside _ _ h ih => exact ih.of_parent.trans h.grown

/-! ### New directories -/

theorem Attempt.rooted (h : Attempt fs p fs' there) (hrooted : fs.Rooted) : fs'.Rooted := by
  cases h with
  | made hloc => exact hrooted.insert hloc (isVacant_of_locate_kept hloc) _
  | found | refused => exact hrooted

theorem Makes.rooted (h : Makes fs p fs' there) (hrooted : fs.Rooted) : fs'.Rooted := by
  induction h with
  | attempt h => exact h.rooted hrooted
  | failed _ _ ih => exact ih
  | inside _ _ h ih => exact h.rooted ih

/-- Whether a path leads to a directory with nothing in it. -/
def IsEmptyDirectory (fs : FileSystem) (p : Path) : Prop :=
  ∃ l left, fs.IsDirectoryAt p l left ∧ ∀ name, fs.entryAt? (l.child name) = none

theorem IsEmptyDirectory.locate_child (h : fs.IsEmptyDirectory p) {name : String}
    (hplain : IsPlain name) (last : Last) : ∃ l left, fs.locate last (p.child name) = .ok ⟨l, none, left⟩ := by
  obtain ⟨l, left, hdir, hempty⟩ := h
  refine ⟨l.child name, left, ?_⟩
  rw [locate_child_eq hplain hdir, hempty]
  rw [hempty]
  exact nofun

theorem isEmptyDirectory_insert (hrooted : fs.Rooted) {l : Location} {left : Nat}
    (hloc : fs.locate .kept p = .ok ⟨l, none, left⟩) : (fs.insert l .directory).IsEmptyDirectory p := by
  refine ⟨l, left, isDirectoryAt_insert hloc, fun name => ?_⟩
  have hne : l.child name ≠ l := fun heq => by simpa [Location.child] using congrArg Location.names heq
  rw [(isVacant_of_locate_kept hloc).entryAt?_insert_of_ne hne]
  exact hrooted.entryAt?_child (entryAt?_of_locateFrom hloc nofun) name

/-- Without double dots, a directory that is made is made new, hence empty. -/
theorem Makes.isEmptyDirectory (h : Makes fs p fs' there) (hrooted : fs.Rooted)
    (hplain : ∀ name ∈ p.names, IsPlain name) (hnew : fs.isDirectory p = false) (hthere : there = true) :
    fs'.IsEmptyDirectory p := by
  induction h with
  | attempt h =>
    cases h with
    | made hloc => exact isEmptyDirectory_insert hrooted hloc
    | found hdir => rw [hdir] at hnew; cases hnew
    | refused => cases hthere
  | failed => cases hthere
  | @inside p mid fs' there hmissing habove h ih =>
    have hnames : p.names ≠ [] := by
      intro hnil
      rw [locate, hnil, locateFrom] at hmissing
      cases hmissing
    obtain ⟨name, hp⟩ := exists_eq_child hnames
    have hname : IsPlain name := hplain name (by rw [hp]; exact List.mem_append_right _ (List.mem_singleton_self _))
    have hparent : fs.isDirectory p.parent = false := by
      refine Bool.eq_false_iff.mpr fun hdir => ?_
      obtain ⟨l, left, hdir⟩ := isDirectory_iff.mp hdir
      rw [hp, locate_child_of_directory hname hdir, locateFrom_singleton hname (.inl rfl)] at hmissing
      cases hmissing
    have hempty := ih (fun n hn => hplain n (List.dropLast_subset _ hn)) hparent rfl
    cases h with
    | made hloc => exact isEmptyDirectory_insert (habove.rooted hrooted) hloc
    | found hdir =>
      obtain ⟨l, left, hchild⟩ := hempty.locate_child hname .followed
      rw [← hp] at hchild
      rw [isDirectory, at?, hchild] at hdir
      cases hdir
    | refused => cases hthere

/-- What is by the names in a directory is not changed by making it, unless double dots lead out of a
directory that is made on the way. -/
theorem at?_makeDirectories (hrooted : fs.Rooted)
    (hp : fs.isDirectory p = true ∨ ∀ name ∈ p.names, IsPlain name) {name : String}
    (hname : IsPlain name) (medium : Medium := .reliable) :
    (fs.makeDirectories p medium).1.at? (p.child name) = fs.at? (p.child name) ∧
      (fs.makeDirectories p medium).1.isLink (p.child name) = fs.isLink (p.child name) := by
  cases hdir : fs.isDirectory p with
  | true => rw [makeDirectories_of_isDirectory hdir]; exact ⟨rfl, rfl⟩
  | false =>
    have hplain := hp.resolve_left (by rw [hdir]; exact nofun)
    have hmakes := makes_makeDirectories fs p medium
    rw [at?_child_of_not_isDirectory hdir, isLink_child_of_not_isDirectory hdir]
    cases hok : (fs.makeDirectories p medium).2.isOk with
    | false =>
      have hafter := (not_isDirectory_of_makeDirectories hok).2
      exact ⟨at?_child_of_not_isDirectory hafter name, isLink_child_of_not_isDirectory hafter name⟩
    | true =>
      have hempty := hmakes.isEmptyDirectory hrooted hplain hdir hok
      obtain ⟨l, left, hfollowed⟩ := hempty.locate_child hname .followed
      obtain ⟨l', left', hkept⟩ := hempty.locate_child hname .kept
      exact ⟨by rw [at?, hfollowed], by rw [isLink, hkept]⟩

end RouteInventory.FileSystem
