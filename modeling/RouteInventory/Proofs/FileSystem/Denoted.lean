import RouteInventory.Proofs.FileSystem.Budget
import RouteInventory.Proofs.FileSystem.Discovered
import RouteInventory.Proofs.Path.Relative
import RouteInventory.Reference.Scan

/-!
# Paths that denote the same directory

However a directory is spelled, what is inside of it is found in the same places, has the same canonical
locations and the same contents, unless the bound on links cuts off the way there from one spelling alone.
-/

namespace RouteInventory.FileSystem

variable {fs : FileSystem} {p q x : Path} {dir : Location} {left left' : Nat} {names : List String}

/-! ### Equal spots -/

theorem at?_eq_spot (fs : FileSystem) (p : Path) :
    fs.at? p = (spot (fs.locate .followed p)).toOption.bind (·.2) := by
  unfold at?
  cases fs.locate .followed p with
  | error cause => rfl
  | ok place => rfl

theorem regularFile?_eq_spot (fs : FileSystem) (p : Path) :
    fs.regularFile? p = match spot (fs.locate .followed p) with
      | .ok (l, some (.file _)) => some l
      | _ => none := by
  unfold regularFile?
  rcases fs.locate .followed p with cause | ⟨l, _ | _ | _ | _, left⟩
  all_goals rfl

theorem regularFile?_congr (h : spot (fs.locate .followed p) = spot (fs.locate .followed q)) :
    fs.regularFile? p = fs.regularFile? q := by
  rw [regularFile?_eq_spot, regularFile?_eq_spot, h]

theorem exists_of_spot {place : Place}
    (h : spot (fs.locate .followed p) = spot (fs.locate .followed q))
    (hp : fs.locate .followed p = .ok place) : ∃ left',
      fs.locate .followed q = .ok { place with linksLeft := left' } := by
  rw [hp] at h
  cases hq : fs.locate .followed q with
  | error cause =>
    rw [hq] at h
    cases h
  | ok place' =>
    rw [hq] at h
    obtain ⟨l, entry, left⟩ := place
    obtain ⟨l', entry', left'⟩ := place'
    obtain ⟨rfl, rfl⟩ := Prod.mk.inj (Except.ok.inj h)
    exact ⟨left', rfl⟩

theorem readBytes_of_spot {content : Text.Bytes}
    (h : spot (fs.locate .followed p) = spot (fs.locate .followed q)) (hread : fs.readBytes p = .ok content) :
    fs.readBytes q = .ok content := by
  rw [readBytes_eq_ok_iff, at?_eq_spot] at hread ⊢
  rwa [← h]

/-! ### Names below a directory -/

theorem locate_below (h : fs.IsDirectoryAt p dir left) (names : List String) :
    fs.locate .followed (belowPath p names) = fs.locateFrom .followed left dir names :=
  locateFrom_behind h names

/-- Searches that pass over links find the same below a directory, however it is spelled. -/
theorem discoverBelow_congr {query : Query} (hquery : query.followLinks = false)
    (h : spot (fs.locate .followed p) = spot (fs.locate .followed q)) :
    fs.discoverBelow query p = fs.discoverBelow query q := by
  unfold discoverBelow
  cases hp : fs.locate .followed p with
  | error cause =>
    cases hq : fs.locate .followed q with
    | error cause' => rfl
    | ok place =>
      obtain ⟨left, hp'⟩ := exists_of_spot h.symm hq
      rw [hp] at hp'
      cases hp'
  | ok place =>
    obtain ⟨left, hq⟩ := exists_of_spot h hp
    rw [hq]
    obtain ⟨l, entry, links⟩ := place
    rcases entry with _ | _ | _ | _
    · rfl
    · rfl
    · rfl
    · exact discoverFrom_eq hquery (fun _ _ => .same rfl) _ _ _

theorem exists_of_mem_discoverBelow (hfs : fs.Sound) {query : Query} (hquery : query.followLinks = false)
    (h : names ∈ fs.discoverBelow query p) : ∃ dir left content, fs.IsDirectoryAt p dir left ∧ names ≠ [] ∧
      fs.entryAt? ⟨dir.names ++ names⟩ = some (.file content) ∧ ".." ∉ names := by
  unfold discoverBelow at h
  split at h
  · next dir left hp =>
    obtain ⟨front, last, content, rfl, -, hcontent⟩ := mem_discoverFrom hquery h
    have hproper := hfs.isProper (by rw [hcontent]; simp)
    exact ⟨dir, left, content, hp, by simp, hcontent,
      fun hmem => hproper.not_mem (List.mem_append_right _ hmem)⟩
  · exact absurd h List.not_mem_nil

theorem readLenient?_of_mem_discoverBelow (hfs : fs.Sound) {query : Query}
    (hquery : query.followLinks = false)
    (h : spot (fs.locate .followed p) = spot (fs.locate .followed q))
    (hnames : names ∈ fs.discoverBelow query p) :
    fs.readLenient? (belowPath p names) = fs.readLenient? (belowPath q names) := by
  obtain ⟨dir, left, content, hp, hne, hcontent, -⟩ := exists_of_mem_discoverBelow hfs hquery hnames
  obtain ⟨left', hq⟩ := exists_of_spot h hp
  have hread {p : Path} {left : Nat} (hp : fs.IsDirectoryAt p dir left) :
      fs.readBytes (belowPath p names) = .ok content := by
    rw [readBytes, locate_below hp, hfs.locateFrom_below left hne hcontent (by simp)]
  rw [readLenient?, readLenient?, hread hp, hread hq]

/-! ### Canonical locations -/

theorem canonicalFrom_behind {replacing : List Location} {inner : Location} {start : Location}
    {front : List String} (h : fs.canonicalFrom replacing start front = .ok inner) (back : List String) :
    fs.canonicalFrom replacing start (front ++ back) = fs.canonicalFrom replacing inner back := by
  induction front generalizing start with
  | nil =>
    rw [canonicalFrom] at h
    cases h
    rfl
  | cons name rest ih =>
    rw [List.cons_append]
    by_cases hup : name = ".."
    · rw [canonicalFrom, if_pos hup] at h ⊢
      exact ih h
    by_cases hlink : ∀ target, fs.entryAt? (start.child name) ≠ some (.symlink target)
    · rw [canonicalFrom_name replacing hup hlink] at h ⊢
      exact ih h
    rw [canonicalFrom, if_neg hup] at h
    dsimp only at h
    split at h
    · next target htarget =>
      split at h
      · cases h
      · next hnew =>
        split at h
        · cases h
        · next reached hreached =>
          rw [canonicalFrom_link hup htarget hnew hreached]
          exact ih h
    · next hother => exact absurd hother hlink

/-- Whether a path denotes a directory, and does so still when its double dots are removed by its text. -/
structure Denotes (fs : FileSystem) (p : Path) (dir : Location) (left : Nat) : Prop where
  isSpelled : p.IsSpelled
  located : fs.IsDirectoryAt p dir left
  normalized : fs.IsDirectoryAt p.normalize dir left

namespace Denotes

theorem of_isNormal (hs : p.IsSpelled) (hn : p.IsNormal) (h : fs.IsDirectoryAt p dir left) :
    fs.Denotes p dir left := ⟨hs, h, by rwa [Path.normalize_of_isNormal hn]⟩

variable (hp : fs.Denotes p dir left) (hq : fs.Denotes q dir left')
include hp

theorem canonicalFrom :
    fs.canonicalFrom [] (if p.isAbsolute then .root else fs.workingDir) p.names = .ok dir :=
  canonicalFrom_of_locateFrom hp.isSpelled hp.located (by simp [TakeLinks])

theorem canonical_join {l : Location} (hx : x.isAbsolute = false)
    (h : fs.canonicalFrom [] dir x.names = .ok l) : fs.canonical (p.join x) = .ok l := by
  rw [canonical, Path.isAbsolute_join p hx, Path.join_of_relative p hx, canonicalFrom_behind hp.canonicalFrom,
    h]

theorem spot_below (names : List String) :
    spot (fs.locate .followed (belowPath p names)) = spot (fs.locateFrom .followed left dir names) := by
  rw [locate_below hp.located]

include hq

/-- The canonical location of a path below does not depend on the spelling. -/
theorem canonical_join_eq (x : Path) : fs.canonical (p.join x) = fs.canonical (q.join x) := by
  cases hx : x.isAbsolute with
  | true => rw [Path.join_of_isAbsolute p hx, Path.join_of_isAbsolute q hx]
  | false =>
    rw [canonical, canonical, Path.isAbsolute_join p hx, Path.isAbsolute_join q hx,
      Path.join_of_relative p hx, Path.join_of_relative q hx, canonicalFrom_behind hp.canonicalFrom,
      canonicalFrom_behind hq.canonicalFrom]

theorem spot_join (hcut : x.isAbsolute = false → fs.CutAlike dir left left' x.names) :
    spot (fs.locate .followed (p.join x)) = spot (fs.locate .followed (q.join x)) := by
  cases hx : x.isAbsolute with
  | true => rw [Path.join_of_isAbsolute p hx, Path.join_of_isAbsolute q hx]
  | false =>
    rw [Path.join_of_relative p hx, Path.join_of_relative q hx]
    exact (hp.spot_below x.names).trans ((spot_eq (hcut hx)).trans (hq.spot_below x.names).symm)

theorem spot_normalize (hcut : fs.CutAlike dir left left' names) :
    spot (fs.locate .followed (belowPath p.normalize names)) =
      spot (fs.locate .followed (belowPath q.normalize names)) := by
  rw [locate_below hp.normalized, locate_below hq.normalized]
  exact spot_eq hcut

end Denotes

end RouteInventory.FileSystem
