import RouteInventory.Proofs.FileSystem.Straight

/-!
# Paths inside a directory

A path that stays inside the directory that it is taken from leads there from any directory in the same way,
and the path back to it is the same from any base (`relativeTo_join`).
-/

namespace RouteInventory

namespace Location

theorem follow_append (dir : Location) (front back : List String) :
    dir.follow (front ++ back) = (dir.follow front).follow back := by
  simp only [follow, List.foldl_append, List.reverse_reverse]

end Location

namespace Path

theorem dropCommon_append (front back : List String) : dropCommon front (front ++ back) = ([], back) := by
  induction front with
  | nil => cases back <;> rfl
  | cons name rest ih =>
    rw [List.cons_append, dropCommon, if_pos rfl]
    exact ih

variable {p q : Path} {workingDir : Location}

theorem isAbsolute_join (p : Path) (hq : q.isAbsolute = false) : (p.join q).isAbsolute = p.isAbsolute := by
  rw [join, hq]
  rfl

theorem join_of_isAbsolute (p : Path) (hq : q.isAbsolute = true) : p.join q = q := if_pos hq

theorem join_of_relative (p : Path) (hq : q.isAbsolute = false) :
    p.join q = ⟨p.anchor, p.names ++ q.names⟩ := by
  rw [join, hq]
  rfl

theorem join_assoc (p q r : Path) : (p.join q).join r = p.join (q.join r) := by
  cases hr : r.isAbsolute with
  | true => rw [join_of_isAbsolute _ hr, join_of_isAbsolute _ hr, join_of_isAbsolute _ hr]
  | false =>
    cases hq : q.isAbsolute with
    | true => rw [join_of_isAbsolute p hq, join_of_isAbsolute p ((isAbsolute_join q hr).trans hq)]
    | false =>
      rw [join_of_relative p ((isAbsolute_join q hr).trans hq), join_of_relative _ hr,
        join_of_relative p hq, join_of_relative q hr, List.append_assoc]

/-- Whether a path leads to something inside of any directory that it is taken from, or to the directory
itself. -/
structure IsInside (p : Path) : Prop where
  relative : p.isAbsolute = false
  normalized : ".." ∉ p.normalize.names

theorem IsInside.anchor (h : p.IsInside) : p.anchor = .relative := by
  have hrel := h.relative
  simpa [isAbsolute] using hrel

theorem IsInside.foldl_pushName (h : p.IsInside) (absolute : Bool) (below : List String) :
    p.names.foldl (pushName absolute) below = p.normalize.names.reverse ++ below := by
  have hnormal := h.normalized
  rw [normalize, h.relative, List.mem_reverse] at hnormal
  have hinside := foldl_pushName_inside absolute hnormal below
  rw [List.nil_append] at hinside
  rw [hinside, normalize, h.relative, List.reverse_reverse]

theorem IsInside.normalize_join (h : q.IsInside) (p : Path) :
    (p.join q).normalize = ⟨p.anchor, p.normalize.names ++ q.normalize.names⟩ := by
  have habs := isAbsolute_join p h.relative
  have hp : p.names.foldl (pushName p.isAbsolute) [] = p.normalize.names.reverse :=
    (List.reverse_reverse _).symm
  rw [normalize, habs, join_of_relative p h.relative]
  dsimp only
  rw [List.foldl_append, h.foldl_pushName, hp, List.reverse_append, List.reverse_reverse,
    List.reverse_reverse]

theorem IsInside.append (h : p.IsInside) {names : List String} (hnames : ".." ∉ names) :
    IsInside ⟨.relative, p.names ++ names⟩ := by
  have hfold := h.foldl_pushName false []
  rw [List.append_nil] at hfold
  refine ⟨rfl, ?_⟩
  have hrel : isAbsolute ⟨.relative, p.names ++ names⟩ = false := rfl
  rw [normalize, hrel]
  dsimp only
  rw [List.foldl_append, hfold, foldl_pushName_down hnames]
  simp only [List.mem_reverse, List.mem_append, not_or]
  exact ⟨hnames, h.normalized⟩

/-- A path inside of what another spells. -/
theorem lexical_join (hdir : ".." ∉ workingDir.names) (p : Path) (hq : q.isAbsolute = false) :
    (p.join q).lexical workingDir = (p.lexical workingDir).follow q.names := by
  rw [lexical_eq_follow hdir, lexical_eq_follow hdir, isAbsolute_join p hq, join_of_relative p hq,
    Location.follow_append]

theorem relativeTo_congr {p p' base base' : Path} (hp : p.lexical workingDir = p'.lexical workingDir)
    (hbase : base.lexical workingDir = base'.lexical workingDir) :
    p.relativeTo workingDir base = p'.relativeTo workingDir base' := by
  rw [relativeTo, relativeTo, hp, hbase]

/-- What is inside of a directory is named from there by its own path. -/
theorem relativeTo_join (hdir : ".." ∉ workingDir.names) (h : q.IsInside) (base : Path) :
    (base.join q).relativeTo workingDir base = ⟨.relative, q.normalize.names⟩ := by
  have hlexical : ((base.join q).lexical workingDir).names =
      (base.lexical workingDir).names ++ q.normalize.names := by
    rw [lexical_join hdir base h.relative, Location.follow, h.foldl_pushName]
    simp
  rw [relativeTo, hlexical, dropCommon_append]
  rfl

/-! ### Ways to places -/

theorem exists_dropCommon (first second : List String) : ∃ common,
    first = common ++ (dropCommon first second).1 ∧ second = common ++ (dropCommon first second).2 := by
  fun_induction dropCommon first second with
  | case1 first name second ih =>
    obtain ⟨common, hfirst, hsecond⟩ := ih
    exact ⟨name :: common, congrArg _ hfirst, congrArg _ hsecond⟩
  | case2 => exact ⟨[], rfl, rfl⟩
  | case3 => exact ⟨[], rfl, rfl⟩

/-- Ways up and down again are the same only if they go up and down alike. -/
theorem replicate_append_inj {n n' : Nat} {down down' : List String} (h : ".." ∉ down) (h' : ".." ∉ down')
    (heq : List.replicate n ".." ++ down = List.replicate n' ".." ++ down') : n = n' ∧ down = down' := by
  have hcount := congrArg (List.count "..") heq
  rw [List.count_append, List.count_append, List.count_replicate_self, List.count_replicate_self,
    List.count_eq_zero.mpr h, List.count_eq_zero.mpr h'] at hcount
  obtain rfl : n = n' := hcount
  exact ⟨rfl, List.append_cancel_left heq⟩

/-- The ways from a base to proper places tell these places apart. -/
theorem relativeTo_path_inj {l l' : Location} (hdir : ".." ∉ workingDir.names) (hl : l.IsProper)
    (hl' : l'.IsProper) {base : Path}
    (h : l.path.relativeTo workingDir base = l'.path.relativeTo workingDir base) : l = l' := by
  rw [relativeTo, relativeTo, hl.lexical_path hdir, hl'.lexical_path hdir] at h
  obtain ⟨common, hbase, hdown⟩ := exists_dropCommon (base.lexical workingDir).names l.names
  obtain ⟨common', hbase', hdown'⟩ := exists_dropCommon (base.lexical workingDir).names l'.names
  generalize dropCommon (base.lexical workingDir).names l.names = ways at *
  generalize dropCommon (base.lexical workingDir).names l'.names = ways' at *
  obtain ⟨up, down⟩ := ways
  obtain ⟨up', down'⟩ := ways'
  simp only [mk.injEq, List.map_const', true_and] at h
  have hdots : ".." ∉ down := fun hmem => hl.not_mem (hdown ▸ List.mem_append_right _ hmem)
  have hdots' : ".." ∉ down' := fun hmem => hl'.not_mem (hdown' ▸ List.mem_append_right _ hmem)
  obtain ⟨hups, rfl⟩ := replicate_append_inj hdots hdots' h
  -- as many names are left of the base, so that the common beginning is the same
  obtain ⟨rfl, -⟩ := List.append_inj' (hbase.symm.trans hbase') hups
  cases l
  cases l'
  exact congrArg Location.mk (hdown.trans hdown'.symm)

theorem isSpelled_relativeTo {l : Location} (hdir : ".." ∉ workingDir.names) (hl : l.IsProper) (base : Path) :
    (l.path.relativeTo workingDir base).IsSpelled := by
  obtain ⟨common, -, hdown⟩ := exists_dropCommon (base.lexical workingDir).names l.names
  rw [relativeTo, hl.lexical_path hdir]
  intro name hname
  rcases List.mem_append.mp hname with hname | hname
  · obtain ⟨-, -, rfl⟩ := List.mem_map.mp hname
    decide
  · exact (hl name (hdown ▸ List.mem_append_right _ hname)).1

end Path

end RouteInventory
