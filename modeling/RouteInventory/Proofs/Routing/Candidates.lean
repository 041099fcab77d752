import RouteInventory.Proofs.Path.Names
import RouteInventory.Proofs.Routing.Visit

/-!
# Candidates

The paths that are probed for a reference are scripts beside its base path or below it. Below a common
beginning they are the same whatever that is (`candidatePaths_below`).
-/

namespace RouteInventory.Routing

open Text

theorem findSome?_congr {α β : Type} {f g : α → Option β} {l : List α} (h : ∀ a ∈ l, f a = g a) :
    l.findSome? f = l.findSome? g := by
  induction l with
  | nil => rfl
  | cons a rest ih =>
    obtain ⟨ha, hrest⟩ := List.forall_mem_cons.mp h
    rw [List.findSome?_cons, List.findSome?_cons, ha, ih hrest]

theorem findSome?_eq_of_forall_ne {α β : Type} {f : α → Option β} {l : List α} {a : α} (ha : a ∈ l)
    (h : ∀ b ∈ l, b ≠ a → f b = none) : l.findSome? f = f a := by
  induction l with
  | nil => exact absurd ha List.not_mem_nil
  | cons b rest ih =>
    obtain ⟨hb, hrest⟩ := List.forall_mem_cons.mp h
    rw [List.findSome?_cons]
    by_cases hba : b = a
    · subst hba
      cases hf : f b with
      | some found => rfl
      | none =>
        refine List.findSome?_eq_none_iff.mpr fun c hc => ?_
        by_cases hcb : c = b
        · rw [hcb, hf]
        · exact hrest c hc hcb
    · rw [hb hba]
      exact ih ((List.mem_cons.mp ha).resolve_left (Ne.symm hba)) hrest

theorem map_firstFile? (fs : FileSystem) (paths : List Path) :
    (firstFile? fs paths).map (fun found => found.2.1) = paths.findSome? fs.regularFile? := by
  induction paths with
  | nil => rfl
  | cons p rest ih =>
    rw [firstFile?, List.findSome?_cons]
    split
    · next l hl => simp only [hl, Option.map_some]
    · next hl => simpa only [hl] using ih

namespace Guide

variable {guide : Guide} {fs : FileSystem} {source : Location} {d : Declaration}

theorem loaded?_of_reference {reference : String} (hd : d.loadChildren = some reference)
    (hname : (referenceName reference).isEmpty = false) : guide.loaded? fs source d =
      (candidatePaths (guide.basePath (referenceName reference) source.path)).findSome?
        fs.regularFile? := by
  rw [← map_firstFile?, loaded?, hd, Option.bind_some, Layout.resolve, hname]
  simp only [Bool.false_eq_true, if_false]
  rcases firstFile? fs (candidatePaths (guide.basePath (referenceName reference) source.path)) with
    _ | ⟨path, file, hfile⟩ <;> rfl

theorem loaded?_of_empty {reference : String} (hd : d.loadChildren = some reference)
    (hname : (referenceName reference).isEmpty = true) : guide.loaded? fs source d = none := by
  rw [loaded?, hd, Option.bind_some, Layout.resolve, hname]
  rfl

theorem loaded?_of_none (hd : d.loadChildren = none) : guide.loaded? fs source d = none := by
  rw [loaded?, hd]
  rfl

/-- What a route loads is found by one of the candidates for its reference. -/
theorem exists_of_loaded? {file : Location} (h : guide.loaded? fs source d = some file) :
    ∃ reference, d.loadChildren = some reference ∧ (referenceName reference).isEmpty = false ∧
      ∃ path ∈ candidatePaths (guide.basePath (referenceName reference) source.path),
        fs.regularFile? path = some file := by
  cases hd : d.loadChildren with
  | none => simp [loaded?_of_none hd] at h
  | some reference =>
    cases hname : (referenceName reference).isEmpty with
    | true => simp [loaded?_of_empty hd hname] at h
    | false =>
      rw [loaded?_of_reference hd hname] at h
      obtain ⟨path, hpath, hfile⟩ := List.exists_of_findSome?_eq_some h
      exact ⟨reference, rfl, hname, path, hpath, hfile⟩

end Guide

/-! ### What candidates are called -/

/-- Whether a name is that of a script. -/
def IsScript (name : String) : Prop := ".ts".toList <:+ name.toList

instance (name : String) : Decidable (IsScript name) := inferInstanceAs (Decidable (_ <:+ _))

theorem isScript_append {suffix : String} (h : IsScript suffix) (stem : String) :
    IsScript (stem ++ suffix) := by
  rw [IsScript, String.toList_append]
  exact h.trans (List.suffix_append _ _)

theorem IsScript.isName {name : String} (h : IsScript name) (hslash : '/' ∉ name.toList) :
    IsName name ∧ name ≠ ".." := by
  have hne (other : String) (hother : ¬ ".ts".toList <:+ other.toList) : name ≠ other :=
    fun heq => hother (heq ▸ h)
  exact ⟨⟨hne "" (by decide), hne "." (by decide), hslash⟩, hne ".." (by decide)⟩

theorem not_mem_replaceFirst {word replacement name : List Char} {c : Char} (hr : c ∉ replacement)
    (hname : c ∉ name) : c ∉ replaceFirst word replacement name := by
  induction name with
  | nil =>
    rw [replaceFirst]
    split
    exacts [hr, List.not_mem_nil]
  | cons a rest ih =>
    rw [replaceFirst]
    split
    · next after hafter =>
      rw [after?_eq_some_iff.mp hafter, List.mem_append, not_or] at hname
      rw [List.mem_append, not_or]
      exact ⟨hr, hname.2⟩
    · rw [List.mem_cons, not_or] at hname ⊢
      exact ⟨hname.1, ih hname.2⟩

variable {base c : Path}

theorem slash_not_mem_name (h : base.IsSpelled) : '/' ∉ base.name.toList := by
  unfold Path.name
  cases hlast : base.names.getLast? with
  | none => decide
  | some last => exact (h last (List.mem_of_getLast? hlast)).2.2

/-- A candidate is a script below the base path or beside it. -/
theorem exists_of_mem_candidatePaths (h : base.IsSpelled) (hc : c ∈ candidatePaths base) :
    ∃ name, IsScript name ∧ '/' ∉ name.toList ∧ (c = base.child name ∨ c = base.parent.child name) := by
  have hname := slash_not_mem_name h
  have hbeside {name : String} (hscript : IsScript name) (hslash : '/' ∉ name.toList) :
      ∃ name', IsScript name' ∧ '/' ∉ name'.toList ∧
        (base.parent.child name = base.child name' ∨ base.parent.child name = base.parent.child name') :=
    ⟨name, hscript, hslash, .inr rfl⟩
  have hlonger {suffix : String} (hs : IsSuffix suffix) (hscript : IsScript suffix) :
      ∃ name', IsScript name' ∧ '/' ∉ name'.toList ∧
        (base.appendText suffix = base.child name' ∨ base.appendText suffix = base.parent.child name') := by
    rw [Path.appendText_eq h hs]
    exact hbeside (isScript_append hscript _) (hs.isName_append (Path.slash_not_mem_stem h)).2.2
  simp only [candidatePaths, List.mem_append, List.mem_cons, List.not_mem_nil, or_false] at hc
  rcases hc with (((rfl | rfl | rfl) | hc) | hc) | hc
  · exact hlonger (by decide) (by decide)
  · exact hlonger (by decide) (by decide)
  · exact ⟨"routing.module.ts", by decide, by decide, .inl rfl⟩
  · split at hc
    · rw [List.mem_singleton.mp hc]
      refine hbeside (isScript_append (by decide) _) ?_
      simpa using not_mem_replaceFirst (by decide) hname
    · exact absurd hc List.not_mem_nil
  · split at hc
    · rw [List.mem_singleton.mp hc]
      refine hbeside (isScript_append (by decide) _) ?_
      simpa using fun hmem => hname (List.mem_of_mem_take hmem)
    · exact absurd hc List.not_mem_nil
  · split at hc
    · rw [List.mem_singleton.mp hc]
      exact hlonger (by decide) (by decide)
    · exact absurd hc List.not_mem_nil

/-- A candidate for a normal path is normal, and it is called as a script. -/
theorem exists_eq_child_of_candidate (h : base.IsSpelled) (hn : base.IsNormal)
    (hc : c ∈ candidatePaths base) :
    c.IsSpelled ∧ c.IsNormal ∧ ∃ q name, c = Path.child q name ∧ IsScript name ∧ name ≠ ".." := by
  obtain ⟨name, hscript, hslash, hc⟩ := exists_of_mem_candidatePaths h hc
  obtain ⟨hname, hdots⟩ := hscript.isName hslash
  rcases hc with rfl | rfl
  · exact ⟨h.child hname, hn.child hdots, base, name, rfl, hscript, hdots⟩
  · exact ⟨h.parent.child hname, hn.parent.child hdots, base.parent, name, rfl, hscript, hdots⟩

theorem isSpelled_basePath {layout : Layout} (hproject : layout.projectRoot.IsSpelled)
    (happ : layout.appRoot.IsSpelled) {source : Path} (hsource : source.IsSpelled) (name : List Char) :
    (layout.basePath name source).IsSpelled := by
  unfold Layout.basePath
  dsimp only
  refine Path.IsSpelled.normalize ?_
  split
  · exact hsource.parent.join (Path.isSpelled_ofString _)
  split
  · exact hproject.join (Path.isSpelled_ofString _)
  · exact happ.join (Path.isSpelled_ofString _)

/-- The candidates for a path are those for its last names, below the others. -/
theorem candidatePaths_below (anchor : Anchor) {front down : List String} (hdown : down ≠ [])
    (hfront : ∀ name ∈ front, IsName name) (hnames : ∀ name ∈ down, IsName name) :
    candidatePaths ⟨anchor, front ++ down⟩ =
      (candidatePaths ⟨.relative, down⟩).map fun c => ⟨anchor, front ++ c.names⟩ := by
  obtain ⟨others, last, rfl⟩ : ∃ others last, down = others ++ [last] :=
    ⟨_, _, (List.dropLast_concat_getLast hdown).symm⟩
  have hspelled : Path.IsSpelled ⟨anchor, front ++ (others ++ [last])⟩ := by
    intro name hname
    rcases List.mem_append.mp hname with hname | hname
    exacts [hfront name hname, hnames name hname]
  have hinner : Path.IsSpelled ⟨.relative, others ++ [last]⟩ := hnames
  have hlonger {suffix : String} (hs : IsSuffix suffix) :
      Path.appendText ⟨anchor, front ++ (others ++ [last])⟩ suffix =
        ⟨anchor, front ++ (Path.appendText ⟨.relative, others ++ [last]⟩ suffix).names⟩ := by
    rw [Path.appendText_eq hspelled hs, Path.appendText_eq hinner hs]
    simp [Path.lengthened, Path.stem, ← List.append_assoc]
  have hname : Path.name ⟨anchor, front ++ (others ++ [last])⟩ =
      Path.name ⟨.relative, others ++ [last]⟩ := by
    simp [Path.name, ← List.append_assoc]
  have hbeside (name : String) : Path.withName ⟨anchor, front ++ (others ++ [last])⟩ name =
      ⟨anchor, front ++ (Path.withName ⟨.relative, others ++ [last]⟩ name).names⟩ := by
    simp [Path.withName, Path.parent, Path.child, ← List.append_assoc]
  have hbelow (name : String) : Path.child ⟨anchor, front ++ (others ++ [last])⟩ name =
      ⟨anchor, front ++ (Path.child ⟨.relative, others ++ [last]⟩ name).names⟩ := by
    simp [Path.child]
  unfold candidatePaths
  simp only [hname, hbelow, hbeside, hlonger (show IsSuffix "-routing.module.ts" by decide),
    hlonger (show IsSuffix ".routing.module.ts" by decide), hlonger (show IsSuffix ".ts" by decide)]
  split_ifs <;> simp only [List.map_append, List.map_cons, List.map_nil]

end RouteInventory.Routing
