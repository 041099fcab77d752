import RouteInventory.Proofs.Path.Cancel
import RouteInventory.Proofs.Routing.Boundary
import RouteInventory.Proofs.Routing.Candidates

/-!
# Probing

A reference stands for a path (`StandsFor`), and the conventions for the names of routing files give paths
beside it or below it (`Probes`). The resolver answers the first of these that is a regular file, in the
order of the conventions.
-/

namespace RouteInventory.Routing

open Text

/-! ### What a reference names -/

/-- Whether a name is what stands in a reference before its first number sign, without the blanks around
it. -/
def IsNameOf (reference name : List Char) : Prop :=
  IsTrimmed isBlank name ∧ ∃ left right symbol, (∀ c ∈ left, isBlank c = true) ∧
    (∀ c ∈ right, isBlank c = true) ∧ '#' ∉ left ++ name ++ right ∧
    (symbol = [] ∨ symbol.head? = some '#') ∧ reference = left ++ name ++ right ++ symbol

theorem isNameOf_iff {reference : String} {name : List Char} :
    IsNameOf reference.toList name ↔ name = referenceName reference := by
  constructor
  · rintro ⟨htrimmed, left, right, symbol, hleft, hright, hhash, hsymbol, htext⟩
    have hcut : (left ++ name ++ right ++ symbol).takeWhile (· != '#') = left ++ name ++ right := by
      have hkept : ∀ c ∈ left ++ name ++ right, (c != '#') = true := fun c hc =>
        bne_iff_ne.mpr fun heq => hhash (heq ▸ hc)
      have hend : symbol.takeWhile (· != '#') = [] := by
        rcases hsymbol with rfl | hsymbol
        · rfl
        · obtain ⟨rest, rfl⟩ := List.head?_eq_some_iff.mp hsymbol
          rfl
      rw [List.takeWhile_append_of_pos hkept, hend, List.append_nil]
    rw [referenceName, htext, hcut, strip, trim_append hleft hright htrimmed]
  · rintro rfl
    refine ⟨isTrimmed_trim _ _, ?_⟩
    obtain ⟨left, right, hleft, hright, hcut⟩ :=
      exists_trim isBlank (reference.toList.takeWhile (· != '#'))
    refine ⟨left, right, reference.toList.dropWhile (· != '#'), hleft, hright, ?_, ?_, ?_⟩
    · rw [referenceName, strip, ← hcut]
      intro hmem
      simpa using List.all_eq_true.mp List.all_takeWhile _ hmem
    · have hnot := List.head?_dropWhile_not (· != '#') reference.toList
      cases hdrop : reference.toList.dropWhile (· != '#') with
      | nil => exact .inl rfl
      | cons c rest =>
        rw [hdrop] at hnot
        exact .inr (by simpa using hnot)
    · rw [referenceName, strip, ← hcut, List.takeWhile_append_dropWhile]

/-- What the name of a reference spells: a path beside the declaring file if it begins with a dot, a path
in the project if it begins with `src/`, or else what it leaves, below the application's sources. -/
inductive Spells (layout : Layout) (source : Path) (name : List Char) : Path → Prop
  | beside (h : name.head? = some '.') :
      Spells layout source name (source.parent.join (.ofString (String.ofList name)))
  | project (h : "src/".toList <+: name) :
      Spells layout source name (layout.projectRoot.join (.ofString (String.ofList name)))
  | app (hdot : name.head? ≠ some '.') (hproject : ¬ "src/".toList <+: name) {rest : List (List Char)}
      (h : Leaves (fields '/' name) rest) : Spells layout source name
        (layout.appRoot.join (.ofString (String.ofList (['/'].intercalate rest))))

/-- Whether a path is what the name of a reference spells, with its double dots cancelled. -/
def StandsFor (layout : Layout) (source : Path) (name : List Char) (base : Path) : Prop :=
  ∃ spelled, Spells layout source name spelled ∧ spelled.CancelsTo base

/-- Whatever a name spells, the resolver looks it up with its double dots removed. -/
theorem Spells.normalize_eq {layout : Layout} {source spelled : Path} {name : List Char}
    (h : Spells layout source name spelled) : spelled.normalize = layout.basePath name source := by
  cases h with
  | beside h => simp [Layout.basePath, h]
  | project h =>
    have hdot : (name.head? == some '.') = false := by
      obtain ⟨rest, rfl⟩ := h
      rfl
    rw [Layout.basePath]
    simp only [hdot, after?_isSome_iff.mpr h, Bool.false_eq_true, if_false, if_true]
  | app hdot hproject h =>
    rw [basePath_of_app layout source hdot hproject, (leaves_dropBoundary name).unique h]
    rfl

theorem exists_spells (layout : Layout) (source : Path) (name : List Char) :
    ∃ spelled, Spells layout source name spelled := by
  by_cases hdot : name.head? = some '.'
  · exact ⟨_, .beside hdot⟩
  by_cases hproject : "src/".toList <+: name
  · exact ⟨_, .project hproject⟩
  · exact ⟨_, .app hdot hproject (leaves_dropBoundary name)⟩

theorem standsFor_iff {layout : Layout} {source : Path} {name : List Char} {base : Path} :
    StandsFor layout source name base ↔ base = layout.basePath name source := by
  constructor
  · rintro ⟨spelled, hspells, hcancels⟩
    rw [Path.cancelsTo_iff.mp hcancels, hspells.normalize_eq]
  · rintro rfl
    obtain ⟨spelled, hspells⟩ := exists_spells layout source name
    exact ⟨spelled, hspells, Path.cancelsTo_iff.mpr hspells.normalize_eq.symm⟩

/-! ### Conventions -/

/-- How a routing file may be called after the path that a reference stands for. -/
inductive Convention
  | dashed
  | dotted
  | inside
  | sibling
  | script
  | routes
deriving DecidableEq, Repr

/-- The conventions in the order in which they are tried. -/
def Convention.inOrder : List Convention := [dashed, dotted, inside, sibling, script, routes]

/-- The endings of the names of routes files. -/
def routesEndings : List String := ["-routing.module", ".routing.module", ".routes"]

/-- Whether a name is that of a routes file, up to a line feed at its end. -/
def EndsAsRoutes (name : List Char) : Prop :=
  ∃ stem ending feed, ending ∈ routesEndings ∧ (feed = [] ∨ feed = ['\n']) ∧
    name = stem ++ ending.toList ++ feed

/-- Which path a convention gives for a base path. -/
inductive Probes (base : Path) : Convention → Path → Prop
  | dashed : Probes base .dashed (base.lengthened "-routing.module.ts")
  | dotted : Probes base .dotted (base.lengthened ".routing.module.ts")
  | inside : Probes base .inside (base.child "routing.module.ts")
  | sibling {front back : List Char} (h : base.name.toList = front ++ (".module".toList ++ back))
      (hfirst : ∀ front' back', base.name.toList = front' ++ (".module".toList ++ back') →
        front.length ≤ front'.length) :
      Probes base .sibling
        (base.withName (String.ofList (front ++ ("-routing.module".toList ++ back)) ++ ".ts"))
  | script {stem : List Char} (h : base.name.toList = stem ++ ".ts".toList) :
      Probes base .script (base.withName (String.ofList stem ++ "-routing.module.ts"))
  | routes (h : EndsAsRoutes base.name.toList) : Probes base .routes (base.lengthened ".ts")

/-- The path that a convention gives. -/
def probe? (base : Path) : Convention → Option Path
  | .dashed => some (base.appendText "-routing.module.ts")
  | .dotted => some (base.appendText ".routing.module.ts")
  | .inside => some (base.child "routing.module.ts")
  | .sibling =>
    if occurs ".module".toList base.name.toList then
      some (base.withName (String.ofList
        (replaceFirst ".module".toList "-routing.module".toList base.name.toList) ++ ".ts"))
    else none
  | .script =>
    if ".ts".toList.isSuffixOf base.name.toList then
      some (base.withName (String.ofList (base.name.toList.take (base.name.toList.length - 3)) ++
        "-routing.module.ts"))
    else none
  | .routes => if namesRoutesFile base.name.toList then some (base.appendText ".ts") else none

theorem candidatePaths_eq_filterMap (base : Path) :
    candidatePaths base = Convention.inOrder.filterMap (probe? base) := by
  simp only [candidatePaths, Convention.inOrder, List.filterMap_cons, List.filterMap_nil, probe?]
  split_ifs <;> rfl

theorem exists_first_occurrence {word text : List Char} (h : word <:+: text) :
    ∃ front back, text = front ++ (word ++ back) ∧
      ∀ front' back', text = front' ++ (word ++ back') → front.length ≤ front'.length := by
  induction text with
  | nil =>
    obtain rfl : word = [] := List.infix_nil.mp h
    exact ⟨[], [], rfl, fun _ _ _ => Nat.zero_le _⟩
  | cons c text ih =>
    by_cases hprefix : word <+: c :: text
    · obtain ⟨back, hback⟩ := hprefix
      exact ⟨[], back, hback.symm, fun _ _ _ => Nat.zero_le _⟩
    · obtain ⟨front, back, rfl, hfirst⟩ := ih ((List.infix_cons_iff.mp h).resolve_left hprefix)
      refine ⟨c :: front, back, rfl, fun front' back' heq => ?_⟩
      cases front' with
      | nil => exact absurd ⟨back', heq.symm⟩ hprefix
      | cons d front' => exact Nat.succ_le_succ (hfirst front' back' (List.cons.inj heq).2)

theorem replaceFirst_append {word replacement front back : List Char} (hword : word ≠ [])
    (hfirst : ∀ front' back', front ++ (word ++ back) = front' ++ (word ++ back') →
      front.length ≤ front'.length) :
    replaceFirst word replacement (front ++ (word ++ back)) = front ++ (replacement ++ back) := by
  induction front with
  | nil =>
    cases hbody : word ++ back with
    | nil => exact absurd (List.append_eq_nil_iff.mp hbody).1 hword
    | cons c rest =>
      have hafter : after? word (c :: rest) = some back := after?_eq_some_iff.mpr hbody.symm
      rw [List.nil_append, replaceFirst, hafter, List.nil_append]
  | cons c front ih =>
    have hafter : after? word (c :: (front ++ (word ++ back))) = none := by
      refine Option.eq_none_iff_forall_ne_some.mpr fun back' hback' => ?_
      have heq : c :: (front ++ (word ++ back)) = word ++ back' := after?_eq_some_iff.mp hback'
      exact absurd (hfirst [] back' heq) (by simp)
    rw [List.cons_append, replaceFirst, hafter]
    dsimp only
    rw [ih fun front' back' heq => ?_, List.cons_append]
    exact Nat.le_of_succ_le_succ (hfirst (c :: front') back' (congrArg (c :: ·) heq))

theorem occurs_of_eq {word front back text : List Char} (h : text = front ++ (word ++ back)) :
    occurs word text = true :=
  occurs_iff.mpr ⟨front, back, by rw [h, List.append_assoc]⟩

theorem endsIn_iff {word : String} {name : List Char} : endsIn word name = true ↔
    ∃ stem feed, (feed = [] ∨ feed = ['\n']) ∧ name = stem ++ word.toList ++ feed := by
  rw [endsIn, Bool.or_eq_true, Bool.and_eq_true, List.isSuffixOf_iff_suffix, List.isSuffixOf_iff_suffix,
    beq_iff_eq]
  constructor
  · rintro (⟨stem, rfl⟩ | ⟨hlast, stem, hstem⟩)
    · exact ⟨stem, [], .inl rfl, by simp⟩
    · exact ⟨stem, ['\n'], .inr rfl, by rw [hstem, List.dropLast_append_getLast? _ hlast]⟩
  · rintro ⟨stem, feed, rfl | rfl, rfl⟩
    · exact .inl ⟨stem, by simp⟩
    · exact .inr ⟨by simp, stem, by simp⟩

theorem namesRoutesFile_iff {name : List Char} : namesRoutesFile name = true ↔ EndsAsRoutes name := by
  rw [namesRoutesFile, Bool.or_eq_true, Bool.or_eq_true, endsIn_iff, endsIn_iff, endsIn_iff]
  constructor
  · rintro ((⟨stem, feed, h⟩ | ⟨stem, feed, h⟩) | ⟨stem, feed, h⟩)
    · exact ⟨stem, "-routing.module", feed, by simp [routesEndings], h⟩
    · exact ⟨stem, ".routing.module", feed, by simp [routesEndings], h⟩
    · exact ⟨stem, ".routes", feed, by simp [routesEndings], h⟩
  · rintro ⟨stem, ending, feed, hending, h⟩
    simp only [routesEndings, List.mem_cons, List.not_mem_nil, or_false] at hending
    rcases hending with rfl | rfl | rfl
    · exact .inl (.inl ⟨stem, feed, h⟩)
    · exact .inl (.inr ⟨stem, feed, h⟩)
    · exact .inr ⟨stem, feed, h⟩

variable {base path : Path} {convention : Convention}

theorem Probes.probe?_eq (hbase : base.IsSpelled) (h : Probes base convention path) :
    probe? base convention = some path := by
  cases h with
  | dashed => exact congrArg some (Path.appendText_eq hbase (by decide))
  | dotted => exact congrArg some (Path.appendText_eq hbase (by decide))
  | inside => rfl
  | sibling hname hfirst =>
    rw [probe?, if_pos (occurs_of_eq hname), hname, replaceFirst_append (by decide) (hname ▸ hfirst)]
  | script hname =>
    rw [probe?, if_pos (List.isSuffixOf_iff_suffix.mpr ⟨_, hname.symm⟩), hname]
    simp
  | routes hname =>
    rw [probe?, if_pos (namesRoutesFile_iff.mpr hname), Path.appendText_eq hbase (by decide)]

theorem Probes.of_probe? (hbase : base.IsSpelled) (h : probe? base convention = some path) :
    Probes base convention path := by
  have hlonger {suffix : String} (hs : IsSuffix suffix) : base.appendText suffix = base.lengthened suffix :=
    Path.appendText_eq hbase hs
  cases convention with
  | dashed =>
    obtain rfl := Option.some.inj h
    rw [hlonger (by decide)]
    exact .dashed
  | dotted =>
    obtain rfl := Option.some.inj h
    rw [hlonger (by decide)]
    exact .dotted
  | inside =>
    obtain rfl := Option.some.inj h
    exact .inside
  | sibling =>
    obtain ⟨hoccurs, heq⟩ := Option.ite_none_right_eq_some.mp h
    obtain ⟨front, back, hname, hfirst⟩ := exists_first_occurrence (occurs_iff.mp hoccurs)
    rw [hname, replaceFirst_append (by decide) (hname ▸ hfirst)] at heq
    obtain rfl := Option.some.inj heq
    exact .sibling hname hfirst
  | script =>
    obtain ⟨hsuffix, heq⟩ := Option.ite_none_right_eq_some.mp h
    obtain ⟨stem, hname⟩ := List.isSuffixOf_iff_suffix.mp hsuffix
    have hstem : base.name.toList.take (base.name.toList.length - 3) = stem := by simp [← hname]
    rw [hstem] at heq
    obtain rfl := Option.some.inj heq
    exact .script hname.symm
  | routes =>
    obtain ⟨hname, heq⟩ := Option.ite_none_right_eq_some.mp h
    rw [hlonger (by decide)] at heq
    obtain rfl := Option.some.inj heq
    exact .routes (namesRoutesFile_iff.mp hname)

/-- The conventions give what the resolver tries. -/
theorem probes_iff (h : base.IsSpelled) : Probes base convention path ↔ probe? base convention = some path :=
  ⟨Probes.probe?_eq h, Probes.of_probe? h⟩

/-! ### The path found -/

theorem path?_resolve (layout : Layout) (fs : FileSystem) (reference : String) (source : Path) :
    (layout.resolve fs reference source).path? = if (referenceName reference).isEmpty then none else
      (candidatePaths (layout.basePath (referenceName reference) source)).find? fs.isFile := by
  have hfind (paths : List Path) :
      (firstFile? fs paths).map (fun found => found.1) = paths.find? fs.isFile := by
    induction paths with
    | nil => rfl
    | cons p rest ih =>
      rw [firstFile?, List.find?_cons, FileSystem.isFile]
      split
      · next l hl => simp only [hl, Option.map_some, Option.isSome_some]
      · next hl => simpa only [hl, Option.isSome_none] using ih
  unfold Layout.resolve
  dsimp only
  split
  · rfl
  · rw [← hfind]
    rcases firstFile? fs (candidatePaths (layout.basePath (referenceName reference) source)) with
      _ | ⟨path, file, hfile⟩ <;> rfl

/-- The first item with a property, by the keys that give the items. -/
theorem find?_filterMap_eq_some_iff {κ α : Type} {f : κ → Option α} {p : α → Bool} {keys : List κ} {a : α} :
    (keys.filterMap f).find? p = some a ↔ ∃ before key after, keys = before ++ key :: after ∧
      f key = some a ∧ p a = true ∧ ∀ earlier ∈ before, ∀ b, f earlier = some b → p b = false := by
  rw [← List.head?_filter, List.filter_filterMap, List.head?_filterMap, List.findSome?_eq_some_iff]
  simp only [Option.filter_eq_some_iff, Option.filter_eq_none_iff, and_assoc, Bool.not_eq_true]

/-- The resolver finds the first regular file that the conventions give for a reference, and nothing for one
that names nothing. -/
theorem path?_resolve_eq_some_iff (fs : FileSystem) (project app source reference : String) :
    ∃ name base, (∀ name', IsNameOf reference.toList name' ↔ name' = name) ∧
      (∀ base', StandsFor ⟨.ofString project, .ofString app⟩ (.ofString source) name base' ↔ base' = base) ∧
      ∀ path, (Layout.resolve ⟨.ofString project, .ofString app⟩ fs reference (.ofString source)).path? =
        some path ↔ name ≠ [] ∧ ∃ before convention after,
          Convention.inOrder = before ++ convention :: after ∧ Probes base convention path ∧
          fs.isFile path = true ∧
          ∀ earlier ∈ before, ∀ path', Probes base earlier path' → fs.isFile path' = false := by
  refine ⟨referenceName reference, _, fun _ => isNameOf_iff, fun _ => standsFor_iff, fun path => ?_⟩
  have hspelled : (Layout.basePath ⟨.ofString project, .ofString app⟩ (referenceName reference)
      (.ofString source)).IsSpelled :=
    isSpelled_basePath (Path.isSpelled_ofString project) (Path.isSpelled_ofString app)
      (Path.isSpelled_ofString source) (referenceName reference)
  rw [path?_resolve]
  split
  · next hempty => simp [List.isEmpty_iff.mp hempty]
  · next hname =>
    rw [candidatePaths_eq_filterMap, find?_filterMap_eq_some_iff]
    simp only [probes_iff hspelled]
    exact ⟨fun h => ⟨by simpa using hname, h⟩, fun h => h.2⟩

/-- A script whose name has a line feed where a routes file ends. -/
def fedFiles : FileSystem where
  entries := [(⟨["x.routes\n.ts"]⟩, .file [])]
  workingDir := .root

def fedLayout : Layout := ⟨.ofString ".", .ofString "src/app"⟩

/-- The ending of a routes file is found in front of a line feed, where the name does not end. -/
theorem resolve_lineFeed_ne :
    ∃ path, (fedLayout.resolve fedFiles "./x.routes\n/" (.ofString "a.ts")).path? = some path ∧
      (∀ convention, Probes (fedLayout.basePath (referenceName "./x.routes\n/") (.ofString "a.ts"))
        convention path → convention = .routes) ∧
      ∀ ending ∈ routesEndings, ¬ ending.toList <:+
        (fedLayout.basePath (referenceName "./x.routes\n/") (.ofString "a.ts")).name.toList := by
  have hbase : fedLayout.basePath (referenceName "./x.routes\n/") (.ofString "a.ts") =
      ⟨.relative, ["x.routes\n"]⟩ := by decide
  have hspelled : Path.IsSpelled ⟨.relative, ["x.routes\n"]⟩ := by
    have hnames : ∀ name ∈ ["x.routes\n"], IsName name := by decide
    exact hnames
  rw [hbase]
  refine ⟨⟨.relative, ["x.routes\n.ts"]⟩, ?_, fun convention hprobes => ?_, by decide⟩
  · have hcandidates : candidatePaths ⟨.relative, ["x.routes\n"]⟩ =
        [⟨.relative, ["x.routes\n-routing.module.ts"]⟩, ⟨.relative, ["x.routes\n.routing.module.ts"]⟩,
          ⟨.relative, ["x.routes\n", "routing.module.ts"]⟩, ⟨.relative, ["x.routes\n.ts"]⟩] := by decide
    rw [path?_resolve, if_neg (by decide), hbase, hcandidates]
    simp [FileSystem.isFile, FileSystem.regularFile?, FileSystem.locate, FileSystem.locateFrom,
      FileSystem.entryAt?, fedFiles, Location.root, Location.child, Path.isAbsolute, List.lookup_cons,
      BEq.beq]
  · rw [probes_iff hspelled] at hprobes
    revert hprobes
    cases convention <;> decide

end RouteInventory.Routing
