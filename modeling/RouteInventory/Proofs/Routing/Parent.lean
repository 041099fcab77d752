import RouteInventory.Proofs.Routing.Visit

/-!
# Routes below a parent

What a module contributes depends on the parent path only by the paths that stand in front of its
routes. A stretch of the walk is `Uniform` if it finds the same relative paths below every parent,
together with the same cache and fault; the routes are then these paths `placed` below the parent, an
empty one being the parent itself and left out below no parent. `uniform_visit` says that every visit
is such a stretch.
-/

namespace RouteInventory.Routing

/-! ### Paths below a parent -/

theorem joinPath_ne_empty (parent : String) {segment : String} (h : segment ≠ "") :
    joinPath parent segment ≠ "" := by
  unfold joinPath
  split
  · exact h
  · simp

@[simp] theorem extend_empty (parent : String) : extend parent "" = parent := if_pos rfl

@[simp] theorem empty_extend (segment : String) : extend "" segment = segment := by
  unfold extend joinPath
  split
  · rename_i h
    exact h.symm
  · rw [if_pos rfl]

theorem extend_of_ne {parent segment : String} (hp : parent ≠ "") (hs : segment ≠ "") :
    extend parent segment = parent ++ "/" ++ segment := by
  rw [extend, if_neg hs, joinPath, if_neg hp]

theorem extend_eq_empty_iff {parent segment : String} :
    extend parent segment = "" ↔ parent = "" ∧ segment = "" := by
  by_cases hs : segment = ""
  · simp [hs]
  · simp [extend, hs, joinPath_ne_empty]

theorem extend_assoc (a b c : String) : extend (extend a b) c = extend a (extend b c) := by
  by_cases ha : a = ""
  · simp [ha]
  by_cases hb : b = ""
  · simp [hb]
  by_cases hc : c = ""
  · simp [hc]
  rw [extend_of_ne (by simp [extend_eq_empty_iff, ha]) hc, extend_of_ne ha hb, extend_of_ne hb hc,
    extend_of_ne ha (by simp [hb])]
  simp only [String.append_assoc]

theorem extend_eq_self_iff {parent segment : String} (hp : parent ≠ "") :
    extend parent segment = parent ↔ segment = "" := by
  refine ⟨fun h => ?_, fun h => by simp [h]⟩
  by_cases hs : segment = ""
  · exact hs
  · have hlength := congrArg String.length (extend_of_ne hp hs ▸ h)
    have hslash : ("/" : String).length = 1 := by decide
    simp only [String.length_append] at hlength
    omega

/-- Relative paths below a parent; below no parent the empty path is no route. -/
def placed (parent : String) (relative : List String) : List String :=
  (relative.map (extend parent)).filter (· ≠ "")

@[simp] theorem placed_nil (parent : String) : placed parent [] = [] := rfl

theorem placed_append (parent : String) (first second : List String) :
    placed parent (first ++ second) = placed parent first ++ placed parent second := by
  simp [placed]

theorem placed_singleton (parent segment : String) :
    placed parent [segment] = if extend parent segment = "" then [] else [extend parent segment] := by
  by_cases h : extend parent segment = "" <;> simp [placed, h]

theorem placed_map_extend (parent segment : String) (relative : List String) :
    placed parent (relative.map (extend segment)) = placed (extend parent segment) relative := by
  have : extend parent ∘ extend segment = extend (extend parent segment) :=
    funext fun r => (extend_assoc parent segment r).symm
  rw [placed, placed, List.map_map, this]

theorem placed_of_ne {parent : String} (h : parent ≠ "") (relative : List String) :
    placed parent relative = relative.map (extend parent) := by
  rw [placed, List.filter_eq_self]
  intro full hf
  obtain ⟨segment, -, rfl⟩ := List.mem_map.mp hf
  simp [extend_eq_empty_iff, h]

theorem placed_empty (relative : List String) : placed "" relative = relative.filter (· ≠ "") := by
  rw [placed, show extend "" = id from funext empty_extend, List.map_id]

/-! ### Stretches that depend on the parent by its path alone -/

/-- Stretches of the walk, one for each parent and depth, that find the same relative paths and leave
the same cache and fault. -/
structure Uniform (stretch : String → Nat → Walk) (relative : List String) (cache : ModuleCache)
    (fault : Option WalkFault) : Prop where
  routes : ∀ parent depth, (stretch parent depth).routes = placed parent relative
  cache : ∀ parent depth, (stretch parent depth).cache = cache
  fault : ∀ parent depth, (stretch parent depth).fault = fault

namespace Uniform

variable {stretch : String → Nat → Walk} {relative : List String} {cache : ModuleCache}
  {fault : Option WalkFault}

theorem at_depth (h : Uniform stretch relative cache fault) (deeper : Nat → Nat) :
    Uniform (fun parent depth => stretch parent (deeper depth)) relative cache fault :=
  ⟨fun _ _ => h.routes _ _, fun _ _ => h.cache _ _, fun _ _ => h.fault _ _⟩

/-- A uniform stretch below a segment is uniform in the parent of the segment. -/
theorem below_segment (h : Uniform stretch relative cache fault) (segment : String) :
    Uniform (fun parent depth => stretch (extend parent segment) depth)
      (relative.map (extend segment)) cache fault := by
  refine ⟨fun parent depth => ?_, fun _ _ => h.cache _ _, fun _ _ => h.fault _ _⟩
  rw [h.routes, placed_map_extend]

theorem andThen (h : Uniform stretch relative cache fault)
    (next : String → Nat → ModuleCache → Walk)
    (hnext : ∃ relative' cache' fault', Uniform (fun parent depth => next parent depth cache)
      relative' cache' fault') :
    ∃ relative' cache' fault',
      Uniform (fun parent depth => (stretch parent depth).andThen (next parent depth))
        relative' cache' fault' := by
  cases fault with
  | some e =>
    have heq : ∀ parent depth, (stretch parent depth).andThen (next parent depth) =
        stretch parent depth := fun parent depth => Walk.andThen_of_fault (by simp [h.fault])
    exact ⟨relative, cache, some e, by simpa only [heq] using h⟩
  | none =>
    obtain ⟨relative', cache', fault', hnext⟩ := hnext
    refine ⟨relative ++ relative', cache', fault', fun parent depth => ?_, fun parent depth => ?_,
      fun parent depth => ?_⟩
    · rw [Walk.routes_andThen_of_none (h.fault _ _), h.cache, h.routes, hnext.routes, placed_append]
    · rw [Walk.cache_andThen_of_none (h.fault _ _), h.cache, hnext.cache]
    · rw [Walk.fault_andThen_of_none (h.fault _ _), h.cache, hnext.fault]

end Uniform

namespace Guide

variable {guide : Guide} {fs : FileSystem} {active : List Location}

theorem routes_orItself (w : Walk) (full : String) :
    (w.orItself full).routes =
      if w.fault = none ∧ w.routes = [] ∧ full ≠ "" then [full] else w.routes := by
  unfold Walk.orItself
  simp only [Option.isNone_iff_eq_none]
  split <;> rfl

/-- A module represented by the route that loads it when it has no routes is uniform again. -/
theorem uniform_orItself {stretch : String → Nat → Walk} {relative : List String}
    {cache : ModuleCache} {fault : Option WalkFault} (h : Uniform stretch relative cache fault) :
    Uniform (fun full depth => (stretch full depth).orItself full)
      (if fault = none ∧ relative = [] then [""] else relative) cache fault := by
  refine ⟨fun full depth => ?_, fun _ _ => by simp [h.cache], fun _ _ => by simp [h.fault]⟩
  rw [routes_orItself, h.fault, h.routes]
  by_cases hf : fault = none
  · by_cases hr : relative = []
    · by_cases hfull : full = "" <;> simp [hf, hr, hfull, placed_singleton]
    · -- below a parent no relative path is lost, below none the module may not represent itself
      have hkeep : ¬(fault = none ∧ placed full relative = [] ∧ full ≠ "") := by
        rintro ⟨-, hp, hfull⟩
        rw [placed_of_ne hfull] at hp
        exact hr (List.map_eq_nil_iff.mp hp)
      rw [if_neg hkeep, if_neg fun h => hr h.2]
  · simp [hf]

/-- The walk over a module is uniform if the visits of its routes are. -/
theorem uniform_walkModule_of {module : Location}
    (hvisit : module ∉ active → ∀ decls cache, ∃ relative cache' fault,
      Uniform (fun parent depth =>
        guide.visit fs (module :: active) module parent depth decls cache) relative cache' fault)
    (cache : ModuleCache) :
    ∃ relative cache' fault,
      Uniform (fun parent depth => guide.walkModule fs active module parent depth cache)
        relative cache' fault := by
  by_cases ha : module ∈ active
  · unfold walkModule
    simp only [if_pos ha]
    exact ⟨[], cache, _, fun _ _ => rfl, fun _ _ => rfl, fun _ _ => rfl⟩
  · rcases hl : cache.loadAt fs module with ⟨cache₁, fault | loaded⟩
    · refine ⟨[], cache₁, some (.load fault), fun parent depth => ?_, fun parent depth => ?_,
        fun parent depth => ?_⟩ <;>
        obtain ⟨steps, hw⟩ := walkModule_of_error guide ha hl parent depth <;> rw [hw]
      rfl
    · obtain ⟨relative, cache₂, fault, h⟩ := hvisit ha loaded.routes cache₁
      refine ⟨relative, cache₂, fault, fun parent depth => ?_, fun parent depth => ?_,
        fun parent depth => ?_⟩ <;>
        obtain ⟨steps, hw⟩ := walkModule_of_ok guide ha hl parent depth <;> rw [hw]
      · exact h.routes parent depth
      · exact h.cache parent depth
      · exact h.fault parent depth

theorem uniform_below (source : Location) (d : Declaration)
    (hvisit : ∀ file decls, file ∈ fs.files → file ∉ active → ∀ cache, ∃ relative cache' fault,
      Uniform (fun parent depth => guide.visit fs (file :: active) file parent depth decls cache)
        relative cache' fault)
    (cache : ModuleCache) :
    ∃ relative cache' fault,
      Uniform (fun full depth => guide.below fs active source full depth d cache)
        relative cache' fault := by
  cases hl : guide.loaded? fs source d with
  | none =>
    refine ⟨[""], cache, none, fun full depth => ?_, fun full depth => ?_, fun full depth => ?_⟩
    · rw [(below_of_not_loaded hl full depth cache).2.2, placed_singleton, extend_empty]
    · exact (below_of_not_loaded hl full depth cache).2.1
    · exact (below_of_not_loaded hl full depth cache).1
  | some file =>
    obtain ⟨relative, cache', fault, h⟩ := uniform_walkModule_of
      (fun ha decls => hvisit file decls (mem_files_of_loaded? hl) ha) cache
    have h := uniform_orItself (h.at_depth (· + 1))
    refine ⟨if fault = none ∧ relative = [] then [""] else relative, cache', fault,
      fun full depth => ?_, fun full depth => ?_, fun full depth => ?_⟩
    · rw [(below_of_loaded hl full depth cache).2.2]
      exact h.routes full depth
    · rw [(below_of_loaded hl full depth cache).2.1]
      simpa using h.cache full depth
    · rw [(below_of_loaded hl full depth cache).1]
      simpa using h.fault full depth

/-- Every visit finds the same relative paths, leaves the same cache and ends in the same fault below
every parent. -/
theorem uniform_visit (active : List Location) (source : Location) (decls : List Declaration) :
    ∀ cache, ∃ relative cache' fault,
      Uniform (fun parent depth => guide.visit fs active source parent depth decls cache)
        relative cache' fault := by
  induction active, source, decls using visit_induction guide fs with
  | nil active source =>
    intro cache
    refine ⟨[], cache, none, ?_, ?_, ?_⟩ <;> intro parent depth <;> rw [visit_nil] <;> rfl
  | cons active source d others ihLoad ihInner ihOthers =>
    intro cache
    simp only [visit_cons]
    obtain ⟨relative, cache₁, fault, hbelow⟩ := uniform_below source d ihLoad cache
    have hfirst : Uniform (fun parent depth =>
        (guide.below fs active source (extend parent d.path) depth d cache).after
          (.declare depth d.path (extend parent d.path))) _ cache₁ fault :=
      ⟨(hbelow.below_segment d.path).routes, (hbelow.below_segment d.path).cache,
        (hbelow.below_segment d.path).fault⟩
    obtain ⟨relative', cache₂, fault', hinner⟩ := ihInner cache₁
    obtain ⟨_, cache₃, _, hboth⟩ := hfirst.andThen
      (fun parent depth => guide.visit fs active source (extend parent d.path) (depth + 1) d.children)
      ⟨_, _, _, (hinner.at_depth (· + 1)).below_segment d.path⟩
    exact hboth.andThen _ (ihOthers cache₃)

theorem uniform_walkModule (guide : Guide) (fs : FileSystem) (active : List Location)
    (module : Location) (cache : ModuleCache) :
    ∃ relative cache' fault,
      Uniform (fun parent depth => guide.walkModule fs active module parent depth cache)
        relative cache' fault :=
  uniform_walkModule_of (fun _ decls => uniform_visit (module :: active) module decls) cache

end Guide

/-! ### The routes of a module below two parents -/

/-- What stands in a text behind as many characters as another has. -/
def behind (leading text : String) : String := String.ofList (text.toList.drop leading.length)

theorem behind_append (leading text : String) : behind leading (leading ++ text) = text := by
  rw [behind, String.toList_append, ← String.length_toList, List.drop_left, String.ofList_toList]

theorem behind_self (text : String) : behind text text = "" := by
  simpa using behind_append text ""

theorem mem_placed {parent x : String} (hp : parent ≠ "") {relative : List String}
    (h : x ∈ placed parent relative) :
    x = parent ∨ ∃ segment, segment ≠ "" ∧ x = parent ++ "/" ++ segment := by
  rw [placed_of_ne hp] at h
  obtain ⟨segment, -, rfl⟩ := List.mem_map.mp h
  by_cases hs : segment = ""
  · exact .inl (by simp [hs])
  · exact .inr ⟨segment, hs, extend_of_ne hp hs⟩

/-- Without the parent the paths are those below it with the parent's part taken away. -/
theorem placed_empty_eq {parent : String} (hp : parent ≠ "") (relative : List String) :
    placed "" relative =
      ((placed parent relative).filter (· ≠ parent)).map (behind (parent ++ "/")) := by
  rw [placed_empty, placed_of_ne hp, List.filter_map, List.map_map]
  have hfilter : ((fun x => decide (x ≠ parent)) ∘ extend parent) = fun s => decide (s ≠ "") := by
    funext s
    simp [extend_eq_self_iff hp]
  rw [hfilter]
  refine (List.map_id _).symm.trans (List.map_congr_left fun s hs => ?_)
  have hs : s ≠ "" := by simpa using (List.mem_filter.mp hs).2
  rw [Function.comp_apply, extend_of_ne hp hs, behind_append, id]

/-- Below another parent the paths are the same with that parent's part in place of the first's. -/
theorem placed_eq_map_placed {parent other : String} (hp : parent ≠ "") (ho : other ≠ "")
    (relative : List String) :
    placed other relative = (placed parent relative).map fun x => other ++ behind parent x := by
  rw [placed_of_ne hp, placed_of_ne ho, List.map_map]
  refine List.map_congr_left fun s _ => ?_
  rw [Function.comp_apply]
  by_cases hs : s = ""
  · simp [hs, behind_self]
  · rw [extend_of_ne hp hs, extend_of_ne ho hs, @String.append_assoc parent, behind_append,
      String.append_assoc]

/-- A module contributes the same routes below every parent: below a path each of them is that path
or lies below it, below no parent they are the same without the path and its slash, and below another
path they are the same with the one path in place of the other. The walk ends in the same fault, if
in any, and leaves the same cache. -/
theorem Guide.routes_walkModule_parent (guide : Guide) (fs : FileSystem) (active : List Location)
    (module : Location) (depth : Nat) (cache : ModuleCache) (parent : String) (h : parent ≠ "") :
    let walk (p : String) := guide.walkModule fs active module p depth cache
    (∀ x ∈ (walk parent).routes,
        x = parent ∨ ∃ segment, segment ≠ "" ∧ x = parent ++ "/" ++ segment) ∧
      (walk "").routes =
        ((walk parent).routes.filter (· ≠ parent)).map (behind (parent ++ "/")) ∧
      (∀ other, other ≠ "" →
        (walk other).routes = (walk parent).routes.map fun x => other ++ behind parent x) ∧
      ∀ other, (walk other).fault = (walk parent).fault ∧
        (walk other).cache = (walk parent).cache := by
  obtain ⟨relative, cache', fault, hu⟩ := guide.uniform_walkModule fs active module cache
  refine ⟨fun x hx => ?_, ?_, fun other ho => ?_, fun other => ⟨?_, ?_⟩⟩
  · rw [hu.routes] at hx
    exact mem_placed h hx
  · rw [hu.routes, hu.routes, placed_empty_eq h]
  · rw [hu.routes, hu.routes, placed_eq_map_placed h ho]
  · rw [hu.fault, hu.fault]
  · rw [hu.cache, hu.cache]

/-- A module with an empty path, a path and a path below that. -/
def shopFiles : FileSystem where
  entries := [(⟨["shop.routes.ts"]⟩, .file (Text.Utf8.encode
    "[\x7bpath:''\x7d,\x7bpath:'a',children:[\x7bpath:'b'\x7d]\x7d]".toList))]
  workingDir := .root

theorem routes_shopFiles (guide : Guide) :
    (guide.walkModule shopFiles [] ⟨["shop.routes.ts"]⟩ "shop" 0 {}).routes =
      ["shop", "shop/a", "shop/a/b"] := by
  have h : Holds shopFiles ⟨["shop.routes.ts"]⟩
      [⟨"", none, 1, []⟩, ⟨"a", none, 1, [⟨"b", none, 1, []⟩]⟩] :=
    ⟨"[\x7bpath:''\x7d,\x7bpath:'a',children:[\x7bpath:'b'\x7d]\x7d]".toList, by cbv, by cbv⟩
  obtain ⟨cache', parsed, hload⟩ := ModuleCache.loadAt_of_holds ModuleCache.faithful_empty h
  obtain ⟨steps, hw⟩ := Guide.walkModule_of_ok guide List.not_mem_nil hload "shop" 0
  rw [hw]
  simp [Walk.andThen, Guide.visit_cons, Guide.below, extend, joinPath, Walk.rest]

/-- References looked up and modules named from the root. -/
def shopGuide : Guide where
  projectRoot := ⟨.slash, []⟩
  appRoot := ⟨.slash, []⟩
  displayRoot := ⟨.slash, []⟩

/-- Below no parent that module contributes its two paths that are not empty. -/
theorem routes_shopFiles_root :
    (shopGuide.walkModule shopFiles [] ⟨["shop.routes.ts"]⟩ "" 0 {}).routes = ["a", "a/b"] := by
  have h := shopGuide.routes_walkModule_parent shopFiles [] ⟨["shop.routes.ts"]⟩ 0 {} "shop"
    (by decide)
  rw [h.2.1, routes_shopFiles]
  decide

end RouteInventory.Routing
