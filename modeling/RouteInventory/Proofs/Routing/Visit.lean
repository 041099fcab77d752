import Mathlib
import RouteInventory.Routing.Tree

/-!
# Stretches of the walk

The walk over the routing modules taken apart. `walkModule` is the stretch over one module, `below`
what a single route contributes before its inline children, and `visit_cons` says that a visit is
these stretches one after another. A cache is `Faithful` if it has of each module what its file
declares; then what the walk over a module yields depends on the files alone
(`walkModule_of_not_mem`).
-/

namespace RouteInventory.Routing

/-- The full path of a segment below a parent; an empty segment adds nothing. -/
def extend (parent segment : String) : String :=
  if segment = "" then parent else joinPath parent segment

/-- Whether a route stands in a forest, itself or inside another at any depth. -/
inductive Declared : List Declaration → Declaration → Prop
  | here {d : Declaration} {others : List Declaration} : Declared (d :: others) d
  | inside {d e : Declaration} {others : List Declaration} (h : Declared d.children e) :
    Declared (d :: others) e
  | later {d e : Declaration} {others : List Declaration} (h : Declared others e) :
    Declared (d :: others) e

/-- The file that a reference was found to stand for. -/
def Resolution.file? {fs : FileSystem} : Resolution fs → Option Location
  | .found _ _ file _ => some file
  | _ => none

/-- Whether the file at a location is a routing module that declares the given routes. -/
def Holds (fs : FileSystem) (module : Location) (decls : List Declaration) : Prop :=
  ∃ text, fs.readText module.path = .ok text ∧ parseModule text = .ok decls

theorem Holds.unique {fs : FileSystem} {module : Location} {decls decls' : List Declaration}
    (h : Holds fs module decls) (h' : Holds fs module decls') : decls = decls' := by
  obtain ⟨text, hr, hp⟩ := h
  obtain ⟨text', hr', hp'⟩ := h'
  obtain rfl : text = text' := by simpa [hr] using hr'
  simpa [hp] using hp'

namespace ModuleCache

variable {cache : ModuleCache} {fs : FileSystem}

/-- Whether a cache has of each module in it the routes that the module's file declares. -/
def Faithful (cache : ModuleCache) (fs : FileSystem) : Prop :=
  ∀ module decls, cache.entries.lookup module = some decls → Holds fs module decls

theorem faithful_empty : Faithful {} fs := by
  intro module decls h
  simp at h

theorem Faithful.append {module : Location} {decls : List Declaration} (h : cache.Faithful fs)
    (hm : Holds fs module decls) (reads : Nat) :
    Faithful ⟨cache.entries ++ [(module, decls)], reads⟩ fs := by
  intro m ds hl
  rw [List.lookup_append, Option.or_eq_some_iff] at hl
  rcases hl with hl | ⟨-, hl⟩
  · exact h m ds hl
  · by_cases hk : m = module
    · subst hk
      obtain rfl : decls = ds := by simpa using hl
      exact hm
    · rw [List.lookup_cons, beq_eq_false_iff_ne.mpr hk] at hl
      simp at hl

/-- Loading keeps the cache faithful, and yields what the file declares if it can be read and parsed. -/
theorem loadAt_spec (h : cache.Faithful fs) (module : Location) :
    (cache.loadAt fs module).1.Faithful fs ∧
      match (cache.loadAt fs module).2 with
      | .ok loaded => Holds fs module loaded.routes
      | .error _ => ∀ decls, ¬Holds fs module decls := by
  unfold loadAt
  cases hl : cache.entries.lookup module with
  | some routes => exact ⟨h, h module routes hl⟩
  | none =>
    cases hr : fs.readText module.path with
    | error fault =>
      refine ⟨h, ?_⟩
      rintro decls ⟨text, hr', -⟩
      simp [hr] at hr'
    | ok text =>
      cases hp : parseModule text with
      | error fault =>
        simp only [hp]
        refine ⟨h, ?_⟩
        rintro decls ⟨text', hr', hp'⟩
        obtain rfl : text = text' := by simpa [hr] using hr'
        simp [hp] at hp'
      | ok routes =>
        have hm : Holds fs module routes := ⟨text, hr, hp⟩
        simp only [hp]
        exact ⟨h.append hm _, hm⟩

theorem loadAt_of_holds (hc : cache.Faithful fs) {module : Location} {decls : List Declaration}
    (h : Holds fs module decls) :
    ∃ cache' parsed, cache.loadAt fs module = (cache', .ok ⟨decls, parsed⟩) := by
  have hspec := loadAt_spec hc module
  rcases hl : cache.loadAt fs module with ⟨cache', fault | ⟨routes, parsed⟩⟩ <;> rw [hl] at hspec
  · exact absurd h (hspec.2 decls)
  · obtain rfl : routes = decls := Holds.unique hspec.2 h
    exact ⟨cache', parsed, rfl⟩

end ModuleCache

namespace Walk

variable {w : Walk} {next : ModuleCache → Walk}

@[simp] theorem fault_after (step : Step) : (w.after step).fault = w.fault := rfl

@[simp] theorem routes_after (step : Step) : (w.after step).routes = w.routes := rfl

@[simp] theorem cache_after (step : Step) : (w.after step).cache = w.cache := rfl

@[simp] theorem fault_orItself (full : String) : (w.orItself full).fault = w.fault := by
  unfold orItself; split <;> rfl

@[simp] theorem cache_orItself (full : String) : (w.orItself full).cache = w.cache := by
  unfold orItself; split <;> rfl

theorem andThen_of_fault (h : w.fault ≠ none) : w.andThen next = w := by
  unfold andThen
  cases hf : w.fault with
  | none => exact absurd hf h
  | some _ => rfl

theorem fault_andThen_of_none (h : w.fault = none) :
    (w.andThen next).fault = (next w.cache).fault := by
  simp only [andThen, h]

theorem routes_andThen_of_none (h : w.fault = none) :
    (w.andThen next).routes = w.routes ++ (next w.cache).routes := by
  simp only [andThen, h]

theorem cache_andThen_of_none (h : w.fault = none) :
    (w.andThen next).cache = (next w.cache).cache := by
  simp only [andThen, h]

theorem cache_andThen {P : ModuleCache → Prop} (hw : P w.cache)
    (hnext : ∀ cache, P cache → P (next cache).cache) : P (w.andThen next).cache := by
  by_cases h : w.fault = none
  · rw [cache_andThen_of_none h]
    exact hnext _ hw
  · rwa [andThen_of_fault h]

theorem fault_andThen_eq_none_iff :
    (w.andThen next).fault = none ↔ w.fault = none ∧ (next w.cache).fault = none := by
  by_cases h : w.fault = none
  · rw [fault_andThen_of_none h]
    exact ⟨fun hn => ⟨h, hn⟩, fun hn => hn.2⟩
  · rw [andThen_of_fault h]
    exact ⟨fun hn => absurd hn h, fun hn => hn.1⟩

/-- The fault of a walk of two stretches is that of the first, or else that of the second. -/
theorem fault_andThen_eq_some {fault : WalkFault} (h : (w.andThen next).fault = some fault) :
    w.fault = some fault ∨ (w.fault = none ∧ (next w.cache).fault = some fault) := by
  by_cases hw : w.fault = none
  · exact .inr ⟨hw, by rwa [fault_andThen_of_none hw] at h⟩
  · rw [andThen_of_fault hw] at h
    exact .inl h

end Walk

namespace Guide

variable (guide : Guide) (fs : FileSystem)

/-- The walk over a module below a parent path while other modules are active. -/
def walkModule (active : List Location) (module : Location) (parent : String) (depth : Nat)
    (cache : ModuleCache) : Walk :=
  if module ∈ active then ⟨[], [], cache, some (.cycle (cycleOf active module))⟩
  else
    match guide.enter fs module depth cache with
    | (steps, cache, .error fault) => ⟨steps, [], cache, some (.load fault)⟩
    | (steps, cache, .ok decls) =>
      Walk.andThen ⟨steps, [], cache, none⟩
        (guide.visit fs (module :: active) module parent depth decls)

/-- What a route with the given full path contributes apart from its inline children. -/
def below (active : List Location) (source : Location) (full : String) (depth : Nat)
    (d : Declaration) (cache : ModuleCache) : Walk :=
  let itself : Walk := ⟨[], if full = "" then [] else [full], cache, none⟩
  match d.loadChildren with
  | none => itself
  | some reference =>
    match guide.resolve fs reference source.path with
    | .empty => itself
    | .missing name => itself.after (.unresolved name source)
    | .found name path file _ =>
      (((guide.walkModule fs active file full (depth + 1) cache).orItself full).after
        (.load depth)).after (.resolve name path)

/-- The module that a route of a source module loads, if its reference stands for a file. -/
def loaded? (source : Location) (d : Declaration) : Option Location :=
  d.loadChildren.bind fun reference => (guide.resolve fs reference source.path).file?

variable {guide fs}

theorem mem_files_of_loaded? {source file : Location} {d : Declaration}
    (h : guide.loaded? fs source d = some file) : file ∈ fs.files := by
  obtain ⟨reference, -, h⟩ := Option.bind_eq_some_iff.mp h
  cases hr : guide.resolve fs reference source.path with
  | empty => simp [hr, Resolution.file?] at h
  | missing name => simp [hr, Resolution.file?] at h
  | found name path file' hfile =>
    obtain rfl : file' = file := by simpa [hr, Resolution.file?] using h
    exact hfile

/-- A reference stands for the first candidate if that is a file. -/
theorem loaded?_of_first {source file : Location} {d : Declaration} {reference : String}
    (hd : d.loadChildren = some reference) (hname : (referenceName reference).isEmpty = false)
    (hfile : fs.regularFile? ((guide.basePath (referenceName reference) source.path).appendText
      "-routing.module.ts") = some file) : guide.loaded? fs source d = some file := by
  rw [loaded?, hd, Option.bind_some, Layout.resolve, if_neg (by simp [hname]), candidatePaths]
  simp only [List.cons_append, firstFile?]
  split
  · rename_i heq
    split at heq
    · rename_i l hl
      obtain rfl : file = l := Option.some.inj (hfile.symm.trans hl)
      obtain ⟨rfl, h⟩ := Prod.mk.inj (Option.some.inj heq)
      obtain rfl := congrArg Subtype.val h
      rfl
    · rename_i hl
      simp [hfile] at hl
  · rename_i heq
    split at heq
    · simp at heq
    · rename_i hl
      simp [hfile] at hl

/-- Induction along the visits: from the modules that can still be entered, and from the inline
children and the later routes, to a list of routes. -/
theorem visit_induction (guide : Guide) (fs : FileSystem)
    {motive : List Location → Location → List Declaration → Prop}
    (nil : ∀ active source, motive active source [])
    (cons : ∀ active source d others,
      (∀ file decls, file ∈ fs.files → file ∉ active → motive (file :: active) file decls) →
      motive active source d.children → motive active source others →
      motive active source (d :: others))
    (active : List Location) (source : Location) (decls : List Declaration) :
    motive active source decls := by
  induction active, source, "", 0, decls, ({} : ModuleCache) using
    Guide.visit.induct guide fs with
  | case1 active source => exact nil active source
  | case2 active source parent depth cache d others _ _ full ihLoad ihInner ihOthers =>
    exact cons active source d others (fun file decls hf ha => ihLoad file hf ha decls cache)
      (ihInner cache) (ihOthers cache)

@[simp] theorem visit_nil (active : List Location) (source : Location) (parent : String)
    (depth : Nat) (cache : ModuleCache) :
    guide.visit fs active source parent depth [] cache = .rest cache := by
  rw [visit]

theorem enter_of_error (guide : Guide) {cache cache' : ModuleCache} {module : Location}
    {fault : LoadFault} (h : cache.loadAt fs module = (cache', .error fault)) (depth : Nat) :
    ∃ steps, guide.enter fs module depth cache = (steps, cache', .error fault) := by
  unfold enter
  rw [h]
  exact ⟨_, rfl⟩

theorem enter_of_ok (guide : Guide) {cache cache' : ModuleCache} {module : Location}
    {loaded : Loaded} (h : cache.loadAt fs module = (cache', .ok loaded)) (depth : Nat) :
    ∃ steps, guide.enter fs module depth cache = (steps, cache', .ok loaded.routes) := by
  unfold enter
  rw [h]
  obtain ⟨routes, _ | dynamic⟩ := loaded <;> exact ⟨_, rfl⟩

/-- A visit is the contribution of the first route, then its inline children, then the others. -/
theorem visit_cons (active : List Location) (source : Location) (parent : String) (depth : Nat)
    (d : Declaration) (others : List Declaration) (cache : ModuleCache) :
    guide.visit fs active source parent depth (d :: others) cache =
      (((guide.below fs active source (extend parent d.path) depth d cache).after
          (.declare depth d.path (extend parent d.path))).andThen
        (guide.visit fs active source (extend parent d.path) (depth + 1) d.children)).andThen
        (guide.visit fs active source parent depth others) := by
  rw [visit]
  unfold below extend walkModule
  rfl

theorem walk_eq_walkModule (root : Location) (cache : ModuleCache) :
    guide.walk fs root cache = guide.walkModule fs [] root "" 0 cache := by
  unfold walk walkModule
  exact (if_neg List.not_mem_nil).symm

theorem build_eq_walk {p : Path} {root : Location} (h : fs.canonical p = .ok root)
    (cache : ModuleCache) : guide.build fs p cache = guide.walk fs root cache := by
  rw [build, h]

section Below

variable {active : List Location} {source file : Location} {d : Declaration}

theorem below_of_not_loaded (h : guide.loaded? fs source d = none) (full : String) (depth : Nat)
    (cache : ModuleCache) :
    (guide.below fs active source full depth d cache).fault = none ∧
      (guide.below fs active source full depth d cache).cache = cache ∧
      (guide.below fs active source full depth d cache).routes = if full = "" then [] else [full] := by
  unfold below
  unfold loaded? at h
  cases hd : d.loadChildren with
  | none => exact ⟨rfl, rfl, rfl⟩
  | some reference =>
    simp only [hd, Option.bind_some] at h ⊢
    cases hr : guide.resolve fs reference source.path with
    | empty => exact ⟨rfl, rfl, rfl⟩
    | missing name => exact ⟨rfl, rfl, rfl⟩
    | found name path file hfile => simp [hr, Resolution.file?] at h

theorem below_of_loaded (h : guide.loaded? fs source d = some file) (full : String) (depth : Nat)
    (cache : ModuleCache) :
    (guide.below fs active source full depth d cache).fault =
        (guide.walkModule fs active file full (depth + 1) cache).fault ∧
      (guide.below fs active source full depth d cache).cache =
        (guide.walkModule fs active file full (depth + 1) cache).cache ∧
      (guide.below fs active source full depth d cache).routes =
        ((guide.walkModule fs active file full (depth + 1) cache).orItself full).routes := by
  unfold below
  unfold loaded? at h
  cases hd : d.loadChildren with
  | none => simp [hd] at h
  | some reference =>
    simp only [hd, Option.bind_some] at h ⊢
    cases hr : guide.resolve fs reference source.path with
    | empty => simp [hr, Resolution.file?] at h
    | missing name => simp [hr, Resolution.file?] at h
    | found name path file' hfile =>
      obtain rfl : file' = file := by simpa [hr, Resolution.file?] using h
      exact ⟨by simp, by simp, rfl⟩

end Below

section Module

variable {active : List Location} {module : Location} {cache : ModuleCache}

theorem fault_walkModule_of_mem (h : module ∈ active) (parent : String) (depth : Nat) :
    (guide.walkModule fs active module parent depth cache).fault =
      some (.cycle (cycleOf active module)) := by
  unfold walkModule
  rw [if_pos h]

theorem walkModule_of_error (guide : Guide) {cache' : ModuleCache} {fault : LoadFault}
    (ha : module ∉ active) (h : cache.loadAt fs module = (cache', .error fault)) (parent : String)
    (depth : Nat) :
    ∃ steps, guide.walkModule fs active module parent depth cache =
      ⟨steps, [], cache', some (.load fault)⟩ := by
  obtain ⟨steps, he⟩ := enter_of_error guide h depth
  refine ⟨steps, ?_⟩
  unfold walkModule
  rw [if_neg ha, he]

theorem walkModule_of_ok (guide : Guide) {cache' : ModuleCache} {loaded : Loaded}
    (ha : module ∉ active) (h : cache.loadAt fs module = (cache', .ok loaded)) (parent : String)
    (depth : Nat) :
    ∃ steps, guide.walkModule fs active module parent depth cache =
      Walk.andThen ⟨steps, [], cache', none⟩
        (guide.visit fs (module :: active) module parent depth loaded.routes) := by
  obtain ⟨steps, he⟩ := enter_of_ok guide h depth
  refine ⟨steps, ?_⟩
  unfold walkModule
  rw [if_neg ha, he]

/-- With a faithful cache a module that is not active either has no routes to be loaded, or the walk
over it is the visit of its routes. -/
theorem walkModule_of_not_mem (guide : Guide) (hc : cache.Faithful fs) (ha : module ∉ active)
    (parent : String) (depth : Nat) :
    (∃ fault, (guide.walkModule fs active module parent depth cache).fault = some (.load fault) ∧
        (guide.walkModule fs active module parent depth cache).cache.Faithful fs ∧
        ∀ decls, ¬Holds fs module decls) ∨
      ∃ decls cache', Holds fs module decls ∧ cache'.Faithful fs ∧
        let visited := guide.visit fs (module :: active) module parent depth decls cache'
        (guide.walkModule fs active module parent depth cache).fault = visited.fault ∧
          (guide.walkModule fs active module parent depth cache).cache = visited.cache := by
  have hspec := ModuleCache.loadAt_spec hc module
  rcases hl : cache.loadAt fs module with ⟨cache', fault | loaded⟩ <;> rw [hl] at hspec
  · obtain ⟨steps, hw⟩ := walkModule_of_error guide ha hl parent depth
    rw [hw]
    exact .inl ⟨fault, rfl, hspec⟩
  · obtain ⟨steps, hw⟩ := walkModule_of_ok guide ha hl parent depth
    rw [hw]
    exact .inr ⟨loaded.routes, cache', hspec.2, hspec.1, rfl, rfl⟩

end Module

/-- What a route contributes keeps the cache faithful, if visits of the modules it loads do. -/
theorem faithful_below_of {active : List Location} {source : Location} {d : Declaration}
    (hvisit : ∀ file decls parent depth cache, file ∈ fs.files → file ∉ active →
      ModuleCache.Faithful cache fs →
      (guide.visit fs (file :: active) file parent depth decls cache).cache.Faithful fs)
    (full : String) (depth : Nat) {cache : ModuleCache} (h : cache.Faithful fs) :
    (guide.below fs active source full depth d cache).cache.Faithful fs := by
  cases hl : guide.loaded? fs source d with
  | none => rwa [(below_of_not_loaded hl full depth cache).2.1]
  | some file =>
    rw [(below_of_loaded hl full depth cache).2.1]
    by_cases ha : file ∈ active
    · unfold walkModule
      rwa [if_pos ha]
    · rcases walkModule_of_not_mem guide h ha full (depth + 1) with
        ⟨_, _, hf, _⟩ | ⟨decls, cache', _, hc, -, heq⟩
      · exact hf
      · rw [heq]
        exact hvisit file decls _ _ cache' (mem_files_of_loaded? hl) ha hc

/-- A visit keeps the cache faithful, also when it ends in a fault. -/
theorem faithful_visit (active : List Location) (source : Location) (decls : List Declaration) :
    ∀ (parent : String) (depth : Nat) (cache : ModuleCache), cache.Faithful fs →
      (guide.visit fs active source parent depth decls cache).cache.Faithful fs := by
  induction active, source, decls using visit_induction guide fs with
  | nil active source =>
    intro parent depth cache h
    rwa [visit_nil]
  | cons active source d others ihLoad ihInner ihOthers =>
    intro parent depth cache h
    rw [visit_cons]
    refine Walk.cache_andThen (P := (·.Faithful fs)) (Walk.cache_andThen (P := (·.Faithful fs)) ?_
      (ihInner _ _)) (ihOthers _ _)
    exact faithful_below_of (fun file decls parent depth cache hf ha =>
      ihLoad file decls hf ha parent depth cache) _ depth h

theorem faithful_below (guide : Guide) {cache : ModuleCache} (h : cache.Faithful fs)
    (active : List Location) (source : Location) (full : String) (depth : Nat) (d : Declaration) :
    (guide.below fs active source full depth d cache).cache.Faithful fs :=
  faithful_below_of (fun file decls parent depth cache _ _ =>
    faithful_visit (file :: active) file decls parent depth cache) full depth h

end Guide

end RouteInventory.Routing
