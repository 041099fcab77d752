import RouteInventory.Proofs.Routing.Visit

/-!
# Walks that agree

What a walk finds depends on two things only: what the files of the modules declare, and which files the
references in them stand for. So two walks agree, with whatever guides on whatever file systems, if they
agree in these two things on the modules that they meet (`agrees_build`), up to the names that modules have in the
trace. A cache only spares reading: with any faithful cache the walk comes to the same.
-/

namespace RouteInventory.Routing

/-- What the file of a module declares, or why it cannot be loaded. -/
def declared (fs : FileSystem) (module : Location) : Except LoadFault (List Declaration) :=
  match fs.readText module.path with
  | .error fault => .error (.unreadable fault)
  | .ok text =>
    match parseModule text with
    | .error fault => .error (.unbalanced module.path fault)
    | .ok decls => .ok decls

theorem declared_eq_ok_iff {fs : FileSystem} {module : Location} {decls : List Declaration} :
    declared fs module = .ok decls ↔ Holds fs module decls := by
  unfold declared Holds
  cases hr : fs.readText module.path with
  | error fault => simp
  | ok text =>
    cases hp : parseModule text with
    | error fault => simp [hp]
    | ok decls' => simp [hp]

theorem declared_congr {fs fs' : FileSystem} {module : Location}
    (h : fs.readText module.path = fs'.readText module.path) :
    declared fs module = declared fs' module := by
  rw [declared, h]
  rfl

namespace ModuleCache

variable {cache : ModuleCache} {fs : FileSystem}

theorem routes_loadAt (h : cache.Faithful fs) (module : Location) :
    (cache.loadAt fs module).2.map (·.routes) = declared fs module := by
  unfold loadAt
  cases hl : cache.entries.lookup module with
  | some routes => exact (declared_eq_ok_iff.mpr (h module routes hl)).symm
  | none =>
    rw [declared]
    cases hr : fs.readText module.path with
    | error fault => rfl
    | ok text =>
      dsimp only
      cases hp : parseModule text with
      | error fault => rfl
      | ok routes => rfl

end ModuleCache

namespace Step

/-- What a step shows of itself, but for the name of the module. -/
def outline? : Step → Option Step
  | scan depth module _ => some (scan depth module "")
  | declare depth segment full => some (declare depth segment full)
  | load depth => some (load depth)
  | _ => none

/-- The step with its module named in another way. -/
def naming (name : Location → String) : Step → Step
  | scan depth module _ => scan depth module (name module)
  | step => step

theorem traceLine?_naming (name : Location → String) (step : Step) :
    step.outline?.bind (fun s => (s.naming name).traceLine?) = (step.naming name).traceLine? := by
  cases step <;> rfl

theorem scanned?_outline? (step : Step) : step.outline?.bind scanned? = step.scanned? := by
  cases step <;> rfl

end Step

/-- The trace of some steps that names modules in the given way. -/
def traceNaming (name : Location → String) (steps : List Step) : List String :=
  (steps.map (Step.naming name)).filterMap Step.traceLine?

namespace Walk

/-- The steps of a walk that are shown, but for the names of modules. -/
def outline (w : Walk) : List Step := w.steps.filterMap Step.outline?

/-- Whether a walk names modules in the given way. -/
def NamedBy (name : Location → String) (w : Walk) : Prop := ∀ step ∈ w.steps, step.naming name = step

variable {w w' : Walk} {next next' : ModuleCache → Walk} {name : Location → String}

theorem trace_tree (h : w.NamedBy name) : w.tree.trace = traceNaming name w.outline := by
  have hlines : w.outline.filterMap (fun s => (s.naming name).traceLine?) =
      w.steps.filterMap fun step => (step.naming name).traceLine? := by
    simp only [outline, List.filterMap_filterMap, Step.traceLine?_naming]
  rw [traceNaming, List.filterMap_map, Function.comp_def, hlines, tree]
  exact List.filterMap_congr fun step hstep => by rw [h step hstep]

theorem modules_tree (w : Walk) : w.tree.modules = (w.outline.filterMap Step.scanned?).eraseDups := by
  simp only [outline, List.filterMap_filterMap, Step.scanned?_outline?, tree]

theorem outline_after (step : Step) : (w.after step).outline = step.outline?.toList ++ w.outline := by
  unfold outline after
  cases h : step.outline? <;> simp [h]

@[simp] theorem outline_orItself (full : String) : (w.orItself full).outline = w.outline := by
  unfold orItself; split <;> rfl

theorem outline_andThen_of_none (h : w.fault = none) :
    (w.andThen next).outline = w.outline ++ (next w.cache).outline := by
  simp only [outline, andThen, h, List.filterMap_append]

namespace NamedBy

theorem of_steps (h : w.NamedBy name) (hsteps : w'.steps = w.steps) : w'.NamedBy name := by
  rwa [NamedBy, hsteps]

theorem after (h : w.NamedBy name) {step : Step} (hstep : step.naming name = step) :
    (w.after step).NamedBy name := by
  intro s hs
  rcases List.mem_cons.mp hs with rfl | hs
  · exact hstep
  · exact h s hs

theorem orItself (h : w.NamedBy name) (full : String) : (w.orItself full).NamedBy name := by
  unfold Walk.orItself
  split
  · exact h.of_steps rfl
  · exact h

theorem andThen (h : w.NamedBy name) (hnext : (next w.cache).NamedBy name) :
    (w.andThen next).NamedBy name := by
  by_cases hf : w.fault = none
  · intro step hstep
    simp only [Walk.andThen, hf, List.mem_append] at hstep
    rcases hstep with hstep | hstep
    · exact h step hstep
    · exact hnext step hstep
  · rwa [andThen_of_fault hf]

end NamedBy

/-- Whether two walks found the same, ended alike and show the same, however they name the modules. -/
structure Agrees (w w' : Walk) : Prop where
  routes : w.routes = w'.routes
  fault : w.fault = w'.fault
  outline : w.outline = w'.outline

namespace Agrees

theorem after (h : w.Agrees w') (step : Step) : (w.after step).Agrees (w'.after step) where
  routes := h.routes
  fault := h.fault
  outline := by rw [outline_after, outline_after, h.outline]

/-- Where a reference was found is not shown. -/
theorem after_resolve (h : w.Agrees w') (name name' : String) (path path' : Path) :
    (w.after (.resolve name path)).Agrees (w'.after (.resolve name' path')) where
  routes := h.routes
  fault := h.fault
  outline := h.outline

theorem orItself (h : w.Agrees w') (full : String) :
    (w.orItself full).Agrees (w'.orItself full) where
  routes := by
    unfold Walk.orItself
    rw [h.fault, h.routes]
    split
    · rfl
    · exact h.routes
  fault := by rw [fault_orItself, fault_orItself, h.fault]
  outline := by rw [outline_orItself, outline_orItself, h.outline]

theorem andThen (h : w.Agrees w') (hnext : (next w.cache).Agrees (next' w'.cache)) :
    (w.andThen next).Agrees (w'.andThen next') := by
  by_cases hf : w.fault = none
  · have hf' := h.fault ▸ hf
    constructor
    · rw [routes_andThen_of_none hf, routes_andThen_of_none hf', h.routes, hnext.routes]
    · rw [fault_andThen_of_none hf, fault_andThen_of_none hf', hnext.fault]
    · rw [outline_andThen_of_none hf, outline_andThen_of_none hf', h.outline, hnext.outline]
  · rwa [andThen_of_fault hf, andThen_of_fault (h.fault ▸ hf)]

/-- Walks that agree and name the modules alike come to the same tree. -/
theorem tree_eq (h : w.Agrees w') (hw : w.NamedBy name) (hw' : w'.NamedBy name) : w.tree = w'.tree := by
  have htrace : w.tree.trace = w'.tree.trace := by rw [trace_tree hw, trace_tree hw', h.outline]
  have hmodules : w.tree.modules = w'.tree.modules := by rw [modules_tree, modules_tree, h.outline]
  have hroutes : w.tree.routes = w'.tree.routes := h.routes
  revert htrace hmodules hroutes
  cases w.tree
  cases w'.tree
  rintro rfl rfl rfl
  rfl

end Agrees

end Walk

namespace Guide

/-- Whether two guides, each on its file system, agree on some modules: on what they declare and on the
files that they load, which are among these modules again. -/
structure AgreesOn (guide guide' : Guide) (fs fs' : FileSystem) (among : Location → Prop) : Prop where
  declared {m : Location} (hm : among m) : declared fs m = declared fs' m
  loaded? {m : Location} {decls : List Declaration} {d : Declaration} (hm : among m)
    (hdecls : Holds fs m decls) (hd : Declared decls d) :
    guide.loaded? fs m d = guide'.loaded? fs' m d
  closed {m file : Location} {decls : List Declaration} {d : Declaration} (hm : among m)
    (hdecls : Holds fs m decls) (hd : Declared decls d) (h : guide.loaded? fs m d = some file) :
    among file

theorem AgreesOn.refl (guide : Guide) (fs : FileSystem) :
    guide.AgreesOn guide fs fs fun _ => True :=
  ⟨fun _ => rfl, fun _ _ _ => rfl, fun _ _ _ _ => trivial⟩

variable {guide guide' : Guide} {fs fs' : FileSystem} {among : Location → Prop}

section Below

variable {active : List Location} {source file : Location} {d : Declaration}

theorem steps_below_of_not_loaded (h : guide.loaded? fs source d = none) (full : String) (depth : Nat)
    (cache : ModuleCache) :
    (guide.below fs active source full depth d cache).outline = [] ∧
      ∀ name, (guide.below fs active source full depth d cache).NamedBy name := by
  have hrest (name : Location → String) (routes : List String) (fault : Option WalkFault) :
      Walk.NamedBy name ⟨[], routes, cache, fault⟩ := by simp [Walk.NamedBy]
  unfold below
  unfold loaded? at h
  cases hd : d.loadChildren with
  | none => exact ⟨rfl, fun name => hrest name _ _⟩
  | some reference =>
    simp only [hd, Option.bind_some] at h ⊢
    cases hr : guide.resolve fs reference source.path with
    | empty => exact ⟨rfl, fun name => hrest name _ _⟩
    | missing missed => exact ⟨rfl, fun name => (hrest name _ _).after rfl⟩
    | found found path file hfile => simp [hr, Resolution.file?] at h

/-- A route that loads a module walks over it, after steps of its own. -/
theorem below_eq_of_loaded (h : guide.loaded? fs source d = some file) (active : List Location)
    (full : String) (depth : Nat) (cache : ModuleCache) :
    ∃ name path, guide.below fs active source full depth d cache =
      (((guide.walkModule fs active file full (depth + 1) cache).orItself full).after
        (.load depth)).after (.resolve name path) := by
  unfold below
  unfold loaded? at h
  cases hd : d.loadChildren with
  | none => simp [hd] at h
  | some reference =>
    simp only [hd, Option.bind_some] at h ⊢
    cases hr : guide.resolve fs reference source.path with
    | empty => simp [hr, Resolution.file?] at h
    | missing name => simp [hr, Resolution.file?] at h
    | found name path file' hfile =>
      obtain rfl : file' = file := by simpa [hr, Resolution.file?] using h
      exact ⟨name, path, rfl⟩

theorem agrees_below_of_not_loaded (h : guide.loaded? fs source d = none)
    (h' : guide'.loaded? fs' source d = none) (full : String) (depth : Nat) (cache cache' : ModuleCache) :
    (guide.below fs active source full depth d cache).Agrees
      (guide'.below fs' active source full depth d cache') := by
  constructor
  · rw [(below_of_not_loaded h full depth cache).2.2, (below_of_not_loaded h' full depth cache').2.2]
  · rw [(below_of_not_loaded h full depth cache).1, (below_of_not_loaded h' full depth cache').1]
  · rw [(steps_below_of_not_loaded h full depth cache).1,
      (steps_below_of_not_loaded h' full depth cache').1]

end Below

/-- The steps of entering a module: one is shown, the others are not. -/
theorem enter_eq (guide : Guide) (fs : FileSystem) (module : Location) (depth : Nat)
    (cache : ModuleCache) : ∃ steps,
      guide.enter fs module depth cache =
        (.scan depth module (guide.shown fs module) :: steps, (cache.loadAt fs module).1,
          (cache.loadAt fs module).2.map (·.routes)) ∧
        steps.filterMap Step.outline? = [] ∧ ∀ step ∈ steps, ∀ name, step.naming name = step := by
  unfold enter
  rcases cache.loadAt fs module with ⟨cache', fault | ⟨routes, _ | dynamic⟩⟩
  · exact ⟨[], rfl, rfl, by simp⟩
  · exact ⟨[], rfl, rfl, by simp⟩
  · refine ⟨dynamic.map .dynamicLoad ++ [.parse module routes.length], rfl, ?_, ?_⟩
    · simp [List.filterMap_append, List.filterMap_map, Function.comp_def, Step.outline?]
    · intro step hstep name
      rcases List.mem_append.mp hstep with hstep | hstep
      · obtain ⟨value, -, rfl⟩ := List.mem_map.mp hstep
        rfl
      · rw [List.mem_singleton.mp hstep]
        rfl

section Module

variable {active : List Location} {module : Location} {cache cache' : ModuleCache} {parent : String}
  {depth : Nat}

/-- The walks over a module agree if the visits of what it declares do. -/
theorem agrees_walkModule_of (h : guide.AgreesOn guide' fs fs' among) (hm : among module)
    (hc : cache.Faithful fs) (hc' : cache'.Faithful fs')
    (hvisit : module ∉ active → ∀ decls, Holds fs module decls → ∀ cache cache',
      ModuleCache.Faithful cache fs → ModuleCache.Faithful cache' fs' →
      (guide.visit fs (module :: active) module parent depth decls cache).Agrees
        (guide'.visit fs' (module :: active) module parent depth decls cache')) :
    (guide.walkModule fs active module parent depth cache).Agrees
      (guide'.walkModule fs' active module parent depth cache') := by
  unfold walkModule
  by_cases ha : module ∈ active
  · rw [if_pos ha, if_pos ha]
    exact ⟨rfl, rfl, rfl⟩
  rw [if_neg ha, if_neg ha]
  obtain ⟨steps, hsteps, houtline, -⟩ := enter_eq guide fs module depth cache
  obtain ⟨steps', hsteps', houtline', -⟩ := enter_eq guide' fs' module depth cache'
  have hload := ModuleCache.routes_loadAt hc module
  have hload' := ModuleCache.routes_loadAt hc' module
  have hkeep := (ModuleCache.loadAt_spec hc module).1
  have hkeep' := (ModuleCache.loadAt_spec hc' module).1
  rw [hsteps, hsteps', hload, hload', ← h.declared hm]
  have hfirst (fault : Option WalkFault) : Walk.Agrees
      ⟨.scan depth module (guide.shown fs module) :: steps, [], (cache.loadAt fs module).1, fault⟩
      ⟨.scan depth module (guide'.shown fs' module) :: steps', [],
        (cache'.loadAt fs' module).1, fault⟩ :=
    ⟨rfl, rfl, by simp [Walk.outline, Step.outline?, houtline, houtline']⟩
  cases hdecls : declared fs module with
  | error fault => exact hfirst _
  | ok decls =>
    exact (hfirst none).andThen
      (hvisit ha decls (declared_eq_ok_iff.mp hdecls) _ _ hkeep hkeep')

end Module

/-- The visits of what a module declares, or of a part of it, agree. -/
theorem agrees_visit (h : guide.AgreesOn guide' fs fs' among) (active : List Location)
    (source : Location) (decls : List Declaration) :
    ∀ all, among source → Holds fs source all → (∀ d, Declared decls d → Declared all d) →
      ∀ (parent : String) (depth : Nat) (cache cache' : ModuleCache), cache.Faithful fs →
        cache'.Faithful fs' →
        (guide.visit fs active source parent depth decls cache).Agrees
          (guide'.visit fs' active source parent depth decls cache') := by
  induction active, source, decls using visit_induction guide fs with
  | nil active source =>
    intro all _ _ _ parent depth cache cache' _ _
    rw [visit_nil, visit_nil]
    exact ⟨rfl, rfl, rfl⟩
  | cons active source d others ihLoad ihInner ihOthers =>
    intro all hsource hall hpart parent depth cache cache' hc hc'
    rw [visit_cons, visit_cons]
    have hkeep := faithful_below guide hc active source (extend parent d.path) depth d
    have hkeep' := faithful_below guide' hc' active source (extend parent d.path) depth d
    have hbelow : (guide.below fs active source (extend parent d.path) depth d cache).Agrees
        (guide'.below fs' active source (extend parent d.path) depth d cache') := by
      have hloaded := h.loaded? hsource hall (hpart d .here)
      cases hl : guide.loaded? fs source d with
      | none => exact agrees_below_of_not_loaded hl (hloaded.symm.trans hl) _ depth cache cache'
      | some file =>
        have hl' := hloaded.symm.trans hl
        obtain ⟨name, path, heq⟩ := below_eq_of_loaded hl active (extend parent d.path) depth cache
        obtain ⟨name', path', heq'⟩ := below_eq_of_loaded hl' active (extend parent d.path) depth cache'
        rw [heq, heq']
        have hfile := h.closed hsource hall (hpart d .here) hl
        refine (((agrees_walkModule_of h hfile hc hc' fun ha decls hdecls cache cache' hc hc' =>
          ?_).orItself _).after (.load depth)).after_resolve name name' path path'
        exact ihLoad file decls (mem_files_of_loaded? hl) ha decls hfile hdecls (fun _ hd => hd) _ _ _ _
          hc hc'
    -- the caches may differ by now, but both are faithful, and no more is asked of them
    have hfirst := (hbelow.after (.declare depth d.path (extend parent d.path))).andThen
      (ihInner all hsource hall (fun e he => hpart e (.inside he)) (extend parent d.path) (depth + 1)
        _ _ hkeep hkeep')
    refine hfirst.andThen (ihOthers all hsource hall (fun e he => hpart e (.later he)) parent depth _ _
      ?_ ?_)
    · exact Walk.cache_andThen (P := (·.Faithful fs)) hkeep (faithful_visit _ _ _ _ _)
    · exact Walk.cache_andThen (P := (·.Faithful fs')) hkeep' (faithful_visit _ _ _ _ _)

theorem agrees_walkModule (h : guide.AgreesOn guide' fs fs' among) {module : Location}
    (hm : among module) {cache cache' : ModuleCache} (hc : cache.Faithful fs)
    (hc' : cache'.Faithful fs') (active : List Location) (parent : String) (depth : Nat) :
    (guide.walkModule fs active module parent depth cache).Agrees
      (guide'.walkModule fs' active module parent depth cache') :=
  agrees_walkModule_of h hm hc hc' fun _ decls hdecls _ _ hc hc' =>
    agrees_visit h _ module decls decls hm hdecls (fun _ hd => hd) _ _ _ _ hc hc'

/-- The walks from roots that denote the same module agree. -/
theorem agrees_build (h : guide.AgreesOn guide' fs fs' among) {p p' : Path}
    (hroot : fs.canonical p = fs'.canonical p') (hamong : ∀ l, fs.canonical p = .ok l → among l)
    {cache cache' : ModuleCache} (hc : cache.Faithful fs) (hc' : cache'.Faithful fs') :
    (guide.build fs p cache).Agrees (guide'.build fs' p' cache') := by
  unfold build
  rw [← hroot]
  cases hl : fs.canonical p with
  | error place => exact ⟨rfl, rfl, rfl⟩
  | ok l =>
    dsimp only
    rw [walk_eq_walkModule, walk_eq_walkModule]
    exact agrees_walkModule h (hamong l hl) hc hc' [] "" 0

/-! ### Names of modules -/

theorem namedBy_walkModule_of {active : List Location} {module : Location} {parent : String} {depth : Nat}
    {cache : ModuleCache} (hvisit : module ∉ active → ∀ decls cache,
      (guide.visit fs (module :: active) module parent depth decls cache).NamedBy (guide.shown fs)) :
    (guide.walkModule fs active module parent depth cache).NamedBy (guide.shown fs) := by
  unfold walkModule
  split
  · simp [Walk.NamedBy]
  next ha =>
    obtain ⟨steps, hsteps, -, hnamed⟩ := enter_eq guide fs module depth cache
    have hfirst (cache : ModuleCache) (fault : Option WalkFault) : Walk.NamedBy (guide.shown fs)
        ⟨.scan depth module (guide.shown fs module) :: steps, [], cache, fault⟩ := by
      intro step hstep
      rcases List.mem_cons.mp hstep with rfl | hstep
      · rfl
      · exact hnamed step hstep _
    rw [hsteps]
    cases (cache.loadAt fs module).2.map (·.routes) with
    | error fault => exact hfirst _ _
    | ok decls => exact (hfirst _ none).andThen (hvisit ha decls _)

theorem namedBy_visit (guide : Guide) (fs : FileSystem) (active : List Location) (source : Location)
    (decls : List Declaration) : ∀ (parent : String) (depth : Nat) (cache : ModuleCache),
      (guide.visit fs active source parent depth decls cache).NamedBy (guide.shown fs) := by
  induction active, source, decls using visit_induction guide fs with
  | nil active source =>
    intro parent depth cache
    rw [visit_nil]
    simp [Walk.NamedBy, Walk.rest]
  | cons active source d others ihLoad ihInner ihOthers =>
    intro parent depth cache
    rw [visit_cons]
    have hbelow : (guide.below fs active source (extend parent d.path) depth d cache).NamedBy
        (guide.shown fs) := by
      cases hl : guide.loaded? fs source d with
      | none => exact (steps_below_of_not_loaded hl _ depth cache).2 _
      | some file =>
        obtain ⟨name, path, heq⟩ := below_eq_of_loaded hl active (extend parent d.path) depth cache
        rw [heq]
        refine (((namedBy_walkModule_of fun ha decls cache => ?_).orItself _).after rfl).after rfl
        exact ihLoad file decls (mem_files_of_loaded? hl) ha _ _ _
    exact ((hbelow.after rfl).andThen (ihInner _ _ _)).andThen (ihOthers _ _ _)

/-- The trace of a walk names the modules as its guide does. -/
theorem namedBy_build (guide : Guide) (fs : FileSystem) (p : Path) (cache : ModuleCache) :
    (guide.build fs p cache).NamedBy (guide.shown fs) := by
  unfold build
  cases hl : fs.canonical p with
  | error place => simp [Walk.NamedBy]
  | ok l =>
    dsimp only
    rw [walk_eq_walkModule]
    exact namedBy_walkModule_of fun _ decls cache => namedBy_visit guide fs _ _ decls _ _ cache

theorem head?_trace_build (guide : Guide) {p : Path} {root : Location} (hroot : fs.canonical p = .ok root)
    (cache : ModuleCache) : (guide.build fs p cache).tree.trace.head? =
      (Step.scan 0 root (guide.shown fs root)).traceLine? := by
  obtain ⟨steps, hsteps, -, -⟩ := enter_eq guide fs root 0 cache
  have hfirst : ∃ rest, (guide.build fs p cache).steps = .scan 0 root (guide.shown fs root) :: rest := by
    rw [build_eq_walk hroot, walk, hsteps]
    cases (cache.loadAt fs root).2.map (·.routes) with
    | error fault => exact ⟨steps, rfl⟩
    | ok decls => exact ⟨_, rfl⟩
  obtain ⟨rest, hrest⟩ := hfirst
  rw [Walk.tree, hrest]
  rfl

/-! ### Caches -/

theorem faithful_build (guide : Guide) {cache : ModuleCache} (hc : cache.Faithful fs) (p : Path) :
    (guide.build fs p cache).cache.Faithful fs := by
  unfold build
  cases hl : fs.canonical p with
  | error place => exact hc
  | ok l =>
    dsimp only
    rw [walk_eq_walkModule]
    rcases walkModule_of_not_mem guide hc (List.not_mem_nil (a := l)) "" 0 with
      ⟨_, -, hf, -⟩ | ⟨decls, cache', -, hc', -, heq⟩
    · exact hf
    · rw [heq]
      exact faithful_visit _ _ _ _ _ _ hc'

end Guide

end RouteInventory.Routing
