import RouteInventory.Proofs.Routing.Agreement
import RouteInventory.Proofs.Routing.Parent
import RouteInventory.Proofs.Routing.Run

/-!
# What routes come to

`Guide.Yields` says, without caches, stacks and faults, what visiting routes comes to when nothing stops it: the
steps that are shown, but for the names of modules, and the routes that are found. A walk that is not stopped
is such a visit of what its root module declares (`yields_of_outcome`), so what holds of every such walk is
shown by induction over this relation.
-/

namespace RouteInventory.Routing

/-- A path as the routes that it is by itself: one, unless it is empty. -/
def itself (full : String) : List String := if full = "" then [] else [full]

theorem mem_itself_iff {full route : String} : route ∈ itself full ↔ route = full ∧ full ≠ "" := by
  unfold itself
  by_cases h : full = "" <;> simp [h]

theorem Walk.routes_orItself_of_none {w : Walk} (h : w.fault = none) (full : String) :
    (w.orItself full).routes = if w.routes = [] then itself full else w.routes := by
  rw [Guide.routes_orItself, itself]
  by_cases hroutes : w.routes = [] <;> by_cases hfull : full = "" <;> simp [h, hroutes, hfull]

theorem Walk.outcome_eq_ok_iff {w : Walk} {tree : RouteTree} :
    w.outcome = .ok tree ↔ w.fault = none ∧ w.tree = tree := by
  unfold outcome
  cases w.fault <;> simp

namespace Guide

/-- What visiting routes declared in a source module below a parent path comes to. -/
inductive Yields (guide : Guide) (fs : FileSystem) :
    Location → String → Nat → List Declaration → List Step → List String → Prop
  | nil {source : Location} {parent : String} {depth : Nat} : Yields guide fs source parent depth [] [] []
  /-- A route that loads no module is found itself. -/
  | leaf {source : Location} {parent : String} {depth : Nat} {d : Declaration} {others : List Declaration}
      {inner later : List Step} {routes routes' : List String} (hl : guide.loaded? fs source d = none)
      (hinner : Yields guide fs source (extend parent d.path) (depth + 1) d.children inner routes)
      (hothers : Yields guide fs source parent depth others later routes') :
      Yields guide fs source parent depth (d :: others)
        (.declare depth d.path (extend parent d.path) :: (inner ++ later))
        (itself (extend parent d.path) ++ (routes ++ routes'))
  /-- A route that loads a module is represented by that module's routes, or by itself if there are none. -/
  | lazy {source file : Location} {parent : String} {depth : Nat} {d : Declaration}
      {others decls : List Declaration} {below inner later : List Step} {found routes routes' : List String}
      (hl : guide.loaded? fs source d = some file) (hfile : Holds fs file decls)
      (hbelow : Yields guide fs file (extend parent d.path) (depth + 1) decls below found)
      (hinner : Yields guide fs source (extend parent d.path) (depth + 1) d.children inner routes)
      (hothers : Yields guide fs source parent depth others later routes') :
      Yields guide fs source parent depth (d :: others)
        ([.declare depth d.path (extend parent d.path), .load depth, .scan (depth + 1) file ""] ++
          (below ++ (inner ++ later)))
        ((if found = [] then itself (extend parent d.path) else found) ++ (routes ++ routes'))

variable {guide : Guide} {fs : FileSystem} {active : List Location} {source module file : Location}
  {parent : String} {depth : Nat} {cache : ModuleCache}

/-- A walk over a module that is not stopped is the visit of what the module declares. -/
theorem walkModule_of_none (guide : Guide) (hc : cache.Faithful fs)
    (h : (guide.walkModule fs active module parent depth cache).fault = none) :
    module ∉ active ∧ ∃ decls cache', Holds fs module decls ∧ cache'.Faithful fs ∧
      let visited := guide.visit fs (module :: active) module parent depth decls cache'
      visited.fault = none ∧
        (guide.walkModule fs active module parent depth cache).outline =
          .scan depth module "" :: visited.outline ∧
        (guide.walkModule fs active module parent depth cache).routes = visited.routes := by
  by_cases ha : module ∈ active
  · rw [fault_walkModule_of_mem ha] at h
    cases h
  refine ⟨ha, ?_⟩
  obtain ⟨steps, hsteps, houtline, -⟩ := enter_eq guide fs module depth cache
  obtain ⟨hkeep, hspec⟩ := ModuleCache.loadAt_spec hc module
  unfold walkModule at h ⊢
  rw [if_neg ha, hsteps] at h ⊢
  cases hload : (cache.loadAt fs module).2 with
  | error fault =>
    rw [hload] at h
    cases h
  | ok loaded =>
    rw [hload] at h hspec
    refine ⟨loaded.routes, _, hspec, hkeep, ?_, ?_, ?_⟩
    · exact (Walk.fault_andThen_eq_none_iff.mp h).2
    · refine (Walk.outline_andThen_of_none rfl).trans ?_
      simp [Walk.outline, Step.outline?, houtline]
    · exact Walk.routes_andThen_of_none rfl

/-- A visit that is not stopped comes to what its routes come to. -/
theorem yields_visit (active : List Location) (source : Location) (decls : List Declaration) :
    ∀ (parent : String) (depth : Nat) (cache : ModuleCache), cache.Faithful fs →
      (guide.visit fs active source parent depth decls cache).fault = none →
      guide.Yields fs source parent depth decls
        (guide.visit fs active source parent depth decls cache).outline
        (guide.visit fs active source parent depth decls cache).routes := by
  induction active, source, decls using visit_induction guide fs with
  | nil active source =>
    intro parent depth cache _ _
    rw [visit_nil]
    exact .nil
  | cons active source d others ihLoad ihInner ihOthers =>
    intro parent depth cache hcache h
    rw [visit_cons] at h ⊢
    obtain ⟨hfirst, hothers⟩ := Walk.fault_andThen_eq_none_iff.mp h
    obtain ⟨hbelow, hinner⟩ := Walk.fault_andThen_eq_none_iff.mp hfirst
    have hkept := faithful_below guide hcache active source (extend parent d.path) depth d
    have hinner' := ihInner _ _ _ hkept hinner
    have hothers' := ihOthers parent depth _ (by
      exact Walk.cache_andThen (P := (·.Faithful fs)) hkept (faithful_visit _ _ _ _ _)) hothers
    rw [Walk.outline_andThen_of_none hfirst, Walk.outline_andThen_of_none hbelow,
      Walk.routes_andThen_of_none hfirst, Walk.routes_andThen_of_none hbelow, List.append_assoc,
      List.append_assoc]
    rw [Walk.outline_after, Walk.routes_after]
    cases hl : guide.loaded? fs source d with
    | none =>
      have hroutes : (guide.below fs active source (extend parent d.path) depth d cache).routes =
          itself (extend parent d.path) := (below_of_not_loaded hl _ depth cache).2.2
      rw [(steps_below_of_not_loaded hl _ depth cache).1, hroutes]
      simp only [Step.outline?, Option.toList_some, List.append_nil, List.singleton_append]
      exact .leaf hl hinner' hothers'
    | some file =>
      obtain ⟨name, path, heq⟩ := below_eq_of_loaded hl active (extend parent d.path) depth cache
      have hwalk : (guide.walkModule fs active file (extend parent d.path) (depth + 1) cache).fault =
          none := by simpa [heq] using hbelow
      obtain ⟨ha, decls, cache', hfile, hcache', hnone, houtline, hroutes⟩ :=
        walkModule_of_none guide hcache hwalk
      have hmodule := ihLoad file decls (mem_files_of_loaded? hl) ha (extend parent d.path) (depth + 1)
        cache' hcache' hnone
      have hsteps : (guide.below fs active source (extend parent d.path) depth d cache).outline =
          .load depth :: .scan (depth + 1) file "" :: (guide.visit fs (file :: active) file
            (extend parent d.path) (depth + 1) decls cache').outline := by
        simp [heq, Walk.outline_after, Step.outline?, houtline]
      rw [hsteps, heq, Walk.routes_after, Walk.routes_after, Walk.routes_orItself_of_none hwalk, hroutes,
        ← heq]
      exact .lazy hl hfile hmodule hinner' hothers'

/-- The line of a step that is shown, with its module named as the guide does. -/
def line (guide : Guide) (fs : FileSystem) : Step → String
  | .scan depth module _ => s!"{Step.indent depth}📂 Scanning: {guide.shown fs module}"
  | .declare depth segment full => s!"{Step.indent depth}  ├─ {segment} → {full}"
  | .load depth => s!"{Step.indent depth}  │  └─ Loading children..."
  | _ => ""

theorem traceNaming_outline (guide : Guide) (fs : FileSystem) (w : Walk) :
    traceNaming (guide.shown fs) w.outline = w.outline.map (guide.line fs) := by
  unfold Walk.outline
  induction w.steps with
  | nil => rfl
  | cons step rest ih =>
    cases step with
    | scan | declare | load => exact congrArg (_ :: ·) ih
    | dynamicLoad | parse | resolve | unresolved => exact ih

/-- What a tree is, if one is built: the root module is scanned, and then all is as its routes come to. -/
theorem yields_of_outcome (guide : Guide) (hc : cache.Faithful fs) {p : Path} {tree : RouteTree}
    (h : (guide.build fs p cache).outcome = .ok tree) :
    ∃ root decls steps, fs.canonical p = .ok root ∧ Holds fs root decls ∧
      guide.Yields fs root "" 0 decls steps tree.routes ∧
      tree.trace = (.scan 0 root "" :: steps).map (guide.line fs) ∧
      tree.modules = ((.scan 0 root "" :: steps).filterMap Step.scanned?).eraseDups := by
  have hnamed := namedBy_build guide fs p cache
  obtain ⟨hf, rfl⟩ := Walk.outcome_eq_ok_iff.mp h
  rw [Walk.trace_tree hnamed, Walk.modules_tree, traceNaming_outline]
  unfold build at hf ⊢
  cases hroot : fs.canonical p with
  | error place => simp [hroot] at hf
  | ok root =>
    simp only [hroot, walk_eq_walkModule] at hf ⊢
    obtain ⟨-, decls, cache', hdecls, hcache', hnone, houtline, hroutes⟩ := walkModule_of_none guide hc hf
    refine ⟨root, decls, _, rfl, hdecls, ?_, by rw [houtline], by rw [houtline]⟩
    show guide.Yields fs root "" 0 decls _ (guide.walkModule fs [] root "" 0 cache).routes
    rw [hroutes]
    exact yields_visit _ _ _ _ _ _ hcache' hnone

end Guide

end RouteInventory.Routing
