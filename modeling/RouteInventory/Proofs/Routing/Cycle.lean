import Mathlib.Data.List.Chain
import Mathlib.Data.List.Nodup
import Mathlib.Logic.Relation
import RouteInventory.Proofs.Routing.Visit

/-!
# Cycles among routing modules

`Guide.Loads` is the graph of the modules: an edge for every route, at any depth, whose reference
stands for another module's file. The walk from a root module stops with a cycle exactly if a cycle
of this graph can be reached from the root, provided that every module it can reach can be loaded.

Two facts carry this. The active modules always are a `Trail` of the graph from the root, so that a
module met again closes a cycle (`fault_visit`). A stretch that ends without a fault leaves every
module below it `Free`: nothing reached from there is active or lies on a cycle (`free_of_visit`).
-/

namespace RouteInventory.Routing

open Relation

/-- A closed way in a graph that meets no module twice before it comes back to the first. -/
structure IsCycle (loads : Location → Location → Prop) (modules : List Location) : Prop where
  two_le : 2 ≤ modules.length
  closed : modules.head? = modules.getLast?
  distinct : modules.dropLast.Nodup
  linked : modules.IsChain loads

theorem IsCycle.exists_transGen {loads : Location → Location → Prop} {modules : List Location}
    (h : IsCycle loads modules) : ∃ m ∈ modules, TransGen loads m m := by
  obtain ⟨htwo, hclosed, -, hlinked⟩ := h
  match modules with
  | [] | [_] => simp at htwo
  | first :: second :: rest =>
    obtain ⟨hfirst, hrest⟩ := List.isChain_cons_cons.mp hlinked
    have hlast : (second :: rest).getLast (by simp) = first := by
      simpa [List.getLast?_eq_some_getLast, List.getLast_cons] using hclosed.symm
    have hback := List.relationReflTransGen_of_exists_isChain_cons rest hrest hlast
    exact ⟨first, List.mem_cons_self, .head' hfirst hback⟩

namespace Guide

variable (guide : Guide) (fs : FileSystem)

/-- Whether one of the routes declared by a source module, at any depth, loads a target. -/
def LoadsFrom (source : Location) (decls : List Declaration) (target : Location) : Prop :=
  ∃ d, Declared decls d ∧ guide.loaded? fs source d = some target

/-- Whether a module lazily loads another. -/
def Loads (source target : Location) : Prop :=
  ∃ decls, Holds fs source decls ∧ guide.LoadsFrom fs source decls target

/-- The active modules, innermost first: each is loaded by the next, none is met twice, and the root
leads to all of them. -/
structure Trail (root : Location) (active : List Location) : Prop where
  linked : active.IsChain fun inner outer => guide.Loads fs outer inner
  distinct : active.Nodup
  reached : ∀ m ∈ active, ReflTransGen (guide.Loads fs) root m

/-- What a fault of a walk from a root tells about the graph. -/
def Accounted (root : Location) : WalkFault → Prop
  | .cycle modules =>
    IsCycle (guide.Loads fs) modules ∧ ∀ m ∈ modules, ReflTransGen (guide.Loads fs) root m
  | .load _ => ∃ m, ReflTransGen (guide.Loads fs) root m ∧ ∀ decls, ¬Holds fs m decls

/-- Whether nothing that a module leads to, itself included, is active or lies on a cycle. -/
def Free (active : List Location) (module : Location) : Prop :=
  ∀ m, ReflTransGen (guide.Loads fs) module m → m ∉ active ∧ ¬TransGen (guide.Loads fs) m m

variable {guide fs} {root source file : Location} {active outer : List Location}

theorem loadsFrom_cons {d : Declaration} {others : List Declaration} {target : Location} :
    guide.LoadsFrom fs source (d :: others) target ↔
      guide.loaded? fs source d = some target ∨ guide.LoadsFrom fs source d.children target ∨
        guide.LoadsFrom fs source others target := by
  constructor
  · rintro ⟨e, he, hl⟩
    cases he with
    | here => exact .inl hl
    | inside he => exact .inr (.inl ⟨e, he, hl⟩)
    | later he => exact .inr (.inr ⟨e, he, hl⟩)
  · rintro (hl | ⟨e, he, hl⟩ | ⟨e, he, hl⟩)
    exacts [⟨d, .here, hl⟩, ⟨e, .inside he, hl⟩, ⟨e, .later he, hl⟩]

theorem not_loadsFrom_nil {target : Location} : ¬guide.LoadsFrom fs source [] target := by
  rintro ⟨d, hd, -⟩
  cases hd

theorem loads_iff {decls : List Declaration} {target : Location} (h : Holds fs source decls) :
    guide.Loads fs source target ↔ guide.LoadsFrom fs source decls target := by
  refine ⟨?_, fun ht => ⟨decls, h, ht⟩⟩
  rintro ⟨decls', h', ht⟩
  rwa [h.unique h']

/-! ### A module met again closes a cycle -/

namespace Trail

theorem root_only (root : Location) : guide.Trail fs root [root] :=
  ⟨List.isChain_singleton root, List.nodup_singleton root, fun m hm => by
    rw [List.mem_singleton.mp hm]⟩

theorem push (h : guide.Trail fs root (source :: outer)) (hl : guide.Loads fs source file)
    (hf : file ∉ source :: outer) : guide.Trail fs root (file :: source :: outer) := by
  refine ⟨List.isChain_cons_cons.mpr ⟨hl, h.linked⟩, List.nodup_cons.mpr ⟨hf, h.distinct⟩, ?_⟩
  intro m hm
  rcases List.mem_cons.mp hm with rfl | hm
  · exact (h.reached source List.mem_cons_self).tail hl
  · exact h.reached m hm

theorem isCycle_cycleOf (h : guide.Trail fs root (source :: outer))
    (hl : guide.Loads fs source file) (hf : file ∈ source :: outer) :
    IsCycle (guide.Loads fs) (cycleOf (source :: outer) file) := by
  obtain ⟨inner, rest, hsplit⟩ := List.append_of_mem hf
  have hdistinct := h.distinct
  have hlinked := h.linked
  rw [hsplit] at hdistinct hlinked
  have hrest : ∀ m ∈ rest.reverse, m != file := fun m hm => by
    have hm : m ∈ rest := List.mem_reverse.mp hm
    have hne := (List.nodup_cons.mp (List.nodup_append.mp hdistinct).2.1).1
    exact bne_iff_ne.mpr fun he => hne (he ▸ hm)
  have hcycle : cycleOf (source :: outer) file = (file :: inner.reverse) ++ [file] := by
    rw [cycleOf, hsplit, List.reverse_append, List.reverse_cons, List.append_assoc,
      List.dropWhile_append_of_pos hrest]
    simp
  have hinner : ((file :: inner.reverse) ++ [file]).IsChain (guide.Loads fs) := by
    refine List.isChain_append.mpr ⟨?_, List.isChain_singleton file, ?_⟩
    · have : (inner ++ [file]).IsChain fun a b => guide.Loads fs b a :=
        hlinked.prefix ⟨rest, by simp⟩
      simpa using List.isChain_reverse.mpr this
    · intro x hx y hy
      obtain rfl : file = y := by simpa using hy
      -- the last module of the stretch is the innermost active one
      cases inner with
      | nil =>
        obtain ⟨rfl, -⟩ := List.cons.inj hsplit
        obtain rfl : source = x := by simpa using hx
        exact hl
      | cons first inner =>
        obtain ⟨rfl, -⟩ := List.cons.inj hsplit
        obtain rfl : source = x := by
          rw [List.reverse_cons, ← List.cons_append, List.getLast?_concat] at hx
          simpa using hx
        exact hl
  rw [hcycle]
  refine ⟨by simp, by rw [List.getLast?_concat]; rfl, ?_, hinner⟩
  rw [List.dropLast_concat]
  have : (inner ++ [file]).Nodup := hdistinct.sublist (by simp)
  simpa using List.nodup_reverse.mpr this

theorem mem_of_mem_cycleOf {m : Location} (hf : file ∈ active) (hm : m ∈ cycleOf active file) :
    m ∈ active := by
  rcases List.mem_append.mp hm with hm | hm
  · exact List.mem_reverse.mp (List.dropWhile_sublist _ |>.subset hm)
  · rwa [List.mem_singleton.mp hm]

theorem accounted_cycleOf (h : guide.Trail fs root (source :: outer))
    (hl : guide.Loads fs source file) (hf : file ∈ source :: outer) :
    guide.Accounted fs root (.cycle (cycleOf (source :: outer) file)) :=
  ⟨h.isCycle_cycleOf hl hf, fun m hm => h.reached m (mem_of_mem_cycleOf hf hm)⟩

end Trail

/-- A fault of a visit is a cycle, or tells of a module that cannot be loaded. -/
theorem fault_visit (active : List Location) (source : Location) (decls : List Declaration) :
    ∀ outer, active = source :: outer → guide.Trail fs root active →
      (∀ target, guide.LoadsFrom fs source decls target → guide.Loads fs source target) →
      ∀ (parent : String) (depth : Nat) (cache : ModuleCache), cache.Faithful fs → ∀ fault,
        (guide.visit fs active source parent depth decls cache).fault = some fault →
        guide.Accounted fs root fault := by
  induction active, source, decls using visit_induction guide fs with
  | nil active source =>
    intro outer _ _ _ parent depth cache _ fault h
    simp [Walk.rest] at h
  | cons active source d others ihLoad ihInner ihOthers =>
    intro outer heq htrail hloads parent depth cache hcache fault h
    subst heq
    rw [visit_cons] at h
    have hinner := fun t ht => hloads t (loadsFrom_cons.mpr (.inr (.inl ht)))
    have hothers := fun t ht => hloads t (loadsFrom_cons.mpr (.inr (.inr ht)))
    have hbelow := faithful_below guide hcache (source :: outer) source
      (extend parent d.path) depth d
    rcases Walk.fault_andThen_eq_some h with h | ⟨-, h⟩
    · rcases Walk.fault_andThen_eq_some h with h | ⟨-, h⟩
      · -- the fault arose below the first route
        rw [Walk.fault_after] at h
        cases hl : guide.loaded? fs source d with
        | none => simp [(below_of_not_loaded hl _ depth cache).1] at h
        | some file =>
          rw [(below_of_loaded hl _ depth cache).1] at h
          have hload : guide.Loads fs source file := hloads file (loadsFrom_cons.mpr (.inl hl))
          by_cases ha : file ∈ source :: outer
          · rw [fault_walkModule_of_mem ha] at h
            obtain rfl := Option.some.inj h
            exact htrail.accounted_cycleOf hload ha
          · rcases walkModule_of_not_mem guide hcache ha (extend parent d.path) (depth + 1) with
              ⟨e, hf, -, hm⟩ | ⟨decls, cache', hm, hc, hf, -⟩
            · rw [hf] at h
              obtain rfl := Option.some.inj h
              exact ⟨file, (htrail.reached source List.mem_cons_self).tail hload, hm⟩
            · rw [hf] at h
              exact ihLoad file decls (mem_files_of_loaded? hl) ha _ rfl (htrail.push hload ha)
                (fun t ht => (loads_iff hm).mpr ht) _ _ cache' hc fault h
      · exact ihInner outer rfl htrail hinner _ _ _ hbelow fault h
    · refine ihOthers outer rfl htrail hothers _ _ _ ?_ fault h
      exact Walk.cache_andThen (P := (·.Faithful fs)) hbelow (faithful_visit _ _ _ _ _)

/-! ### A stretch without a fault has met no cycle -/

/-- Entering a module from which everything loaded is free of it and of the active modules. -/
theorem free_of_loads (hf : file ∉ active)
    (h : ∀ target, guide.Loads fs file target → guide.Free fs (file :: active) target) :
    guide.Free fs active file := by
  intro m hm
  rcases ReflTransGen.cases_head hm with rfl | ⟨target, hl, hm⟩
  · refine ⟨hf, fun hcycle => ?_⟩
    obtain ⟨target, hl, hback⟩ := TransGen.head'_iff.mp hcycle
    exact (h target hl _ hback).1 List.mem_cons_self
  · have := h target hl m hm
    exact ⟨fun ha => this.1 (List.mem_cons_of_mem _ ha), this.2⟩

/-- After a visit without a fault every module loaded by the routes visited is free. -/
theorem free_of_visit (active : List Location) (source : Location) (decls : List Declaration) :
    ∀ (parent : String) (depth : Nat) (cache : ModuleCache), cache.Faithful fs →
      (guide.visit fs active source parent depth decls cache).fault = none →
      ∀ target, guide.LoadsFrom fs source decls target → guide.Free fs active target := by
  induction active, source, decls using visit_induction guide fs with
  | nil active source =>
    intro parent depth cache _ _ target h
    exact absurd h not_loadsFrom_nil
  | cons active source d others ihLoad ihInner ihOthers =>
    intro parent depth cache hcache h target ht
    rw [visit_cons] at h
    obtain ⟨hfirst, hothers⟩ := Walk.fault_andThen_eq_none_iff.mp h
    obtain ⟨hbelow, hinner⟩ := Walk.fault_andThen_eq_none_iff.mp hfirst
    have hkept := faithful_below guide hcache active source (extend parent d.path) depth d
    rcases loadsFrom_cons.mp ht with hl | ht | ht
    · rw [Walk.fault_after, (below_of_loaded hl _ depth cache).1] at hbelow
      by_cases ha : target ∈ active
      · simp [fault_walkModule_of_mem ha] at hbelow
      · rcases walkModule_of_not_mem guide hcache ha (extend parent d.path) (depth + 1) with
          ⟨_, hf, -⟩ | ⟨decls, cache', hm, hc, hf, -⟩
        · simp [hf] at hbelow
        · refine free_of_loads ha fun t hl' => ?_
          exact ihLoad target decls (mem_files_of_loaded? hl) ha _ _ cache' hc (hf ▸ hbelow) t
            ((loads_iff hm).mp hl')
    · exact ihInner _ _ _ hkept hinner target ht
    · refine ihOthers _ _ _ ?_ hothers target ht
      exact Walk.cache_andThen (P := (·.Faithful fs)) hkept (faithful_visit _ _ _ _ _)

/-! ### The walk from the root -/

theorem free_of_walk {cache : ModuleCache} (hcache : cache.Faithful fs)
    (h : (guide.walk fs root cache).fault = none) : guide.Free fs [] root := by
  rw [walk_eq_walkModule] at h
  rcases walkModule_of_not_mem guide hcache (List.not_mem_nil (a := root)) "" 0 with
    ⟨_, hf, -⟩ | ⟨decls, cache', hm, hc, hf, -⟩
  · simp [hf] at h
  · refine free_of_loads List.not_mem_nil fun target hl => ?_
    exact free_of_visit [root] root decls _ _ cache' hc (hf ▸ h) target ((loads_iff hm).mp hl)

theorem accounted_of_walk {cache : ModuleCache} (hcache : cache.Faithful fs) {fault : WalkFault}
    (h : (guide.walk fs root cache).fault = some fault) : guide.Accounted fs root fault := by
  rw [walk_eq_walkModule] at h
  rcases walkModule_of_not_mem guide hcache (List.not_mem_nil (a := root)) "" 0 with
    ⟨e, hf, -, hm⟩ | ⟨decls, cache', hm, hc, hf, -⟩
  · rw [hf] at h
    obtain rfl := Option.some.inj h
    exact ⟨root, .refl, hm⟩
  · rw [hf] at h
    exact fault_visit [root] root decls [] rfl (Trail.root_only root)
      (fun t ht => (loads_iff hm).mpr ht) _ _ cache' hc fault h

/-- A walk over modules that can be loaded and do not lead back to themselves is not stopped. -/
theorem fault_build_eq_none {p : Path} {cache : ModuleCache} (hroot : fs.canonical p = .ok root)
    (hcache : cache.Faithful fs)
    (hloadable : ∀ m, ReflTransGen (guide.Loads fs) root m → ∃ decls, Holds fs m decls)
    (hback : ∀ m, ReflTransGen (guide.Loads fs) root m → ¬TransGen (guide.Loads fs) m m) :
    (guide.build fs p cache).fault = none := by
  rw [build_eq_walk hroot]
  cases hf : (guide.walk fs root cache).fault with
  | none => rfl
  | some fault =>
    cases fault with
    | cycle modules =>
      obtain ⟨hcycle, hreached⟩ := accounted_of_walk hcache hf
      obtain ⟨m, hm, hclosed⟩ := hcycle.exists_transGen
      exact absurd hclosed (hback m (hreached m hm))
    | load e =>
      obtain ⟨m, hm, hnone⟩ := accounted_of_walk hcache hf
      obtain ⟨decls, hdecls⟩ := hloadable m hm
      exact absurd hdecls (hnone decls)

/-- If every module that the root leads to can be loaded, then the walk from it stops with a cycle
exactly if it leads to one, and what it then reports is one. -/
theorem fault_build_eq_cycle_iff (guide : Guide) (fs : FileSystem) (p : Path) (root : Location)
    (cache : ModuleCache) (hroot : fs.canonical p = .ok root) (hcache : cache.Faithful fs)
    (hloadable : ∀ m, ReflTransGen (guide.Loads fs) root m → ∃ decls, Holds fs m decls) :
    ((∃ modules, (guide.build fs p cache).fault = some (.cycle modules)) ↔
        ∃ m, ReflTransGen (guide.Loads fs) root m ∧ TransGen (guide.Loads fs) m m) ∧
      ∀ modules, (guide.build fs p cache).fault = some (.cycle modules) →
        IsCycle (guide.Loads fs) modules := by
  rw [build_eq_walk hroot]
  refine ⟨⟨?_, ?_⟩, fun modules h => (accounted_of_walk hcache h).1⟩
  · rintro ⟨modules, h⟩
    obtain ⟨hcycle, hreached⟩ := accounted_of_walk hcache h
    obtain ⟨m, hm, hback⟩ := hcycle.exists_transGen
    exact ⟨m, hreached m hm, hback⟩
  · rintro ⟨m, hm, hback⟩
    cases hf : (guide.walk fs root cache).fault with
    | none => exact absurd hback (free_of_walk hcache hf m hm).2
    | some fault =>
      cases fault with
      | cycle modules => exact ⟨modules, rfl⟩
      | load e =>
        obtain ⟨m, hm, hnone⟩ := accounted_of_walk hcache hf
        obtain ⟨decls, hdecls⟩ := hloadable m hm
        exact absurd hdecls (hnone decls)

/-! ### Two modules that load each other -/

/-- A module that loads a second one, which loads the first by a route among its inline children. -/
def mutualFiles : FileSystem where
  entries :=
    [(⟨["a-routing.module.ts"]⟩, .file (Text.Utf8.encode
      "[\x7bpath:'x',loadChildren:()=>import('./b')\x7d]".toList)),
    (⟨["b-routing.module.ts"]⟩, .file (Text.Utf8.encode
      "[\x7bpath:'y',children:[\x7bpath:'z',loadChildren:()=>import('./a')\x7d]\x7d]".toList))]
  workingDir := .root

def rootGuide : Guide where
  projectRoot := ⟨.slash, []⟩
  appRoot := ⟨.slash, []⟩
  displayRoot := ⟨.slash, []⟩

theorem holds_mutualFiles :
    Holds mutualFiles ⟨["a-routing.module.ts"]⟩ [⟨"x", some "./b", 1, []⟩] ∧
      Holds mutualFiles ⟨["b-routing.module.ts"]⟩
        [⟨"y", none, 1, [⟨"z", some "./a", 1, []⟩]⟩] := by
  constructor
  · refine ⟨"[\x7bpath:'x',loadChildren:()=>import('./b')\x7d]".toList, ?_, by cbv⟩
    simp only [FileSystem.readText, FileSystem.readBytes, FileSystem.locate, FileSystem.locateFrom,
      FileSystem.entryAt?, mutualFiles, Location.path, Location.root, Location.child]
    simp
    cbv
  · refine ⟨"[\x7bpath:'y',children:[\x7bpath:'z',loadChildren:()=>import('./a')\x7d]\x7d]".toList,
      ?_, by cbv⟩
    simp [FileSystem.readText, FileSystem.readBytes, FileSystem.locate, FileSystem.locateFrom,
      FileSystem.entryAt?, mutualFiles, Location.path, Location.root, Location.child,
      Path.isAbsolute, List.lookup_cons, BEq.beq]
    cbv

theorem loaded?_mutualFiles :
    rootGuide.loaded? mutualFiles ⟨["a-routing.module.ts"]⟩ ⟨"x", some "./b", 1, []⟩ =
        some ⟨["b-routing.module.ts"]⟩ ∧
      rootGuide.loaded? mutualFiles ⟨["b-routing.module.ts"]⟩ ⟨"z", some "./a", 1, []⟩ =
        some ⟨["a-routing.module.ts"]⟩ := by
  constructor
  · refine loaded?_of_first rfl (by decide) ?_
    rw [show (rootGuide.basePath (referenceName "./b")
      (Location.path ⟨["a-routing.module.ts"]⟩)).appendText "-routing.module.ts" =
        ⟨.slash, ["b-routing.module.ts"]⟩ by decide]
    simp [FileSystem.regularFile?, FileSystem.locate, FileSystem.locateFrom, FileSystem.entryAt?,
      mutualFiles, Location.root, Location.child, Path.isAbsolute, List.lookup_cons, BEq.beq]
  · refine loaded?_of_first rfl (by decide) ?_
    rw [show (rootGuide.basePath (referenceName "./a")
      (Location.path ⟨["b-routing.module.ts"]⟩)).appendText "-routing.module.ts" =
        ⟨.slash, ["a-routing.module.ts"]⟩ by decide]
    simp [FileSystem.regularFile?, FileSystem.locate, FileSystem.locateFrom, FileSystem.entryAt?,
      mutualFiles, Location.root, Location.child, Path.isAbsolute]

theorem loads_mutualFiles (target : Location) :
    (rootGuide.Loads mutualFiles ⟨["a-routing.module.ts"]⟩ target ↔
        target = ⟨["b-routing.module.ts"]⟩) ∧
      (rootGuide.Loads mutualFiles ⟨["b-routing.module.ts"]⟩ target ↔
        target = ⟨["a-routing.module.ts"]⟩) := by
  rw [loads_iff holds_mutualFiles.1, loads_iff holds_mutualFiles.2]
  simp only [loadsFrom_cons, not_loadsFrom_nil, loaded?_mutualFiles, or_false]
  have hnone : rootGuide.loaded? mutualFiles ⟨["b-routing.module.ts"]⟩
      ⟨"y", none, 1, [⟨"z", some "./a", 1, []⟩]⟩ = none := rfl
  simp [hnone, eq_comm]

theorem reached_mutualFiles {m : Location}
    (h : ReflTransGen (rootGuide.Loads mutualFiles) ⟨["a-routing.module.ts"]⟩ m) :
    m = ⟨["a-routing.module.ts"]⟩ ∨ m = ⟨["b-routing.module.ts"]⟩ := by
  induction h with
  | refl => exact .inl rfl
  | tail _ hl ih =>
    rcases ih with rfl | rfl
    · exact .inr ((loads_mutualFiles _).1.mp hl)
    · exact .inl ((loads_mutualFiles _).2.mp hl)

/-- The walk from the first of the two modules reports a cycle. -/
theorem build_mutualFiles :
    ∃ modules, (rootGuide.build mutualFiles ⟨.slash, ["a-routing.module.ts"]⟩ {}).fault =
      some (.cycle modules) ∧ IsCycle (rootGuide.Loads mutualFiles) modules := by
  have hroot : mutualFiles.canonical ⟨.slash, ["a-routing.module.ts"]⟩ =
      .ok ⟨["a-routing.module.ts"]⟩ := by
    simp [FileSystem.canonical, FileSystem.canonicalFrom, FileSystem.entryAt?, mutualFiles,
      Location.root, Location.child, Path.isAbsolute]
  have hloadable : ∀ m, ReflTransGen (rootGuide.Loads mutualFiles) ⟨["a-routing.module.ts"]⟩ m →
      ∃ decls, Holds mutualFiles m decls := by
    intro m hm
    rcases reached_mutualFiles hm with rfl | rfl
    exacts [⟨_, holds_mutualFiles.1⟩, ⟨_, holds_mutualFiles.2⟩]
  have h := fault_build_eq_cycle_iff rootGuide mutualFiles _ _ {} hroot
    ModuleCache.faithful_empty hloadable
  obtain ⟨modules, hm⟩ := h.1.mpr ⟨_, .refl,
    .tail (.single ((loads_mutualFiles _).1.mpr rfl)) ((loads_mutualFiles _).2.mpr rfl)⟩
  exact ⟨modules, hm, h.2 modules hm⟩

end Guide

end RouteInventory.Routing
