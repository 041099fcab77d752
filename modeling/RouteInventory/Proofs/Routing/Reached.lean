import RouteInventory.Proofs.FileSystem.Discovered
import RouteInventory.Proofs.Path.Relative
import RouteInventory.Proofs.Routing.Chain
import RouteInventory.Proofs.Routing.Remembered

/-!
# Modules read and listed

The modules of a tree are those that the root leads to, each once, in the order in which the trace first names
them; and a cache that began empty then has just these, each read once (`modules_of_outcome`). A module
that several routes load is walked again for each of them. So the tally is kept by every step of the walk
(`Tallied.perform`), however often a module is entered: it is read the first time only.
-/

namespace RouteInventory.Routing

open Relation

/-! ### First occurrences -/

section FirstOccurrences

variable {α β : Type} [DecidableEq β]

theorem eraseDups_concat (items : List β) (b : β) :
    (items ++ [b]).eraseDups = if b ∈ items then items.eraseDups else items.eraseDups ++ [b] := by
  rw [List.eraseDups_append, List.removeAll]
  by_cases hb : b ∈ items <;> simp [hb, List.eraseDups_cons]

theorem findIdx_lt_length_iff {f : α → Option β} {items : List α} {b : β} :
    items.findIdx (f · = some b) < items.length ↔ b ∈ items.filterMap f := by
  simp [List.findIdx_lt_length]

/-- Without repetitions items come in the order of their first occurrences. -/
theorem pairwise_eraseDups (f : α → Option β) (items : List α) :
    (items.filterMap f).eraseDups.Pairwise fun a b =>
      items.findIdx (f · = some a) < items.findIdx (f · = some b) := by
  induction items using List.reverseRecOn with
  | nil => simp
  | append_singleton items x ih =>
    have hkeep : ∀ a ∈ items.filterMap f,
        (items ++ [x]).findIdx (f · = some a) = items.findIdx (f · = some a) := by
      intro a ha
      rw [List.findIdx_append, if_pos (findIdx_lt_length_iff.mpr ha)]
    have hold : (items.filterMap f).eraseDups.Pairwise fun a b =>
        (items ++ [x]).findIdx (f · = some a) < (items ++ [x]).findIdx (f · = some b) := by
      refine ih.imp_of_mem fun ha hb h => ?_
      rwa [hkeep _ (List.mem_eraseDups.mp ha), hkeep _ (List.mem_eraseDups.mp hb)]
    rw [List.filterMap_append]
    cases hx : f x with
    | none =>
      rw [List.filterMap_cons_none hx, List.filterMap_nil, List.append_nil]
      exact hold
    | some b =>
      rw [List.filterMap_cons_some hx, List.filterMap_nil, eraseDups_concat]
      split
      · exact hold
      next hb =>
        refine List.pairwise_append.mpr ⟨hold, List.pairwise_singleton _ _, fun a ha b' hb' => ?_⟩
        obtain rfl := List.mem_singleton.mp hb'
        have ha := List.mem_eraseDups.mp ha
        rw [hkeep a ha, List.findIdx_append, if_neg fun h => hb (findIdx_lt_length_iff.mp h)]
        exact Nat.lt_add_left _ (findIdx_lt_length_iff.mpr ha)

end FirstOccurrences

/-! ### Lines of scans -/

/-- The name in a line that says that a module is scanned. -/
def scannedName? (line : String) : Option String :=
  (Text.after? "📂 Scanning: ".toList (matter line).toList).map String.ofList

theorem scannedName?_indent (depth : Nat) (text : String) :
    scannedName? (Step.indent depth ++ text) = scannedName? text := by
  rw [scannedName?, matter_indent]
  rfl

theorem scannedName?_scan (name : String) : scannedName? ("📂 Scanning: " ++ name) = some name := by
  have hmatter : (matter ("📂 Scanning: " ++ name)).toList = "📂 Scanning: ".toList ++ name.toList := by
    rw [matter, String.toList_append, String.toList_ofList]
    rfl
  rw [scannedName?, hmatter, Text.after?_eq_some_iff.mpr rfl]
  simp

/-! ### What is kept and what was scanned -/

theorem ModuleCache.mem_keys_iff {cache : ModuleCache} {module : Location} :
    module ∈ cache.entries.map (·.1) ↔ cache.entries.lookup module ≠ none := by
  refine ⟨FileSystem.lookup_ne_none_of_mem, fun h => ?_⟩
  obtain ⟨routes, hroutes⟩ := Option.ne_none_iff_exists'.mp h
  exact FileSystem.mem_keys_of_lookup hroutes

/-- Entering a module scans it, and unless it was known it is read and kept, if there is no fault. -/
theorem Guide.enter_cases {guide : Guide} {fs : FileSystem} {module : Location} {depth : Nat}
    {cache next : ModuleCache} {steps : List Step} {decls : List Declaration}
    (h : guide.enter fs module depth cache = (steps, next, .ok decls)) :
    steps.filterMap Step.scanned? = [module] ∧
      ((cache.entries.lookup module ≠ none ∧ next = cache) ∨ (cache.entries.lookup module = none ∧
        ∃ routes, next = ⟨cache.entries ++ [(module, routes)], cache.reads + 1⟩)) := by
  obtain ⟨others, heq, hothers, -⟩ := guide.enter_eq fs module depth cache
  rw [heq] at h
  obtain ⟨rfl, hrest⟩ := Prod.mk.inj h
  obtain ⟨rfl, hdecls⟩ := Prod.mk.inj hrest
  constructor
  · have hscanned : others.filterMap Step.scanned? = [] := by
      rw [← List.filterMap_congr fun step _ => Step.scanned?_outline? step, ← List.filterMap_filterMap,
        hothers]
      rfl
    simp [Step.scanned?, hscanned]
  · have hserves := ModuleCache.serves_loadAt cache fs module
    generalize cache.loadAt fs module = answer at hserves hdecls ⊢
    obtain ⟨next, result⟩ := answer
    cases hserves with
    | known hl => exact .inl ⟨by simp [hl], rfl⟩
    | unreadable => cases hdecls
    | unbalanced => cases hdecls
    | parsed hl => exact .inr ⟨hl, _, rfl⟩

/-- Whether the cache that a walk leaves has just the modules that the walk has scanned, in the order of their first
scans, each read once. -/
structure Tallied (w : Walk) : Prop where
  keys : w.cache.entries.map (·.1) = (w.steps.filterMap Step.scanned?).eraseDups
  reads : w.cache.reads = w.cache.size

namespace Tallied

variable {w : Walk} {guide : Guide} {fs : FileSystem} {module : Location}

theorem rest : Tallied (.rest {}) := ⟨rfl, rfl⟩

theorem add (h : Tallied w) {steps : List Step} (hsteps : steps.filterMap Step.scanned? = [])
    (routes : List String) : Tallied (w.add steps routes) where
  keys := by
    show w.cache.entries.map (·.1) = _
    rw [Walk.add, List.filterMap_append, hsteps, List.append_nil]
    exact h.keys
  reads := h.reads

/-- Entering a module lists it if it is new, and then it is read and kept. -/
theorem enter (h : Tallied w) {depth : Nat} {steps : List Step} {cache : ModuleCache}
    {decls : List Declaration} (henter : guide.enter fs module depth w.cache = (steps, cache, .ok decls)) :
    Tallied { w.add steps [] with cache } := by
  obtain ⟨hscanned, hcache⟩ := Guide.enter_cases henter
  have hsteps : (w.steps ++ steps).filterMap Step.scanned? = w.steps.filterMap Step.scanned? ++ [module] := by
    rw [List.filterMap_append, hscanned]
  have hknown : module ∈ w.steps.filterMap Step.scanned? ↔ w.cache.entries.lookup module ≠ none := by
    rw [← ModuleCache.mem_keys_iff, h.keys, List.mem_eraseDups]
  rcases hcache with ⟨hl, rfl⟩ | ⟨hl, routes, rfl⟩
  · refine ⟨?_, h.reads⟩
    show w.cache.entries.map (·.1) = ((w.steps ++ steps).filterMap Step.scanned?).eraseDups
    rw [hsteps, eraseDups_concat, if_pos (hknown.mpr hl), h.keys]
  · refine ⟨?_, ?_⟩
    · show (w.cache.entries ++ [(module, routes)]).map (·.1) =
        ((w.steps ++ steps).filterMap Step.scanned?).eraseDups
      rw [hsteps, eraseDups_concat, if_neg fun hm => hknown.mp hm hl, List.map_append, h.keys]
      rfl
    · show w.cache.reads + 1 = (w.cache.entries ++ [(module, routes)]).length
      rw [List.length_append, h.reads]
      rfl

/-- What is done without a fault keeps the tally. -/
theorem perform {active : List Location} {agenda : List Duty} (h : Tallied w) (duty : Duty)
    (hf : (guide.perform fs ⟨w, active, agenda⟩ duty).walk.fault = none) :
    Tallied (guide.perform fs ⟨w, active, agenda⟩ duty).walk := by
  unfold Guide.perform at hf ⊢
  cases duty with
  | leave => exact h
  | standIn full found =>
    dsimp only
    split
    · exact h.add rfl _
    · exact h
  | enter module parent depth =>
    dsimp only at hf ⊢
    by_cases ha : module ∈ active
    · simp [ha] at hf
    simp only [if_neg ha] at hf ⊢
    split at hf
    · simp at hf
    · next steps cache decls henter =>
      exact h.enter henter
  | visit source parent depth decls =>
    cases decls with
    | nil => exact h
    | cons d others =>
      dsimp only
      cases d.loadChildren with
      | none => exact (h.add rfl _).add rfl _
      | some reference =>
        dsimp only
        cases guide.resolve fs reference source.path with
        | empty => exact (h.add rfl _).add rfl _
        | missing name => exact (h.add rfl _).add rfl _
        | found name path file hfile => exact (h.add rfl _).add rfl _

/-- A run that ends without a fault keeps the tally, as no fault is ever mended. -/
theorem run {s t : Progress} (h : guide.Run fs s t) (hs : s.walk.fault = none → Tallied s.walk)
    (ht : t.walk.fault = none) : Tallied t.walk := by
  induction h with
  | refl => exact hs ht
  | tail _ hstep ih =>
    cases hstep with
    | perform hf => exact perform (ih hf) _ ht
    | unwind hf => exact absurd ht hf

end Tallied

namespace Guide

variable {guide : Guide} {fs : FileSystem} {source root m : Location} {parent : String} {depth : Nat}
  {decls : List Declaration} {steps : List Step} {routes : List String}

/-! ### Modules and the graph -/

/-- The modules that a module leads to are itself and those that the modules loaded by its routes lead to. -/
theorem reaches_iff (h : Holds fs source decls) : ReflTransGen (guide.Loads fs) source m ↔
    m = source ∨ ∃ target, guide.LoadsFrom fs source decls target ∧
      ReflTransGen (guide.Loads fs) target m := by
  rw [ReflTransGen.cases_head_iff, eq_comm]
  simp only [loads_iff h]

/-- The modules scanned in a visit are those that the modules loaded by its routes lead to. -/
theorem Yields.mem_scanned_iff (h : guide.Yields fs source parent depth decls steps routes) :
    m ∈ steps.filterMap Step.scanned? ↔ ∃ target, guide.LoadsFrom fs source decls target ∧
      ReflTransGen (guide.Loads fs) target m := by
  induction h with
  | nil => simp [not_loadsFrom_nil]
  | leaf hl hinner hothers ihInner ihOthers =>
    rw [List.filterMap_cons_none rfl, List.filterMap_append, List.mem_append, ihInner, ihOthers]
    simp [loadsFrom_cons, hl, or_and_right, exists_or]
  | @lazy source file parent depth d others decls below inner later found routes routes' hl hfile hbelow
      hinner hothers ihBelow ihInner ihOthers =>
    have hscans : [Step.declare depth d.path (extend parent d.path), .load depth,
      .scan (depth + 1) file ""].filterMap Step.scanned? = [file] := rfl
    rw [List.filterMap_append, hscans, List.filterMap_append, List.filterMap_append, List.mem_append,
      List.mem_append, List.mem_append, List.mem_singleton, ihBelow, ihInner, ihOthers, ← or_assoc,
      ← reaches_iff hfile]
    simp [loadsFrom_cons, hl, or_and_right, exists_or]

theorem mem_files_of_reaches (h : ReflTransGen (guide.Loads fs) root m) : m = root ∨ m ∈ fs.files := by
  rcases ReflTransGen.cases_tail h with rfl | ⟨before, -, decls, -, d, -, hl⟩
  · exact .inl rfl
  · exact .inr (mem_files_of_loaded? hl)

/-! ### Names of modules -/

theorem isProper_of_reaches (hfs : fs.Sound) (hroot : root.IsProper)
    (h : ReflTransGen (guide.Loads fs) root m) : m.IsProper := by
  rcases mem_files_of_reaches h with rfl | hm
  · exact hroot
  · refine hfs.isProper fun hnone => ?_
    have hentry := (List.mem_filter.mp hm).2
    rw [hnone] at hentry
    cases hentry

theorem shown_inj (guide : Guide) (hfs : fs.Sound) {m' : Location} (hm : m.IsProper) (hm' : m'.IsProper)
    (h : guide.shown fs m = guide.shown fs m') : m = m' := by
  have hdir := hfs.not_mem_workingDir
  refine Path.relativeTo_path_inj hdir hm hm' (Path.text_inj ?_ ?_ h)
  · exact Path.isSpelled_relativeTo hdir hm _
  · exact Path.isSpelled_relativeTo hdir hm' _

/-- Of the lines only those of scans name a module that is scanned. -/
theorem scannedName?_line (guide : Guide) (fs : FileSystem) (step : Step) :
    scannedName? (guide.line fs step) = step.scanned?.map (guide.shown fs) := by
  cases step with
  | scan depth module name =>
    simp only [line, String.append_assoc, toString, scannedName?_indent]
    exact scannedName?_scan _
  | declare depth segment full =>
    simp only [line, String.append_assoc, toString, scannedName?_indent]
    simp [scannedName?, matter, Text.after?, Step.scanned?]
  | load depth =>
    simp only [line, toString, scannedName?_indent]
    simp [scannedName?, matter, Text.after?, Step.scanned?]
  | dynamicLoad | parse | resolve | unresolved => rfl

theorem filterMap_scannedName? (guide : Guide) (fs : FileSystem) (steps : List Step) :
    (steps.map (guide.line fs)).filterMap scannedName? =
      (steps.filterMap Step.scanned?).map (guide.shown fs) := by
  rw [List.filterMap_map, List.map_filterMap]
  refine List.filterMap_congr fun step _ => ?_
  rw [Function.comp_apply, scannedName?_line]

/-- Where modules have names of their own, the first line that names one is the line of its first scan. -/
theorem findIdx_scannedName? {fs : FileSystem} {steps : List Step} {m : Location}
    (hinj : ∀ m' ∈ steps.filterMap Step.scanned?, guide.shown fs m' = guide.shown fs m → m' = m) :
    (steps.map (guide.line fs)).findIdx (scannedName? · = some (guide.shown fs m)) =
      steps.findIdx (·.scanned? = some m) := by
  have hsame : ∀ step ∈ steps, scannedName? (guide.line fs step) = some (guide.shown fs m) ↔
      step.scanned? = some m := by
    intro step hstep
    rw [scannedName?_line, Option.map_eq_some_iff]
    constructor
    · rintro ⟨m', hscanned, hname⟩
      rwa [hinj m' (List.mem_filterMap.mpr ⟨step, hstep, hscanned⟩) hname] at hscanned
    · intro hscanned
      exact ⟨m, hscanned, rfl⟩
  rw [List.findIdx_map]
  refine le_antisymm ?_ ?_
  · exact List.findIdx_le_findIdx fun step hstep h => by simpa using (hsame step hstep).mpr (by simpa using h)
  · exact List.findIdx_le_findIdx fun step hstep h => by simpa using (hsame step hstep).mp (by simpa using h)

/-! ### Trees -/

/-- The cache that a walk leaves of an empty one has the modules listed, each read once. -/
theorem tallied_build (guide : Guide) (fs : FileSystem) (p : Path)
    (h : (guide.build fs p {}).fault = none) : Tallied (guide.build fs p {}) := by
  refine Tallied.run (run_start guide fs p {}) (fun hs => ?_) h
  unfold Progress.start at hs ⊢
  cases hroot : fs.canonical p with
  | error place => simp [hroot] at hs
  | ok root => exact .rest

/-- If a tree is built with a cache that was empty, then its modules are those that the root leads to, each listed
once, in the order of the first lines that say that they are scanned; and the cache then has these modules, in this
order, and has read as many files. -/
theorem modules_of_outcome (guide : Guide) (fs : FileSystem) (p : Path) (tree : RouteTree)
    (h : (guide.build fs p {}).outcome = .ok tree) :
    let cache := (guide.build fs p {}).cache
    ∃ root, fs.canonical p = .ok root ∧ tree.modules.Nodup ∧
      (∀ m, m ∈ tree.modules ↔ ReflTransGen (guide.Loads fs) root m) ∧
      (∃ scans : List Location, tree.trace.filterMap scannedName? = scans.map (guide.shown fs) ∧
        tree.modules = scans.eraseDups) ∧
      (fs.Sound → p.IsSpelled → tree.modules.Pairwise fun a b =>
        tree.trace.findIdx (scannedName? · = some (guide.shown fs a)) <
          tree.trace.findIdx (scannedName? · = some (guide.shown fs b))) ∧
      cache.entries.map (·.1) = tree.modules ∧ cache.reads = cache.size ∧
      cache.size = tree.modules.length := by
  intro cache
  obtain ⟨root, decls, steps, hroot, hdecls, hyields, htrace, hmodules⟩ :=
    guide.yields_of_outcome ModuleCache.faithful_empty h
  obtain ⟨hfault, htree⟩ := Walk.outcome_eq_ok_iff.mp h
  obtain ⟨hkeys, hreads⟩ := tallied_build guide fs p hfault
  have hkeys : cache.entries.map (·.1) = tree.modules := by rw [← htree]; exact hkeys
  have hreached (m : Location) : m ∈ (.scan 0 root "" :: steps).filterMap Step.scanned? ↔
      ReflTransGen (guide.Loads fs) root m := by
    rw [reaches_iff hdecls, ← hyields.mem_scanned_iff]
    simp [Step.scanned?]
  refine ⟨root, hroot, ?_, fun m => ?_, ⟨_, htrace ▸ filterMap_scannedName? guide fs _, hmodules⟩,
    fun hfs hp => ?_, hkeys, hreads, ?_⟩
  · rw [hmodules]
    exact nodup_eraseDups _
  · rw [hmodules, List.mem_eraseDups, hreached]
  · have hproper := fun m hm => isProper_of_reaches hfs (hfs.isProper_canonical hp hroot) ((hreached m).mp hm)
    rw [hmodules, htrace]
    refine (pairwise_eraseDups Step.scanned? _).imp_of_mem fun {a b} ha hb hlt => ?_
    have ha := hproper a (List.mem_eraseDups.mp ha)
    have hb := hproper b (List.mem_eraseDups.mp hb)
    rwa [findIdx_scannedName? fun m hm => shown_inj guide hfs (hproper m hm) ha,
      findIdx_scannedName? fun m hm => shown_inj guide hfs (hproper m hm) hb]
  · rw [← hkeys, List.length_map]
    rfl

/-- The second module is walked twice, but listed and read once. -/
theorem modules_sharedFiles :
    ∃ tree, (rootGuide.build sharedFiles ⟨.slash, ["a-routing.module.ts"]⟩ {}).outcome = .ok tree ∧
      tree.modules.Nodup ∧
      (∀ m, m ∈ tree.modules ↔ m = ⟨["a-routing.module.ts"]⟩ ∨ m = ⟨["b-routing.module.ts"]⟩) ∧
      (tree.modules.Pairwise fun a b =>
        tree.trace.findIdx (scannedName? · = some (rootGuide.shown sharedFiles a)) <
          tree.trace.findIdx (scannedName? · = some (rootGuide.shown sharedFiles b))) ∧
      (rootGuide.build sharedFiles ⟨.slash, ["a-routing.module.ts"]⟩ {}).cache.reads = 2 := by
  obtain ⟨tree, htree⟩ := outcome_sharedFiles
  obtain ⟨root, hroot, hnodup, hmodules, -, horder, -, hreads, hsize⟩ :=
    modules_of_outcome rootGuide sharedFiles _ tree htree
  obtain rfl := Except.ok.inj (canonical_sharedFiles.symm.trans hroot)
  simp only [reached_sharedFiles] at hmodules
  have hspelled : ∀ name ∈ ["a-routing.module.ts"], IsName name := by decide
  have hperm : tree.modules.Perm [⟨["a-routing.module.ts"]⟩, ⟨["b-routing.module.ts"]⟩] :=
    (List.perm_ext_iff_of_nodup hnodup (by decide)).mpr fun m => by simp [hmodules]
  refine ⟨tree, htree, hnodup, hmodules, horder sound_sharedFiles hspelled, ?_⟩
  rw [hreads, hsize, hperm.length_eq]
  rfl

end Guide

end RouteInventory.Routing
