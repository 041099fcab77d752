import RouteInventory.Proofs.FileSystem.Straight
import RouteInventory.Proofs.Routing.Cycle
import RouteInventory.Proofs.Routing.Yield

/-!
# Chains of routes

A `Guide.Chain` leads from what a module declares to one of the routes below it: each route of it stands inside
the one before, or at the top of the module that the one before loads. The routes of a tree are full paths of
chains, and every chain is covered by one of them and shown in the trace (`chains_of_outcome`). A route that loads
a module is not found itself if routes of the module are, so a chain may be covered by a route below it only.
-/

namespace RouteInventory.Routing

/-! ### Full paths -/

/-- The full path of a chain: its segments that are not empty, with slashes between them. -/
def fullPath (chain : List Declaration) : String :=
  String.intercalate "/" ((chain.map (·.path)).filter (· ≠ ""))

@[simp] theorem fullPath_nil : fullPath [] = "" := rfl

theorem fullPath_cons (d : Declaration) (chain : List Declaration) :
    fullPath (d :: chain) = extend d.path (fullPath chain) := by
  unfold fullPath
  by_cases hd : d.path = ""
  · simp [hd]
  rw [List.map_cons, List.filter_cons_of_pos (by simpa using hd)]
  cases hrest : (chain.map (·.path)).filter (· ≠ "") with
  | nil => simp
  | cons segment rest =>
    have hne : segment ≠ "" := by
      have : segment ∈ (chain.map (·.path)).filter (· ≠ "") := hrest ▸ List.mem_cons_self
      simpa using (List.mem_filter.mp this).2
    have hpath : String.intercalate "/" (segment :: rest) ≠ "" := by
      cases rest with
      | nil => simpa using hne
      | cons => simp [String.intercalate_cons_cons, hne]
    rw [extend_of_ne hd hpath, String.intercalate_cons_cons]

/-- Whether a path is another or lies below it. -/
def Covers (route full : String) : Prop := route = full ∨ ∃ rest, route = full ++ "/" ++ rest

theorem covers_extend {full : String} (h : full ≠ "") (segment : String) :
    Covers (extend full segment) full := by
  by_cases hs : segment = ""
  · exact .inl (by simp [hs])
  · exact .inr ⟨segment, extend_of_ne h hs⟩

/-! ### Lines and what stands around them -/

/-- How many blanks a line begins with. -/
def margin (line : String) : Nat := (line.toList.takeWhile (· = ' ')).length

/-- What stands in a line behind the blanks that it begins with. -/
def matter (line : String) : String := String.ofList (line.toList.dropWhile (· = ' '))

theorem margin_indent (depth : Nat) (text : String) :
    margin (Step.indent depth ++ text) = 2 * depth + margin text := by
  unfold margin Step.indent
  rw [String.toList_append, String.toList_ofList, List.takeWhile_append_of_pos (by simp)]
  simp

theorem matter_indent (depth : Nat) (text : String) : matter (Step.indent depth ++ text) = matter text := by
  unfold matter Step.indent
  rw [String.toList_append, String.toList_ofList, List.dropWhile_append_of_pos (by simp)]

/-- Whether each item of a kind stands right between two others, in a relation with them. -/
def Framed {α : Type} (kind : α → Prop) (between : α → α → α → Prop) (items : List α) : Prop :=
  ∀ before item after, items = before ++ item :: after → kind item →
    ∃ previous next, before.getLast? = some previous ∧ after.head? = some next ∧ between previous item next

namespace Framed

variable {α β : Type} {kind : α → Prop} {between between' : α → α → α → Prop} {items others : List α}

theorem nil : Framed kind between [] := by
  intro before item after h
  simp at h

theorem mono (h : Framed kind between items)
    (himp : ∀ previous item next, between previous item next → between' previous item next) :
    Framed kind between' items := by
  intro before item after heq hkind
  obtain ⟨previous, next, hbefore, hafter, hbetween⟩ := h before item after heq hkind
  exact ⟨previous, next, hbefore, hafter, himp _ _ _ hbetween⟩

theorem append (h : Framed kind between items) (h' : Framed kind between others) :
    Framed kind between (items ++ others) := by
  intro before item after heq hkind
  rcases List.append_eq_append_iff.mp heq with ⟨inner, rfl, hothers⟩ | ⟨inner, hitems, hcons⟩
  · obtain ⟨previous, next, hbefore, hafter, hbetween⟩ := h' inner item after hothers hkind
    exact ⟨previous, next, by simp [hbefore], hafter, hbetween⟩
  cases inner with
  | nil =>
    obtain ⟨previous, -, hnone, -⟩ := h' [] item after hcons.symm hkind
    simp at hnone
  | cons first rest =>
    obtain ⟨rfl, rfl⟩ := List.cons.inj hcons
    obtain ⟨previous, next, hbefore, hafter, hbetween⟩ := h before item rest hitems hkind
    exact ⟨previous, next, hbefore, by simp [hafter], hbetween⟩

theorem singleton {item : α} (h : ¬kind item) : Framed kind between [item] := by
  intro before item' after heq hkind
  have hmem : item' ∈ [item] := heq ▸ List.mem_append_right before List.mem_cons_self
  exact absurd (List.mem_singleton.mp hmem ▸ hkind) h

theorem triple {previous item next : α} (hprevious : ¬kind previous) (hnext : ¬kind next)
    (h : between previous item next) : Framed kind between [previous, item, next] := by
  intro before item' after heq hkind
  match before with
  | [] =>
    obtain ⟨rfl, -⟩ := List.cons.inj heq
    exact absurd hkind hprevious
  | [_] =>
    simp only [List.cons_append, List.nil_append, List.cons.injEq] at heq
    obtain ⟨rfl, rfl, rfl⟩ := heq
    exact ⟨_, _, rfl, rfl, h⟩
  | _ :: _ :: rest =>
    have hmem : item' ∈ [next] := by
      simp only [List.cons_append, List.cons.injEq] at heq
      exact heq.2.2 ▸ List.mem_append_right rest List.mem_cons_self
    exact absurd (List.mem_singleton.mp hmem ▸ hkind) hnext

theorem map {kind' : β → Prop} {between' : β → β → β → Prop} {f : α → β} (h : Framed kind between items)
    (hkind : ∀ item, kind' (f item) → kind item)
    (hbetween : ∀ previous item next, between previous item next →
      between' (f previous) (f item) (f next)) :
    Framed kind' between' (items.map f) := by
  intro before item after heq hitem
  obtain ⟨before, after, rfl, rfl, hafter⟩ := List.map_eq_append_iff.mp heq
  obtain ⟨item, after, rfl, rfl, rfl⟩ := List.map_eq_cons_iff.mp hafter
  obtain ⟨previous, next, hprevious, hnext, h⟩ := h before item after rfl (hkind item hitem)
  exact ⟨f previous, f next, by simp [hprevious], by simp [hnext], hbetween _ _ _ h⟩

end Framed

/-- Whether a step loads a module. -/
def Step.Loads (step : Step) : Prop := ∃ depth, step = .load depth

@[simp] theorem Step.not_loads_declare (depth : Nat) (segment full : String) :
    ¬(Step.declare depth segment full).Loads := by
  rintro ⟨_, h⟩
  cases h

@[simp] theorem Step.not_loads_scan (depth : Nat) (module : Location) (shown : String) :
    ¬(Step.scan depth module shown).Loads := by
  rintro ⟨_, h⟩
  cases h

namespace Guide

/-! ### Chains -/

/-- A chain of routes from what a source module declares: those above its last route, that route and the module
that the last route stands in. -/
inductive Chain (guide : Guide) (fs : FileSystem) :
    Location → List Declaration → List Declaration → Declaration → Location → Prop
  | top {source : Location} {decls : List Declaration} {d : Declaration} (hd : d ∈ decls) :
    Chain guide fs source decls [] d source
  | inside {source place : Location} {decls above : List Declaration} {d last : Declaration}
      (hd : d ∈ decls) (h : Chain guide fs source d.children above last place) :
    Chain guide fs source decls (d :: above) last place
  | loading {source file place : Location} {decls decls' above : List Declaration} {d last : Declaration}
      (hd : d ∈ decls) (hl : guide.loaded? fs source d = some file) (hfile : Holds fs file decls')
      (h : Chain guide fs file decls' above last place) :
    Chain guide fs source decls (d :: above) last place

variable {guide : Guide} {fs : FileSystem} {source file place : Location} {parent : String} {depth : Nat}
  {d last : Declaration} {decls others above : List Declaration} {steps : List Step} {routes : List String}

theorem Chain.mono (h : guide.Chain fs source decls above last place) {decls' : List Declaration}
    (hsub : decls ⊆ decls') : guide.Chain fs source decls' above last place := by
  cases h with
  | top hd => exact .top (hsub hd)
  | inside hd h => exact .inside (hsub hd) h
  | loading hd hl hfile h => exact .loading (hsub hd) hl hfile h

theorem chain_cons_iff : guide.Chain fs source (d :: others) above last place ↔
    (above = [] ∧ last = d ∧ place = source) ∨
      (∃ inner, above = d :: inner ∧ (guide.Chain fs source d.children inner last place ∨
        ∃ file decls, guide.loaded? fs source d = some file ∧ Holds fs file decls ∧
          guide.Chain fs file decls inner last place)) ∨
      guide.Chain fs source others above last place := by
  constructor
  · intro h
    cases h with
    | top hd =>
      rcases List.mem_cons.mp hd with rfl | hd
      · exact .inl ⟨rfl, rfl, rfl⟩
      · exact .inr (.inr (.top hd))
    | inside hd h =>
      rcases List.mem_cons.mp hd with rfl | hd
      · exact .inr (.inl ⟨_, rfl, .inl h⟩)
      · exact .inr (.inr (.inside hd h))
    | loading hd hl hfile h =>
      rcases List.mem_cons.mp hd with rfl | hd
      · exact .inr (.inl ⟨_, rfl, .inr ⟨_, _, hl, hfile, h⟩⟩)
      · exact .inr (.inr (.loading hd hl hfile h))
  · rintro (⟨rfl, rfl, rfl⟩ | ⟨inner, rfl, h | ⟨file, decls, hl, hfile, h⟩⟩ | h)
    · exact .top List.mem_cons_self
    · exact .inside List.mem_cons_self h
    · exact .loading List.mem_cons_self hl hfile h
    · exact h.mono (List.subset_cons_self d others)

theorem not_chain_nil : ¬guide.Chain fs source [] above last place := by
  rintro (h | h | h) <;> exact List.not_mem_nil h

theorem extend_fullPath_cons (parent : String) (d : Declaration) (chain : List Declaration) :
    extend parent (fullPath (d :: chain)) = extend (extend parent d.path) (fullPath chain) := by
  rw [fullPath_cons, extend_assoc]

/-! ### What is found and shown for a chain -/

/-- Whether a path is the full path below a parent of a chain from some routes. -/
def Leads (guide : Guide) (fs : FileSystem) (source : Location) (parent : String) (decls : List Declaration)
    (route : String) : Prop :=
  ∃ above last place, guide.Chain fs source decls above last place ∧
    route = extend parent (fullPath (above ++ [last]))

namespace Leads

variable {route : String}

theorem here : guide.Leads fs source parent (d :: others) (extend parent d.path) :=
  ⟨[], d, source, .top List.mem_cons_self, by simp [fullPath_cons]⟩

theorem under (hchain : ∀ above last place, guide.Chain fs file decls above last place →
      guide.Chain fs source (d :: others) (d :: above) last place)
    (h : guide.Leads fs file (extend parent d.path) decls route) :
    guide.Leads fs source parent (d :: others) route := by
  obtain ⟨above, last, place, h, rfl⟩ := h
  exact ⟨d :: above, last, place, hchain _ _ _ h, (extend_fullPath_cons ..).symm⟩

theorem later (h : guide.Leads fs source parent others route) :
    guide.Leads fs source parent (d :: others) route := by
  obtain ⟨above, last, place, h, rfl⟩ := h
  exact ⟨above, last, place, h.mono (List.subset_cons_self ..), rfl⟩

end Leads

/-- Whether a step loads the module of the last route of a chain, and stands between that route and the module. -/
def LoadsFor (guide : Guide) (fs : FileSystem) (source : Location) (parent : String) (depth : Nat)
    (decls : List Declaration) (previous step next : Step) : Prop :=
  ∃ above last place file, guide.Chain fs source decls above last place ∧
    guide.loaded? fs place last = some file ∧
    previous = .declare (depth + above.length) last.path (extend parent (fullPath (above ++ [last]))) ∧
    step = .load (depth + above.length) ∧ next = .scan (depth + above.length + 1) file ""

namespace LoadsFor

variable {previous step next : Step}

theorem here (hl : guide.loaded? fs source d = some file) :
    guide.LoadsFor fs source parent depth (d :: others) (.declare depth d.path (extend parent d.path))
      (.load depth) (.scan (depth + 1) file "") :=
  ⟨[], d, source, file, .top List.mem_cons_self, hl, by simp [fullPath_cons], rfl, rfl⟩

theorem under (hchain : ∀ above last place, guide.Chain fs file decls above last place →
      guide.Chain fs source (d :: others) (d :: above) last place)
    (h : guide.LoadsFor fs file (extend parent d.path) (depth + 1) decls previous step next) :
    guide.LoadsFor fs source parent depth (d :: others) previous step next := by
  obtain ⟨above, last, place, target, h, hl, rfl, rfl, rfl⟩ := h
  have hdepth : depth + 1 + above.length = depth + (d :: above).length := by
    rw [List.length_cons]
    omega
  rw [hdepth, ← extend_fullPath_cons]
  exact ⟨d :: above, last, place, target, hchain _ _ _ h, hl, rfl, rfl, rfl⟩

theorem later (h : guide.LoadsFor fs source parent depth others previous step next) :
    guide.LoadsFor fs source parent depth (d :: others) previous step next := by
  obtain ⟨above, last, place, file, hchain, h⟩ := h
  exact ⟨above, last, place, file, hchain.mono (List.subset_cons_self ..), h⟩

end LoadsFor

/-- Whether the last route of a chain is shown at a depth with its full path, the module that it loads right behind
it, and is covered by a route. -/
structure Kept (guide : Guide) (fs : FileSystem) (place : Location) (last : Declaration) (full : String)
    (depth : Nat) (steps : List Step) (routes : List String) : Prop where
  declared : .declare depth last.path full ∈ steps
  loading : ∀ file, guide.loaded? fs place last = some file →
    [.declare depth last.path full, .load depth, .scan (depth + 1) file ""] <:+: steps
  covered : full ≠ "" → ∃ route ∈ routes, Covers route full

theorem Kept.mono {full : String} (h : guide.Kept fs place last full depth steps routes)
    {steps' : List Step} {routes' : List String} (hsteps : steps <:+: steps') (hroutes : routes ⊆ routes') :
    guide.Kept fs place last full depth steps' routes' where
  declared := hsteps.subset h.declared
  loading file hl := (h.loading file hl).trans hsteps
  covered hne := by
    obtain ⟨route, hroute, hcovers⟩ := h.covered hne
    exact ⟨route, hroutes hroute, hcovers⟩

theorem Kept.under (h : guide.Kept fs place last (extend (extend parent d.path) (fullPath (above ++ [last])))
      (depth + 1 + above.length) steps routes) :
    guide.Kept fs place last (extend parent (fullPath (d :: above ++ [last]))) (depth + (d :: above).length)
      steps routes := by
  rw [List.cons_append, extend_fullPath_cons, List.length_cons, ← Nat.add_assoc, Nat.add_right_comm]
  exact h

namespace Yields

/-- A route that is found is the full path of a chain. -/
theorem leads (h : guide.Yields fs source parent depth decls steps routes) :
    ∀ route ∈ routes, route ≠ "" ∧ guide.Leads fs source parent decls route := by
  induction h with
  | nil =>
    intro route hroute
    exact absurd hroute List.not_mem_nil
  | leaf hl hinner hothers ihInner ihOthers =>
    intro route hroute
    rcases List.mem_append.mp hroute with hroute | hroute
    · obtain ⟨rfl, hne⟩ := mem_itself_iff.mp hroute
      exact ⟨hne, .here⟩
    rcases List.mem_append.mp hroute with hroute | hroute
    · obtain ⟨hne, hleads⟩ := ihInner route hroute
      exact ⟨hne, hleads.under fun _ _ _ => .inside List.mem_cons_self⟩
    · obtain ⟨hne, hleads⟩ := ihOthers route hroute
      exact ⟨hne, hleads.later⟩
  | @lazy source file parent depth d others decls below inner later found routes routes' hl hfile hbelow
      hinner hothers ihBelow ihInner ihOthers =>
    intro route hroute
    rcases List.mem_append.mp hroute with hroute | hroute
    · by_cases hfound : found = []
      · rw [if_pos hfound] at hroute
        obtain ⟨rfl, hne⟩ := mem_itself_iff.mp hroute
        exact ⟨hne, .here⟩
      · rw [if_neg hfound] at hroute
        obtain ⟨hne, hleads⟩ := ihBelow route hroute
        exact ⟨hne, hleads.under fun _ _ _ => .loading List.mem_cons_self hl hfile⟩
    rcases List.mem_append.mp hroute with hroute | hroute
    · obtain ⟨hne, hleads⟩ := ihInner route hroute
      exact ⟨hne, hleads.under fun _ _ _ => .inside List.mem_cons_self⟩
    · obtain ⟨hne, hleads⟩ := ihOthers route hroute
      exact ⟨hne, hleads.later⟩

/-- What represents a route that loads a module covers its full path. -/
theorem covered_by_found {found : List String} {full : String}
    (h : guide.Yields fs file full depth decls steps found) (hne : full ≠ "") :
    ∃ route ∈ if found = [] then itself full else found, Covers route full := by
  by_cases hfound : found = []
  · rw [if_pos hfound]
    exact ⟨full, mem_itself_iff.mpr ⟨rfl, hne⟩, .inl rfl⟩
  · obtain ⟨route, hroute⟩ := List.exists_mem_of_ne_nil found hfound
    obtain ⟨-, above, last, place, -, rfl⟩ := h.leads route hroute
    rw [if_neg hfound]
    exact ⟨_, hroute, covers_extend hne _⟩

/-- Every chain is shown and covered. -/
theorem kept (h : guide.Yields fs source parent depth decls steps routes) :
    ∀ above last place, guide.Chain fs source decls above last place →
      guide.Kept fs place last (extend parent (fullPath (above ++ [last]))) (depth + above.length)
        steps routes := by
  induction h with
  | nil =>
    intro above last place hchain
    exact absurd hchain not_chain_nil
  | @leaf source parent depth d others inner later routes routes' hl hinner hothers ihInner ihOthers =>
    intro above last place hchain
    rcases chain_cons_iff.mp hchain with
      ⟨rfl, rfl, rfl⟩ | ⟨above, rfl, hchain | ⟨file, decls, hl', -⟩⟩ | hchain
    · rw [List.nil_append, fullPath_cons, fullPath_nil, extend_empty]
      refine ⟨List.mem_cons_self, fun file hl' => ?_, fun hne => ?_⟩
      · cases hl.symm.trans hl'
      · exact ⟨_, List.mem_append_left _ (mem_itself_iff.mpr ⟨rfl, hne⟩), .inl rfl⟩
    · refine ((ihInner above last place hchain).mono ⟨[_], later, rfl⟩ ?_).under
      simp
    · cases hl.symm.trans hl'
    · refine (ihOthers above last place hchain).mono ⟨_ :: inner, [], List.append_nil _⟩ ?_
      simp
  | @lazy source file parent depth d others decls below inner later found routes routes' hl hfile hbelow
      hinner hothers ihBelow ihInner ihOthers =>
    intro above last place hchain
    rcases chain_cons_iff.mp hchain with
      ⟨rfl, rfl, rfl⟩ | ⟨above, rfl, hchain | ⟨file', decls', hl', hfile', hchain⟩⟩ | hchain
    · rw [List.nil_append, fullPath_cons, fullPath_nil, extend_empty]
      refine ⟨List.mem_cons_self, fun file' hl' => ?_, fun hne => ?_⟩
      · obtain rfl : file = file' := Option.some.inj (hl.symm.trans hl')
        exact (List.prefix_append _ _).isInfix
      · obtain ⟨route, hroute, hcovers⟩ := hbelow.covered_by_found hne
        exact ⟨route, List.mem_append_left _ hroute, hcovers⟩
    · refine ((ihInner above last place hchain).mono
        ((List.infix_append' below inner later).trans (List.suffix_append _ _).isInfix) ?_).under
      simp
    · obtain rfl : file = file' := Option.some.inj (hl.symm.trans hl')
      obtain rfl := hfile.unique hfile'
      refine ((ihBelow above last place hchain).mono (List.infix_append' _ below _) ?_).under
      by_cases hfound : found = [] <;> simp [hfound]
    · refine (ihOthers above last place hchain).mono
        (((List.suffix_append inner later).trans (List.suffix_append below _)).trans
          (List.suffix_append _ _)).isInfix ?_
      simp

/-- Every step that loads a module stands between the last route of a chain and the scan of the module. -/
theorem framed (h : guide.Yields fs source parent depth decls steps routes) :
    Framed Step.Loads (guide.LoadsFor fs source parent depth decls) steps := by
  induction h with
  | nil => exact .nil
  | leaf hl hinner hothers ihInner ihOthers =>
    refine (Framed.singleton (Step.not_loads_declare _ _ _)).append (.append ?_ ?_)
    · exact ihInner.mono fun _ _ _ h => h.under fun _ _ _ => .inside List.mem_cons_self
    · exact ihOthers.mono fun _ _ _ h => h.later
  | lazy hl hfile hbelow hinner hothers ihBelow ihInner ihOthers =>
    refine (Framed.triple (by simp) (by simp) (.here hl)).append (.append ?_ (.append ?_ ?_))
    · exact ihBelow.mono fun _ _ _ h => h.under fun _ _ _ => .loading List.mem_cons_self hl hfile
    · exact ihInner.mono fun _ _ _ h => h.under fun _ _ _ => .inside List.mem_cons_self
    · exact ihOthers.mono fun _ _ _ h => h.later

end Yields

/-! ### Trees -/

theorem margin_line (depth : Nat) (segment full : String) (module : Location) :
    margin (guide.line fs (.declare depth segment full)) = 2 * depth + 2 ∧
      margin (guide.line fs (.load depth)) = 2 * depth + 2 ∧
      margin (guide.line fs (.scan depth module "")) = 2 * depth := by
  simp only [line, String.append_assoc, toString, margin_indent]
  refine ⟨?_, ?_, ?_⟩ <;> simp [margin]

theorem loads_of_matter {step : Step}
    (h : matter (guide.line fs step) = "│  └─ Loading children...") : step.Loads := by
  have h := congrArg String.toList h
  cases step with
  | load depth => exact ⟨depth, rfl⟩
  | scan depth module shown =>
    simp only [line, String.append_assoc, toString, matter_indent] at h
    simp [matter] at h
  | declare depth segment full =>
    simp only [line, String.append_assoc, toString, matter_indent] at h
    simp [matter] at h
  | dynamicLoad | parse | resolve | unresolved => simp [matter, line] at h

/-- If a tree is built, then every chain of routes from the root module is covered by a route of the tree and shown
in the trace, with the module that its last route loads right behind it; every route of the tree is the full path
of a chain; and where children are said to be loaded, it is between the line of a route and that of the module
which it loads, with equal margins. -/
theorem chains_of_outcome (guide : Guide) (fs : FileSystem) (p : Path) (cache : ModuleCache) (tree : RouteTree)
    (hc : cache.Faithful fs) (h : (guide.build fs p cache).outcome = .ok tree) :
    ∃ root decls, fs.canonical p = .ok root ∧ Holds fs root decls ∧
      (∀ above last place, guide.Chain fs root decls above last place →
        let full := fullPath (above ++ [last])
        let shown := s!"{Step.indent above.length}  ├─ {last.path} → {full}"
        (full ≠ "" → ∃ route ∈ tree.routes, route = full ∨ ∃ rest, route = full ++ "/" ++ rest) ∧
          shown ∈ tree.trace ∧
          ∀ file, guide.loaded? fs place last = some file →
            [shown, s!"{Step.indent above.length}  │  └─ Loading children...",
              s!"{Step.indent (above.length + 1)}📂 Scanning: {guide.shown fs file}"] <:+: tree.trace) ∧
      (∀ route ∈ tree.routes, route ≠ "" ∧ ∃ above last place,
        guide.Chain fs root decls above last place ∧ route = fullPath (above ++ [last])) ∧
      Framed (fun line => matter line = "│  └─ Loading children...")
        (fun previous line next => ∃ above last place file,
          guide.Chain fs root decls above last place ∧ guide.loaded? fs place last = some file ∧
            previous = s!"{Step.indent above.length}  ├─ {last.path} → {fullPath (above ++ [last])}" ∧
            next = s!"{Step.indent (above.length + 1)}📂 Scanning: {guide.shown fs file}" ∧
            margin line = margin previous ∧ margin next = margin previous)
        tree.trace := by
  obtain ⟨root, decls, steps, hroot, hdecls, hyields, htrace, -⟩ := guide.yields_of_outcome hc h
  refine ⟨root, decls, hroot, hdecls, ?_, ?_, ?_⟩
  · intro above last place hchain
    have hkept := hyields.kept above last place hchain
    rw [empty_extend, Nat.zero_add] at hkept
    have hsteps : steps.map (guide.line fs) <:+: tree.trace := by
      rw [htrace]
      exact ((List.suffix_cons _ steps).map _).isInfix
    exact ⟨hkept.covered, hsteps.subset (List.mem_map_of_mem hkept.declared),
      fun file hl => ((hkept.loading file hl).map (guide.line fs)).trans hsteps⟩
  · intro route hroute
    obtain ⟨hne, above, last, place, hchain, rfl⟩ := hyields.leads route hroute
    exact ⟨hne, above, last, place, hchain, empty_extend _⟩
  · rw [htrace]
    have hframed : Framed Step.Loads (guide.LoadsFor fs root "" 0 decls) (.scan 0 root "" :: steps) :=
      (Framed.singleton (Step.not_loads_scan _ _ _)).append hyields.framed
    refine hframed.map (fun step => loads_of_matter) ?_
    rintro _ _ _ ⟨above, last, place, file, hchain, hl, rfl, rfl, rfl⟩
    rw [Nat.zero_add, empty_extend]
    refine ⟨above, last, place, file, hchain, hl, rfl, rfl, ?_, ?_⟩
    · exact (margin_line _ "" "" file).2.1.trans (margin_line _ _ _ file).1.symm
    · exact (margin_line _ "" "" file).2.2.trans (margin_line _ _ _ file).1.symm

/-! ### A module loaded by two routes -/

def sharingText : String :=
  "[\x7bpath:'x',loadChildren:()=>import('./b')\x7d,\x7bpath:'y',children:[\x7bpath:'z',loadChildren:()=>import('./b')\x7d]\x7d]"

/-- A module that loads a second one by two of its routes, one of them inside another. -/
def sharedFiles : FileSystem where
  entries :=
    [(⟨["a-routing.module.ts"]⟩, .file (Text.Utf8.encode sharingText.toList)),
    (⟨["b-routing.module.ts"]⟩, .file (Text.Utf8.encode "[\x7bpath:'w'\x7d]".toList))]
  workingDir := .root

def sharingRoutes : List Declaration :=
  [⟨"x", some "./b", 1, []⟩, ⟨"y", none, 1, [⟨"z", some "./b", 1, []⟩]⟩]

theorem canonical_sharedFiles :
    sharedFiles.canonical ⟨.slash, ["a-routing.module.ts"]⟩ = .ok ⟨["a-routing.module.ts"]⟩ := by
  simp [FileSystem.canonical, FileSystem.canonicalFrom, FileSystem.entryAt?, sharedFiles,
    Location.root, Location.child, Path.isAbsolute]

theorem sound_sharedFiles : sharedFiles.Sound := .of_entries rfl (by decide) (by decide)

theorem holds_sharedFiles :
    Holds sharedFiles ⟨["a-routing.module.ts"]⟩ sharingRoutes ∧
      Holds sharedFiles ⟨["b-routing.module.ts"]⟩ [⟨"w", none, 1, []⟩] :=
  ⟨⟨_, sound_sharedFiles.readText_path rfl (by simp [sharingText]), by cbv⟩,
    ⟨_, sound_sharedFiles.readText_path rfl (by decide), by cbv⟩⟩

theorem loaded?_sharedFiles (path : String) (line : Nat) :
    rootGuide.loaded? sharedFiles ⟨["a-routing.module.ts"]⟩ ⟨path, some "./b", line, []⟩ =
      some ⟨["b-routing.module.ts"]⟩ := by
  refine loaded?_of_first rfl (by decide) ?_
  rw [show (rootGuide.basePath (referenceName "./b")
    (Location.path ⟨["a-routing.module.ts"]⟩)).appendText "-routing.module.ts" =
      ⟨.slash, ["b-routing.module.ts"]⟩ by decide]
  simp [FileSystem.regularFile?, FileSystem.locate, FileSystem.locateFrom, FileSystem.entryAt?,
    sharedFiles, Location.root, Location.child, Path.isAbsolute, List.lookup_cons, BEq.beq]

theorem loads_sharedFiles (target : Location) :
    (rootGuide.Loads sharedFiles ⟨["a-routing.module.ts"]⟩ target ↔
        target = ⟨["b-routing.module.ts"]⟩) ∧
      ¬rootGuide.Loads sharedFiles ⟨["b-routing.module.ts"]⟩ target := by
  have hnone (source : Location) (path : String) (children : List Declaration) :
      rootGuide.loaded? sharedFiles source ⟨path, none, 1, children⟩ = none := rfl
  rw [loads_iff holds_sharedFiles.1, loads_iff holds_sharedFiles.2, sharingRoutes]
  simp only [loadsFrom_cons, not_loadsFrom_nil, loaded?_sharedFiles, hnone, or_false]
  simp [eq_comm]

theorem reached_sharedFiles {m : Location} :
    Relation.ReflTransGen (rootGuide.Loads sharedFiles) ⟨["a-routing.module.ts"]⟩ m ↔
      m = ⟨["a-routing.module.ts"]⟩ ∨ m = ⟨["b-routing.module.ts"]⟩ := by
  constructor
  · intro h
    induction h with
    | refl => exact .inl rfl
    | tail _ hl ih =>
      rcases ih with rfl | rfl
      · exact .inr ((loads_sharedFiles _).1.mp hl)
      · exact absurd hl (loads_sharedFiles _).2
  · rintro (rfl | rfl)
    · exact .refl
    · exact .single ((loads_sharedFiles _).1.mpr rfl)

theorem outcome_sharedFiles :
    ∃ tree, (rootGuide.build sharedFiles ⟨.slash, ["a-routing.module.ts"]⟩ {}).outcome = .ok tree := by
  have hfault : (rootGuide.build sharedFiles ⟨.slash, ["a-routing.module.ts"]⟩ {}).fault = none := by
    refine fault_build_eq_none canonical_sharedFiles ModuleCache.faithful_empty (fun m hm => ?_)
      fun m hm hback => ?_
    · rcases reached_sharedFiles.mp hm with rfl | rfl
      exacts [⟨_, holds_sharedFiles.1⟩, ⟨_, holds_sharedFiles.2⟩]
    · obtain ⟨next, hl, hnext⟩ := Relation.TransGen.head'_iff.mp hback
      rcases reached_sharedFiles.mp hm with rfl | rfl
      · obtain rfl := (loads_sharedFiles _).1.mp hl
        rcases Relation.ReflTransGen.cases_head hnext with h | ⟨_, hl, -⟩
        · simp at h
        · exact absurd hl (loads_sharedFiles _).2
      · exact absurd hl (loads_sharedFiles _).2
  exact ⟨_, Walk.outcome_eq_ok_iff.mpr ⟨hfault, rfl⟩⟩

/-- The route of the second module is found below both of the routes that load it. -/
theorem chains_sharedFiles :
    ∃ tree, (rootGuide.build sharedFiles ⟨.slash, ["a-routing.module.ts"]⟩ {}).outcome = .ok tree ∧
      (∃ route ∈ tree.routes, route = "x/w" ∨ ∃ rest, route = "x/w" ++ "/" ++ rest) ∧
      (∃ route ∈ tree.routes, route = "y/z/w" ∨ ∃ rest, route = "y/z/w" ++ "/" ++ rest) ∧
      "      ├─ w → y/z/w" ∈ tree.trace := by
  obtain ⟨tree, htree⟩ := outcome_sharedFiles
  obtain ⟨root, decls, hroot, hdecls, hchains, -, -⟩ :=
    chains_of_outcome rootGuide sharedFiles _ {} tree ModuleCache.faithful_empty htree
  obtain rfl := Except.ok.inj (canonical_sharedFiles.symm.trans hroot)
  obtain rfl := holds_sharedFiles.1.unique hdecls
  have hw : rootGuide.Chain sharedFiles ⟨["b-routing.module.ts"]⟩ [⟨"w", none, 1, []⟩] []
      ⟨"w", none, 1, []⟩ ⟨["b-routing.module.ts"]⟩ := .top List.mem_cons_self
  have hx := hchains _ _ _
    (.loading List.mem_cons_self (loaded?_sharedFiles "x" 1) holds_sharedFiles.2 hw)
  have hz := hchains _ _ _ (.inside (List.mem_cons_of_mem _ List.mem_cons_self)
    (.loading List.mem_cons_self (loaded?_sharedFiles "z" 1) holds_sharedFiles.2 hw))
  exact ⟨tree, htree, hx.1 (by decide), hz.1 (by decide), hz.2.1⟩

end Guide

end RouteInventory.Routing
