import RouteInventory.Proofs.Routing.Cleaned
import RouteInventory.Proofs.Script.Forest

/-!
# Which route objects are declared

The routes of a module are its route objects, in the order of their braces: all of those that stand
inside other route objects only in lists under a `children` key (`IsListed`). Each is a child of the
innermost route object around it. `lists_declarationsOf` says so of a whole module.
-/

namespace RouteInventory.Routing

open Script Script.Span Text

/-! ### Route objects and their declarations -/

/-- Whether a span is a route object. -/
def isRoute (text : List Char) (s : Span) : Bool :=
  s.kind = .brace && (pathValue? (s.ownText text)).isSome

/-- Whether a span directly inside another is a list under its `children` key. -/
def opensChildren (text : List Char) (outer child : Span) : Bool :=
  child.kind = .square && endsInChildrenKey (ownBefore (outer.ownText text) outer child.start)

/-- What a route object declares. -/
def declaredBy (text : List Char) (s : Span) : Declaration where
  path := String.ofList ((pathValue? (s.ownText text)).getD [])
  loadChildren := ((loadChildrenText? (s.ownText text)).bind moduleReference?).map String.ofList
  line := lineOf text s.start
  children := inlineChildren text s (s.ownText text) s.children

mutual

/-- A declaration and those below it, parents first. -/
def Declaration.flattened : Declaration → List Declaration
  | ⟨path, loadChildren, line, children⟩ => ⟨path, loadChildren, line, children⟩ :: preorder children

def preorder : List Declaration → List Declaration
  | [] => []
  | d :: rest => d.flattened ++ preorder rest

end

theorem preorder_append (a b : List Declaration) : preorder (a ++ b) = preorder a ++ preorder b := by
  induction a with
  | nil => rw [List.nil_append, preorder, List.nil_append]
  | cons d rest ih => rw [List.cons_append, preorder, preorder, ih, List.append_assoc]

theorem preorder_singleton (d : Declaration) : preorder [d] = d :: preorder d.children := by
  cases d
  rw [preorder, preorder, List.append_nil, Declaration.flattened]

variable {text : List Char} {roots rest : List Span} {low high : Nat} {r s t : Span}

theorem kind_of_isRoute (h : isRoute text s = true) : s.kind = .brace := by
  rw [isRoute, Bool.and_eq_true, decide_eq_true_eq] at h
  exact h.1

theorem declarationsIn_of_isRoute (h : isRoute text s = true) :
    declarationsIn text s = [declaredBy text s] := by
  rw [isRoute, Bool.and_eq_true, decide_eq_true_eq] at h
  obtain ⟨hkind, hpath⟩ := h
  obtain ⟨path, hpath⟩ := Option.isSome_iff_exists.mp hpath
  obtain ⟨kind, start, stop, children⟩ := s
  obtain rfl : kind = .brace := hkind
  rw [declarationsIn, declaredBy]
  simp only [hpath, if_true, Option.getD_some]

theorem declarationsIn_of_not_isRoute (h : isRoute text s = false) :
    declarationsIn text s = declarationsOf text s.children := by
  obtain ⟨kind, start, stop, children⟩ := s
  rw [declarationsIn]
  split
  · rfl
  · rename_i path hpath
    obtain ⟨rfl, hpath⟩ := Option.ite_none_right_eq_some.mp hpath
    simp [isRoute, hpath] at h

theorem inlineChildren_cons (outer child : Span) (rest : List Span) :
    inlineChildren text outer (outer.ownText text) (child :: rest) =
      (if opensChildren text outer child then declarationsOf text child.children else []) ++
        inlineChildren text outer (outer.ownText text) rest := by
  obtain ⟨kind, start, stop, children⟩ := child
  rw [inlineChildren, opensChildren]
  simp only [Bool.and_eq_true, decide_eq_true_eq]

/-! ### The route objects that are found -/

mutual

/-- The route objects that are declared among spans or below those, in source order. -/
def routesOf (text : List Char) : List Span → List Span
  | [] => []
  | s :: rest => routesIn text s ++ routesOf text rest

def routesIn (text : List Char) : Span → List Span
  | ⟨kind, start, stop, children⟩ =>
    let s : Span := ⟨kind, start, stop, children⟩
    if isRoute text s then s :: inlineRoutes text s children else routesOf text children

def inlineRoutes (text : List Char) (outer : Span) : List Span → List Span
  | [] => []
  | ⟨kind, start, stop, children⟩ :: rest =>
    (if opensChildren text outer ⟨kind, start, stop, children⟩ then routesOf text children else []) ++
      inlineRoutes text outer rest

end

mutual

/-- The outermost route objects among spans. -/
def topsOf (text : List Char) : List Span → List Span
  | [] => []
  | s :: rest => topsIn text s ++ topsOf text rest

def topsIn (text : List Char) : Span → List Span
  | ⟨kind, start, stop, children⟩ =>
    if isRoute text ⟨kind, start, stop, children⟩ then [⟨kind, start, stop, children⟩]
    else topsOf text children

end

/-- The outermost route objects in the lists under the `children` key of another. -/
def inlineTops (text : List Char) (outer : Span) (children : List Span) : List Span :=
  children.flatMap fun child => if opensChildren text outer child then topsOf text child.children else []

theorem routesOf_cons (s : Span) (rest : List Span) : routesOf text (s :: rest) =
    (if isRoute text s then s :: inlineRoutes text s s.children else routesOf text s.children) ++
      routesOf text rest := by
  cases s
  rw [routesOf, routesIn]

theorem inlineRoutes_cons (outer child : Span) (rest : List Span) :
    inlineRoutes text outer (child :: rest) =
      (if opensChildren text outer child then routesOf text child.children else []) ++
        inlineRoutes text outer rest := by
  cases child
  rw [inlineRoutes]

theorem topsOf_cons (s : Span) (rest : List Span) : topsOf text (s :: rest) =
    (if isRoute text s then [s] else topsOf text s.children) ++ topsOf text rest := by
  cases s
  rw [topsOf, topsIn]

theorem mem_inlineRoutes {outer : Span} {children : List Span} :
    t ∈ inlineRoutes text outer children ↔
      ∃ child ∈ children, opensChildren text outer child = true ∧ t ∈ routesOf text child.children := by
  induction children with
  | nil => simp [inlineRoutes]
  | cons child rest ih =>
    rw [inlineRoutes_cons, List.mem_append, ih]
    by_cases hopens : opensChildren text outer child = true <;> simp [hopens]

theorem mem_inlineTops {outer : Span} {children : List Span} :
    t ∈ inlineTops text outer children ↔
      ∃ child ∈ children, opensChildren text outer child = true ∧ t ∈ topsOf text child.children := by
  rw [inlineTops, List.mem_flatMap]
  refine exists_congr fun child => and_congr_right fun _ => ?_
  by_cases hopens : opensChildren text outer child = true <;> simp [hopens]

theorem declarationsOf_eq (roots : List Span) :
    declarationsOf text roots = (topsOf text roots).map (declaredBy text) := by
  induction roots using forest_induction with
  | nil => rw [declarationsOf, topsOf, List.map_nil]
  | cons s rest ihchildren ihrest =>
    rw [declarationsOf, topsOf_cons, List.map_append, ihrest]
    by_cases hroute : isRoute text s = true
    · rw [declarationsIn_of_isRoute hroute, if_pos hroute]
      rfl
    · rw [declarationsIn_of_not_isRoute (Bool.eq_false_iff.mpr hroute), if_neg hroute, ihchildren]

theorem inlineChildren_eq (outer : Span) (children : List Span) :
    inlineChildren text outer (outer.ownText text) children =
      (inlineTops text outer children).map (declaredBy text) := by
  induction children with
  | nil => rw [inlineChildren, inlineTops, List.flatMap_nil, List.map_nil]
  | cons child rest ih =>
    rw [inlineChildren_cons, ih, inlineTops, inlineTops, List.flatMap_cons, List.map_append,
      declarationsOf_eq]
    split <;> rfl

theorem preorder_declarationsOf (roots : List Span) :
    preorder (declarationsOf text roots) = (routesOf text roots).map (declaredBy text) ∧
      ∀ outer : Span, preorder (inlineChildren text outer (outer.ownText text) roots) =
        (inlineRoutes text outer roots).map (declaredBy text) := by
  -- both at once: below a route object the search goes on in its lists, and there among all spans again
  induction roots using forest_induction with
  | nil =>
    rw [declarationsOf, routesOf, preorder]
    refine ⟨rfl, fun outer => ?_⟩
    rw [inlineChildren, inlineRoutes, preorder]
    rfl
  | cons s rest ihchildren ihrest =>
    constructor
    · rw [declarationsOf, preorder_append, routesOf_cons, List.map_append, ihrest.1]
      by_cases hroute : isRoute text s = true
      · rw [declarationsIn_of_isRoute hroute, preorder_singleton, if_pos hroute, List.map_cons,
          ← ihchildren.2 s]
        rfl
      · rw [declarationsIn_of_not_isRoute (Bool.eq_false_iff.mpr hroute), if_neg hroute, ihchildren.1]
    · intro outer
      rw [inlineChildren_cons, preorder_append, inlineRoutes_cons, List.map_append, ihrest.2]
      split
      · rw [ihchildren.1]
      · rw [preorder]
        rfl

/-! ### The order in which they are found -/

theorem routesOf_sublist (roots : List Span) :
    (routesOf text roots).Sublist (allOf roots) ∧
      ∀ outer, (inlineRoutes text outer roots).Sublist (allOf roots) := by
  induction roots using forest_induction with
  | nil =>
    rw [routesOf]
    refine ⟨.slnil, fun outer => ?_⟩
    rw [inlineRoutes]
    exact .slnil
  | cons s rest ihchildren ihrest =>
    rw [allOf_cons]
    constructor
    · rw [routesOf_cons]
      split
      · exact ((ihchildren.2 s).append ihrest.1).cons_cons s
      · exact (ihchildren.1.append ihrest.1).cons s
    · intro outer
      rw [inlineRoutes_cons]
      split
      · exact (ihchildren.1.append (ihrest.2 outer)).cons s
      · exact ((List.nil_sublist _).append (ihrest.2 outer)).cons s

theorem topsOf_sublist (roots : List Span) : (topsOf text roots).Sublist (allOf roots) := by
  induction roots using forest_induction with
  | nil =>
    rw [topsOf]
    exact .slnil
  | cons s rest ihchildren ihrest =>
    rw [allOf_cons, topsOf_cons]
    split
    · exact ((List.nil_sublist _).append ihrest).cons_cons s
    · exact (ihchildren.append ihrest).cons s

theorem inlineTops_sublist (outer : Span) (children : List Span) :
    (inlineTops text outer children).Sublist (allOf children) := by
  induction children with
  | nil =>
    rw [inlineTops, List.flatMap_nil]
    exact List.nil_sublist _
  | cons child rest ih =>
    rw [inlineTops, List.flatMap_cons, allOf_cons]
    split
    · exact ((topsOf_sublist child.children).append ih).cons child
    · exact ((List.nil_sublist _).append ih).cons child

/-! ### Which ones are found -/

/-- A route object among spans that stands inside another one only as is allowed. -/
structure IsRouteAmong (text : List Char) (allowed : Span → Span → Prop) (roots : List Span) (s : Span) :
    Prop where
  mem : s ∈ allOf roots
  route : isRoute text s = true
  within : ∀ r ∈ allOf roots, isRoute text r = true → r.Encloses s → allowed r s

/-- A route object among spans is the first of them, stands inside it, or stands behind it. -/
theorem isRouteAmong_cons_iff {allowed : Span → Span → Prop} (h : Tiled low high (r :: rest)) :
    IsRouteAmong text allowed (r :: rest) s ↔ (s = r ∧ isRoute text r = true) ∨
      ((isRoute text r = true → allowed r s) ∧ IsRouteAmong text allowed r.children s) ∨
        IsRouteAmong text allowed rest s := by
  obtain - | ⟨hstart, hstop, hhigh, hchildren, hrest⟩ := h
  constructor
  · rintro ⟨hmem, hroute, hwithin⟩
    rw [allOf_cons] at hmem hwithin
    obtain ⟨hhead, hinside⟩ := List.forall_mem_cons.mp hwithin
    obtain ⟨hinner, hbehind⟩ := List.forall_mem_append.mp hinside
    rcases List.mem_cons.mp hmem with rfl | hmem
    · exact .inl ⟨rfl, hroute⟩
    rcases List.mem_append.mp hmem with hmem | hmem
    · have := hchildren.bounds hmem
      exact .inr (.inl ⟨fun hr => hhead hr ⟨by omega, by omega⟩, hmem, hroute, hinner⟩)
    · exact .inr (.inr ⟨hmem, hroute, hbehind⟩)
  · rintro (⟨rfl, hroute⟩ | ⟨hallowed, hmem, hroute, hwithin⟩ | ⟨hmem, hroute, hwithin⟩)
    all_goals
      refine ⟨by rw [allOf_cons]; simp [*], hroute, fun q hq hqroute hencloses => ?_⟩
      rw [allOf_cons, List.mem_cons, List.mem_append] at hq
      obtain ⟨hbefore, hafter⟩ := hencloses
    · rcases hq with rfl | hq | hq
      · omega
      · have := hchildren.bounds hq
        omega
      · have := hrest.bounds hq
        omega
    · rcases hq with rfl | hq | hq
      · exact hallowed hqroute
      · exact hwithin q hq hqroute ⟨hbefore, hafter⟩
      · have := hrest.bounds hq
        have := hchildren.bounds hmem
        omega
    · have := hrest.bounds hmem
      rcases hq with rfl | hq | hq
      · omega
      · have := hchildren.bounds hq
        omega
      · exact hwithin q hq hqroute ⟨hbefore, hafter⟩

/-- Whether a span stands inside another in a list under its `children` key. -/
def Admits (text : List Char) (r s : Span) : Prop :=
  ∃ child ∈ r.children, child.start ≤ s.start ∧ s.stop ≤ child.stop ∧ opensChildren text r child = true

/-- Whether a span is a route object that stands inside others in lists under their `children` keys only. -/
abbrev IsListed (text : List Char) (roots : List Span) (s : Span) : Prop :=
  IsRouteAmong text (Admits text) roots s

/-- Whether a span is a route object that stands inside no other. -/
abbrev IsOutermost (text : List Char) (roots : List Span) (s : Span) : Prop :=
  IsRouteAmong text (fun _ _ => False) roots s

theorem ne_of_opensChildren {child : Span} (hs : isRoute text s = true)
    (h : opensChildren text r child = true) : child ≠ s := by
  rintro rfl
  rw [opensChildren, kind_of_isRoute hs] at h
  cases h

/-- What is inside a list under a `children` key is inside it for the spans of the list too. -/
theorem admits_and_isRouteAmong_iff {allowed : Span → Span → Prop} (h : Tiled low high r.children) :
    Admits text r s ∧ IsRouteAmong text allowed r.children s ↔ ∃ child ∈ r.children,
      opensChildren text r child = true ∧ IsRouteAmong text allowed child.children s := by
  constructor
  · rintro ⟨⟨child, hchild, hstart, hstop, hopens⟩, hmem, hroute, hwithin⟩
    refine ⟨child, hchild, hopens, ?_, hroute, fun q hq => ?_⟩
    · have := h.bounds hmem
      rcases h.laminar_root hchild hmem with heq | hinside | hlt | hlt
      · exact absurd heq (ne_of_opensChildren hroute hopens)
      · exact hinside
      · omega
      · omega
    · exact hwithin q (mem_allOf_trans (mem_allOf_of_mem hchild) hq)
  · rintro ⟨child, hchild, hopens, hmem, hroute, hwithin⟩
    have hinside := mem_allOf_of_mem hchild
    have := (h.children hinside).bounds hmem
    refine ⟨⟨child, hchild, by omega, by omega, hopens⟩, mem_allOf_trans hinside hmem, hroute, ?_⟩
    intro q hq hqroute hencloses
    obtain ⟨hbefore, hafter⟩ := hencloses
    rcases h.laminar_root hchild hq with heq | hinner | hlt | hlt
    · exact absurd heq (ne_of_opensChildren hqroute hopens)
    · exact hwithin q hinner hqroute ⟨hbefore, hafter⟩
    · omega
    · omega

/-- The listed route objects are found, and no others; the induction goes two levels down, since a route
object is passed over to what its lists hold. -/
theorem mem_routesOf_and (h : Tiled low high roots) :
    (∀ s, s ∈ routesOf text roots ↔ IsListed text roots s) ∧
      ∀ child ∈ roots, ∀ s, s ∈ routesOf text child.children ↔ IsListed text child.children s := by
  induction h with
  | nil =>
    rw [routesOf]
    exact ⟨fun s => ⟨nofun, fun h => h.mem⟩, nofun⟩
  | @cons low high r rest hstart hstop hhigh hchildren hrest ihchildren ihrest =>
    refine ⟨fun s => ?_, List.forall_mem_cons.mpr ⟨ihchildren.1, ihrest.2⟩⟩
    refine Iff.trans ?_ (isRouteAmong_cons_iff (.cons hstart hstop hhigh hchildren hrest)).symm
    rw [routesOf_cons, List.mem_append, ihrest.1]
    by_cases hroute : isRoute text r = true
    · have hinline : s ∈ inlineRoutes text r r.children ↔
          Admits text r s ∧ IsListed text r.children s := by
        rw [mem_inlineRoutes, admits_and_isRouteAmong_iff hchildren]
        refine exists_congr fun child => and_congr_right fun hchild => and_congr_right fun _ => ?_
        exact ihchildren.2 child hchild s
      simp [hroute, hinline, or_assoc]
    · simp [hroute, ihchildren.1]

theorem mem_routesOf (h : Tiled low high roots) : s ∈ routesOf text roots ↔ IsListed text roots s :=
  (mem_routesOf_and h).1 s

theorem mem_topsOf (h : Tiled low high roots) : s ∈ topsOf text roots ↔ IsOutermost text roots s := by
  induction h generalizing s with
  | nil =>
    rw [topsOf]
    exact ⟨nofun, fun h => h.mem⟩
  | @cons low high r rest hstart hstop hhigh hchildren hrest ihchildren ihrest =>
    refine Iff.trans ?_ (isRouteAmong_cons_iff (.cons hstart hstop hhigh hchildren hrest)).symm
    rw [topsOf_cons, List.mem_append, ihrest]
    by_cases hroute : isRoute text r = true <;> simp [hroute, ihchildren]

/-! ### Parents -/

/-- Whether a span is the innermost route object around another. -/
structure IsParent (text : List Char) (roots : List Span) (r s : Span) : Prop where
  mem : r ∈ allOf roots
  route : isRoute text r = true
  encloses : r.Encloses s
  innermost : ∀ q ∈ allOf roots, isRoute text q = true → q.Encloses s → q.start ≤ r.start

theorem isOutermost_iff : IsOutermost text roots s ↔
    IsListed text roots s ∧ ∀ r ∈ allOf roots, isRoute text r = true → ¬ r.Encloses s := by
  constructor
  · rintro ⟨hmem, hroute, hwithin⟩
    exact ⟨⟨hmem, hroute, fun r hr hrr hencloses => (hwithin r hr hrr hencloses).elim⟩, hwithin⟩
  · rintro ⟨⟨hmem, hroute, -⟩, hnone⟩
    exact ⟨hmem, hroute, hnone⟩

/-- The outermost route objects in the lists under the `children` key of a listed one are those listed
whose parent it is. -/
theorem mem_inlineTops_iff (h : Tiled low high roots) (hr : IsListed text roots r) :
    t ∈ inlineTops text r r.children ↔ IsListed text roots t ∧ IsParent text roots r t := by
  have hinner := h.children hr.mem
  have htops : t ∈ inlineTops text r r.children ↔
      Admits text r t ∧ IsOutermost text r.children t := by
    rw [mem_inlineTops, admits_and_isRouteAmong_iff hinner]
    refine exists_congr fun child => and_congr_right fun hchild => and_congr_right fun _ => ?_
    exact mem_topsOf (hinner.children (mem_allOf_of_mem hchild))
  rw [htops]
  constructor
  · rintro ⟨hadmits, hmem, hroute, hwithin⟩
    have hmem' := mem_allOf_trans hr.mem hmem
    have hencloses := (h.mem_allOf_iff hr.mem hmem').mp hmem
    -- a route object around the span is its parent or stands around that
    have haround : ∀ q ∈ allOf roots, isRoute text q = true → q.Encloses t → q = r ∨ q.Encloses r := by
      intro q hq hqroute hqencloses
      rcases h.nested_of_encloses hq hr.mem hmem' hqencloses hencloses with heq | hinside | hinside
      · exact .inl heq
      · exact .inr ((h.mem_allOf_iff hq hr.mem).mp hinside)
      · exact (hwithin q hinside hqroute hqencloses).elim
    refine ⟨⟨hmem', hroute, fun q hq hqroute hqencloses => ?_⟩,
      ⟨hr.mem, hr.route, hencloses, fun q hq hqroute hqencloses => ?_⟩⟩
    · rcases haround q hq hqroute hqencloses with rfl | houter
      · exact hadmits
      · obtain ⟨child, hchild, hstart, hstop, hopens⟩ := hr.within q hq hqroute houter
        obtain ⟨hafter, hbefore⟩ := hencloses
        exact ⟨child, hchild, by omega, by omega, hopens⟩
    · rcases haround q hq hqroute hqencloses with rfl | houter
      · exact le_rfl
      · exact le_of_lt houter.1
  · rintro ⟨⟨hmem, hroute, hwithin⟩, ⟨-, -, hencloses, hinnermost⟩⟩
    refine ⟨hwithin r hr.mem hr.route hencloses, (h.mem_allOf_iff hr.mem hmem).mpr hencloses, hroute, ?_⟩
    intro q hq hqroute hqencloses
    have hle := hinnermost q (mem_allOf_trans hr.mem hq) hqroute hqencloses
    have := hinner.bounds hq
    omega

/-! ### Whole modules -/

/-- Whether declarations are those of route objects in the order of their braces: of all that are listed,
each below the innermost one around it. -/
structure Lists (text : List Char) (roots : List Span) (ds : List Declaration) (routes : List Span) :
    Prop where
  rises : routes.Pairwise fun r s => r.start < s.start
  mem_iff (s : Span) : s ∈ routes ↔ IsListed text roots s
  flattened : preorder ds = routes.map (declaredBy text)
  outermost : ∃ tops : List Span, tops.Pairwise (fun r s => r.start < s.start) ∧ ds = tops.map (declaredBy text) ∧
    ∀ s, s ∈ tops ↔ s ∈ routes ∧ ∀ r, ¬ IsParent text roots r s
  parent_mem (r s : Span) (hs : s ∈ routes) (hr : IsParent text roots r s) : r ∈ routes
  children (r : Span) (hr : r ∈ routes) : ∃ inner : List Span, inner.Pairwise (fun r s => r.start < s.start) ∧
    (declaredBy text r).children = inner.map (declaredBy text) ∧
    ∀ s, s ∈ inner ↔ s ∈ routes ∧ IsParent text roots r s

theorem IsParent.isListed (h : Tiled low high roots) (hr : IsParent text roots r s)
    (hs : IsListed text roots s) : IsListed text roots r := by
  refine ⟨hr.mem, hr.route, fun q hq hqroute hencloses => ?_⟩
  have hinside := (h.mem_allOf_iff hq hr.mem).mpr hencloses
  have := h.bounds hs.mem
  obtain ⟨hafter, hbefore⟩ := hr.encloses
  obtain ⟨hqafter, hqbefore⟩ := hencloses
  obtain ⟨child, hchild, hstart, hstop, hopens⟩ := hs.within q hq hqroute ⟨by omega, by omega⟩
  rcases (h.children hq).laminar_root hchild hinside with heq | hinner | hlt | hlt
  · exact absurd heq (ne_of_opensChildren hr.route hopens)
  · have := ((h.children hq).children (mem_allOf_of_mem hchild)).bounds hinner
    exact ⟨child, hchild, by omega, by omega, hopens⟩
  · omega
  · omega

theorem exists_isParent (hr : r ∈ allOf roots) (hroute : isRoute text r = true) (hencloses : r.Encloses s) :
    ∃ q, IsParent text roots q s := by
  by_contra hnone
  -- around the span there would be route objects that start ever further on
  have hfurther : ∀ n, ∃ q ∈ allOf roots, isRoute text q = true ∧ q.Encloses s ∧ n ≤ q.start := by
    intro n
    induction n with
    | zero => exact ⟨r, hr, hroute, hencloses, Nat.zero_le _⟩
    | succ n ih =>
      obtain ⟨q, hq, hqroute, hqencloses, hle⟩ := ih
      by_contra hlast
      refine hnone ⟨q, hq, hqroute, hqencloses, fun p hp hproute hpencloses => ?_⟩
      by_contra hlt
      exact hlast ⟨p, hp, hproute, hpencloses, by omega⟩
  obtain ⟨q, -, -, ⟨hstart, -⟩, hle⟩ := hfurther s.start
  omega

theorem lists_declarationsOf (h : Tiled low high roots) :
    Lists text roots (declarationsOf text roots) (routesOf text roots) where
  rises := h.pairwise_start.sublist (routesOf_sublist roots).1
  mem_iff s := mem_routesOf h
  flattened := (preorder_declarationsOf roots).1
  outermost := by
    refine ⟨topsOf text roots, h.pairwise_start.sublist (topsOf_sublist roots), declarationsOf_eq roots,
      fun s => ?_⟩
    rw [mem_topsOf h, isOutermost_iff, mem_routesOf h]
    refine and_congr_right fun _ => ⟨fun hnone r hr => ?_, fun hnone r hr hroute hencloses => ?_⟩
    · exact hnone r hr.mem hr.route hr.encloses
    · obtain ⟨q, hq⟩ := exists_isParent hr hroute hencloses
      exact hnone q hq
  parent_mem r s hs hr := (mem_routesOf h).mpr (hr.isListed h ((mem_routesOf h).mp hs))
  children r hr := by
    have hlisted := (mem_routesOf h).mp hr
    refine ⟨inlineTops text r r.children, ?_, inlineChildren_eq r r.children, fun s => ?_⟩
    · exact (h.children hlisted.mem).pairwise_start.sublist (inlineTops_sublist r r.children)
    · rw [mem_inlineTops_iff h hlisted, mem_routesOf h]

theorem lineOf_le_lineOf (text : List Char) {a b : Nat} (h : a ≤ b) : lineOf text a ≤ lineOf text b := by
  have hprefix : text.take a = (text.take b).take a := by rw [List.take_take, min_eq_left h]
  rw [lineOf, lineOf, hprefix]
  exact Nat.succ_le_succ ((List.take_sublist a (text.take b)).count_le '\n')

theorem parseModule_eq_ok {ds : List Declaration} (h : parseModule text = .ok ds) :
    ∃ roots, spans (stripComments text) = .ok roots ∧ declarationsOf (stripComments text) roots = ds := by
  rw [parseModule] at h
  cases hspans : spans (stripComments text) with
  | error fault =>
    rw [hspans] at h
    cases h
  | ok roots =>
    rw [hspans] at h
    exact ⟨roots, rfl, Except.ok.inj h⟩

/-- A routing module that is not refused declares its listed route objects, in the order of their braces
and once each; each declaration stands below the innermost route object around its own, and tells the
line of its brace in the module, so that lines do not decrease. -/
theorem parseModule_lists {ds : List Declaration} (h : parseModule text = .ok ds) :
    ∃ roots routes, spans (stripComments text) = .ok roots ∧
      Lists (stripComments text) roots ds routes ∧
      (∀ s ∈ routes, text[s.start]? = some '\x7b' ∧
        (declaredBy (stripComments text) s).line = (text.take s.start).count '\n' + 1) ∧
      ((preorder ds).map (·.line)).Pairwise (· ≤ ·) := by
  obtain ⟨roots, hroots, rfl⟩ := parseModule_eq_ok h
  have hlists : Lists (stripComments text) roots _ _ := lists_declarationsOf (tiled_spans hroots)
  have hblanked := blankedTo_stripComments text
  refine ⟨roots, _, hroots, hlists, fun s hs => ⟨?_, hblanked.lineOf_eq s.start⟩, ?_⟩
  · have hlisted := (hlists.mem_iff s).mp hs
    have hopening := (getElem?_of_mem_spans hroots hlisted.mem).1
    rw [kind_of_isRoute hlisted.route] at hopening
    exact hblanked.getElem?_of_ne (by decide) hopening
  · rw [hlists.flattened, List.map_map, List.pairwise_map]
    refine hlists.rises.imp fun {r s} hlt => ?_
    exact lineOf_le_lineOf _ (le_of_lt hlt)

/-- Routes under a `children` key, under another key and in a call, on two lines. -/
def nestedModule : List Char :=
  ("f([\x7b path: 'a', children: [\x7b path: 'b' \x7d], data: [\x7b path: 'c' \x7d] \x7d,\n" ++
    " g(\x7b path: 'd' \x7d)])").toList

theorem parseModule_nestedModule : ∃ ds, parseModule nestedModule = .ok ds ∧
    (preorder ds).map (fun d => (d.path, d.line)) = [("a", 1), ("b", 1), ("d", 2)] ∧
    ∃ roots routes, Lists (stripComments nestedModule) roots ds routes := by
  have hparse : (parseModule nestedModule).toOption.map
      (fun ds => (preorder ds).map fun d => (d.path, d.line)) =
        some [("a", 1), ("b", 1), ("d", 2)] := by decide +kernel
  obtain ⟨ds, hds, hlisted⟩ := Option.map_eq_some_iff.mp hparse
  have hok : parseModule nestedModule = .ok ds := by
    cases hresult : parseModule nestedModule with
    | error fault =>
      rw [hresult] at hds
      cases hds
    | ok found =>
      rw [hresult] at hds
      exact congrArg Except.ok (Option.some.inj hds)
  obtain ⟨roots, routes, -, hlists, -⟩ := parseModule_lists hok
  exact ⟨ds, hok, hlisted, roots, routes, hlists⟩

end RouteInventory.Routing
