import Mathlib
import RouteInventory.Inventory.Reconciliation

/-!
# The reconciled routes

`increasing` lists the members of a list in strictly increasing order, so the reconciled routes are
the navigable routes of all evidence, each once. Every one of them is a text that is no parameter and
no wildcard. A list that rises strictly is determined by its members (`eq_of_pairwise_lt`), so the
routes depend on the texts that occur alone (`routes_reconcile_congr`).
-/

namespace RouteInventory

open Text

theorem mem_insertRoute {route r : String} {routes : List String} :
    r ∈ insertRoute route routes ↔ r = route ∨ r ∈ routes := by
  induction routes with
  | nil => simp [insertRoute]
  | cons other rest ih =>
    rw [insertRoute]
    split
    · rw [List.mem_cons]
    split
    · rename_i heq
      subst heq
      simp
    · rw [List.mem_cons, ih, List.mem_cons]
      exact or_left_comm

theorem mem_increasing {r : String} {routes : List String} :
    r ∈ increasing routes ↔ r ∈ routes := by
  induction routes with
  | nil => rfl
  | cons route rest ih =>
    show r ∈ insertRoute route (increasing rest) ↔ _
    rw [mem_insertRoute, ih, List.mem_cons]

theorem pairwise_insertRoute (route : String) {routes : List String}
    (h : routes.Pairwise (· < ·)) : (insertRoute route routes).Pairwise (· < ·) := by
  induction routes with
  | nil => exact List.pairwise_singleton _ _
  | cons other rest ih =>
    obtain ⟨hother, hrest⟩ := List.pairwise_cons.mp h
    rw [insertRoute]
    split
    · rename_i hlt
      refine List.pairwise_cons.mpr ⟨fun r hr => ?_, h⟩
      rcases List.mem_cons.mp hr with rfl | hr
      · exact hlt
      · exact String.lt_trans hlt (hother r hr)
    split
    · exact h
    · rename_i hlt hne
      refine List.pairwise_cons.mpr ⟨fun r hr => ?_, ih hrest⟩
      rcases mem_insertRoute.mp hr with rfl | hr
      · exact Std.lt_of_le_of_ne (Std.not_lt.mp hlt) (Ne.symm hne)
      · exact hother r hr

theorem pairwise_increasing (routes : List String) : (increasing routes).Pairwise (· < ·) := by
  induction routes with
  | nil => exact .nil
  | cons route rest ih => exact pairwise_insertRoute route ih

theorem length_increasing (routes : List String) :
    (increasing routes).length = routes.toFinset.card := by
  rw [← List.toFinset_card_of_nodup (pairwise_increasing routes).nodup]
  congr 1
  ext r
  simp [mem_increasing]

theorem length_increasing_le (routes : List String) : (increasing routes).length ≤ routes.length := by
  rw [length_increasing]
  exact List.toFinset_card_le routes

theorem eq_of_pairwise_lt {α : Type} [LinearOrder α] {first second : List α}
    (hfirst : first.Pairwise (· < ·)) (hsecond : second.Pairwise (· < ·))
    (h : ∀ a, a ∈ first ↔ a ∈ second) : first = second := by
  have hperm : first.Perm second := (List.perm_ext_iff_of_nodup hfirst.nodup hsecond.nodup).mpr h
  exact hperm.eq_of_pairwise (fun a b _ _ hab hba => absurd hba (lt_asymm hab)) hfirst hsecond

section Reconcile

variable (excluded tree html ts : List String)

theorem pairwise_reconcile : (reconcile excluded tree html ts).routes.Pairwise (· < ·) :=
  (pairwise_increasing _).filter _

theorem nodup_reconcile : (reconcile excluded tree html ts).routes.Nodup :=
  (pairwise_reconcile excluded tree html ts).nodup

theorem mem_reconcile {r : String} : r ∈ (reconcile excluded tree html ts).routes ↔
    (r ∈ tree ∨ r ∈ html ∨ r ∈ ts) ∧ isNavigable excluded r = true := by
  simp only [reconcile, List.mem_filter, mem_increasing, List.mem_append, or_assoc]

theorem total_reconcile_le : (reconcile excluded tree html ts).total ≤
    tree.length + html.length + ts.length := by
  have hfilter := List.length_filter_le (isNavigable excluded) (increasing (tree ++ html ++ ts))
  have hunique := length_increasing_le (tree ++ html ++ ts)
  simp only [List.length_append] at hunique
  exact Nat.le_trans hfilter hunique

end Reconcile

/-! ### Navigable routes -/

theorem isNavigable_iff {excluded : List String} {route : String} :
    isNavigable excluded route = true ↔ strip route.toList ≠ [] ∧
      (∀ part ∈ rejectedParts, occurs part.toList route.toList = false) ∧ route ∉ excluded := by
  simp [isNavigable, and_assoc]

theorem strip_nil : strip [] = [] := rfl

theorem ne_empty_of_isNavigable {excluded : List String} {route : String}
    (h : isNavigable excluded route = true) : route ≠ "" := by
  rintro rfl
  exact (isNavigable_iff.mp h).1 strip_nil

theorem trimEnd_eq_nil_iff {junk : Char → Bool} {text : List Char} :
    trimEnd junk text = [] ↔ ∀ c ∈ text, junk c = true := by
  simp [trimEnd, List.dropWhile_eq_nil_iff]

theorem strip_eq_nil_iff {text : List Char} : strip text = [] ↔ ∀ c ∈ text, isBlank c = true := by
  rw [strip, trim, trimEnd_eq_nil_iff, trimStart]
  constructor
  · intro h
    refine List.dropWhile_eq_nil_iff.mp ?_
    -- a first character that is left is no blank
    by_contra hne
    have hfirst := List.head_dropWhile_not isBlank hne
    rw [h _ (List.head_mem hne)] at hfirst
    cases hfirst
  · intro h c hc
    exact h c (List.dropWhile_subset _ hc)

theorem isNavigable_iff_infix {excluded : List String} {route : String} :
    isNavigable excluded route = true ↔ (∃ c ∈ route.toList, isBlank c = false) ∧
      (∀ part ∈ rejectedParts, ¬ part.toList <:+: route.toList) ∧ route ∉ excluded := by
  rw [isNavigable_iff, ne_eq, strip_eq_nil_iff]
  simp only [← occurs_iff, Bool.not_eq_true, not_forall, exists_prop]

/-! ### The routes as a set -/

/-- A text as the list of its code points. -/
def codePoints (text : String) : List Nat := text.toList.map Char.toNat

theorem codePoints_lt {a b : String} (h : a < b) : codePoints a < codePoints b :=
  List.map_lt (fun _ _ hlt => hlt) (String.lt_iff_toList_lt.mp h)

theorem routes_reconcile_congr {excluded excluded' tree html ts tree' html' ts' : List String}
    (hexcluded : ∀ r, r ∈ excluded' ↔ r ∈ excluded)
    (h : ∀ r, isNavigable excluded r = true →
      ((r ∈ tree' ∨ r ∈ html' ∨ r ∈ ts') ↔ (r ∈ tree ∨ r ∈ html ∨ r ∈ ts))) :
    (reconcile excluded' tree' html' ts').routes = (reconcile excluded tree html ts).routes := by
  refine eq_of_pairwise_lt (pairwise_reconcile ..) (pairwise_reconcile ..) fun r => ?_
  have hnavigable : isNavigable excluded' r = isNavigable excluded r := by
    rw [Bool.eq_iff_iff, isNavigable_iff, isNavigable_iff, hexcluded]
  rw [mem_reconcile, mem_reconcile, hnavigable]
  exact and_congr_left (h r)

/-- Reconciliation is the sorted navigable union: the routes rise strictly by code points and are what
occurs in some list, is not blank, has no rejected part in it and is not excluded. So they depend on the
texts that occur alone, and reconciling them again changes nothing. -/
theorem reconcile_union (excluded tree html ts : List String) :
    let r := reconcile excluded tree html ts
    r.routes.Pairwise (fun a b => codePoints a < codePoints b) ∧
      (∀ route, route ∈ r.routes ↔ (route ∈ tree ∨ route ∈ html ∨ route ∈ ts) ∧
        (∃ c ∈ route.toList, isBlank c = false) ∧
        (∀ part ∈ ["**", ":", "undefined", "null"], ¬ part.toList <:+: route.toList) ∧
        route ∉ excluded) ∧
      r.unique = (tree ++ html ++ ts).toFinset.card ∧
      (r.routingModules = tree.length ∧ r.htmlFiles = html.length ∧ r.tsFiles = ts.length) ∧
      (r.total = r.routes.length ∧ r.total ≤ r.unique ∧
        r.unique ≤ r.routingModules + r.htmlFiles + r.tsFiles) ∧
      (∀ excluded' tree' html' ts', (∀ route, route ∈ excluded' ↔ route ∈ excluded) →
        (∀ route, (route ∈ tree' ∨ route ∈ html' ∨ route ∈ ts') ↔
          (route ∈ tree ∨ route ∈ html ∨ route ∈ ts)) →
        (reconcile excluded' tree' html' ts').routes = r.routes) ∧
      ∀ tree' html' ts', (∀ route, (route ∈ tree' ∨ route ∈ html' ∨ route ∈ ts') ↔ route ∈ r.routes) →
        (reconcile excluded tree' html' ts').routes = r.routes := by
  intro r
  refine ⟨(pairwise_reconcile excluded tree html ts).imp codePoints_lt, fun route => ?_,
    length_increasing _, ⟨rfl, rfl, rfl⟩, ⟨rfl, List.length_filter_le _ _, ?_⟩, ?_, ?_⟩
  · exact (mem_reconcile excluded tree html ts).trans (and_congr_right fun _ => isNavigable_iff_infix)
  · have hle := length_increasing_le (tree ++ html ++ ts)
    simp only [List.length_append] at hle
    exact hle
  · intro excluded' tree' html' ts' hexcluded h
    exact routes_reconcile_congr hexcluded fun route _ => h route
  · intro tree' html' ts' h
    refine routes_reconcile_congr (fun _ => Iff.rfl) fun route hroute => ?_
    rw [h, mem_reconcile, and_iff_left hroute]

end RouteInventory
