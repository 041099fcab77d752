import Mathlib
import RouteInventory.Schema.Record

/-!
# What a schema accepts

A value is accepted by a schema if it breaks none of its rules. Each rule is spelled out: what it asks
of a value, in terms of what its parts ask of the parts of the value.
-/

namespace RouteInventory.Schema

-- Every rule below is read off one of these equations.
attribute [local simp] violations

/-- Whether a value breaks no rule of a schema. -/
def Accepts (s : Schema) (x : Json) : Prop := s.violations x = []

theorem validate_eq_ok_iff {s : Schema} {x : Json} : s.validate x = .ok () ↔ s.Accepts x := by
  rw [validate, Accepts]
  cases s.violations x with
  | nil => exact iff_of_true rfl rfl
  | cons v rest => exact iff_of_false nofun nofun

theorem check_eq_nil_iff {holds : Bool} {value : Json} {cause : Cause} :
    check holds value cause = [] ↔ holds = true := by
  cases holds <;> simp [check]

section Rules

variable {x : Json}

theorem violationsAll_eq_nil_iff {rules : List Schema} :
    violationsAll rules x = [] ↔ ∀ rule ∈ rules, rule.Accepts x := by
  induction rules with
  | nil => simp [violationsAll]
  | cons rule rest ih =>
    rw [violationsAll, List.append_eq_nil_iff, ih, List.forall_mem_cons]
    rfl

theorem accepts_all {rules : List Schema} : (all rules).Accepts x ↔ ∀ rule ∈ rules, rule.Accepts x := by
  rw [Accepts, violations, violationsAll_eq_nil_iff]

theorem accepts_kind {k : Kind} : (kind k).Accepts x ↔ k.admits x = true := by
  rw [Accepts, violations, check_eq_nil_iff]

theorem sortNames_isEmpty {names : List String} : (sortNames names).isEmpty = true ↔ names = [] := by
  rw [List.isEmpty_iff, ← List.length_eq_zero_iff, sortNames, List.length_mergeSort,
    List.length_eq_zero_iff]

theorem accepts_closed {names : List String} {fields : List (String × Json)} :
    (closed names).Accepts (.object fields) ↔ ∀ name ∈ fields.map (·.1), name ∈ names := by
  rw [Accepts, violations, check_eq_nil_iff, sortNames_isEmpty, List.filter_eq_nil_iff]
  simp only [Bool.not_eq_true', Bool.not_eq_false, List.contains_iff_mem]

theorem accepts_required {names : List String} {fields : List (String × Json)} :
    (required names).Accepts (.object fields) ↔ ∀ name ∈ names, name ∈ fields.map (·.1) := by
  rw [Accepts, violations, List.flatMap_eq_nil_iff]
  simp only [check_eq_nil_iff, List.contains_iff_mem]

theorem map_below_eq_nil_iff {step : Step} {found : List Violation} :
    found.map (·.below step) = [] ↔ found = [] := List.map_eq_nil_iff

theorem accepts_properties {rules : List (String × Schema)} : (properties rules).Accepts x ↔
    ∀ r ∈ rules, ∀ value, x.field? r.1 = some value → r.2.Accepts value := by
  rw [Accepts, violations]
  induction rules with
  | nil => simp [violationsFields]
  | cons r rest ih =>
    obtain ⟨name, rule⟩ := r
    rw [violationsFields, List.append_eq_nil_iff, ih, List.forall_mem_cons]
    refine and_congr_left fun _ => ?_
    cases hf : x.field? name with
    | none => exact iff_of_true rfl nofun
    | some value =>
      simp only [map_below_eq_nil_iff, Option.some.injEq, forall_eq']
      rfl

theorem accepts_minimum {least : Int} : (minimum least).Accepts x ↔ isBelow least x = false := by
  rw [Accepts, violations, check_eq_nil_iff, Bool.not_eq_true']

theorem accepts_minimum_int {least n : Int} : (minimum least).Accepts (.int n) ↔ least ≤ n := by
  rw [accepts_minimum]
  simp [isBelow, Json.ratio?]

theorem accepts_oneOf {choices : List String} {s : String} :
    (oneOf choices).Accepts (.text s) ↔ s ∈ choices := by
  rw [Accepts, violations, check_eq_nil_iff, List.any_eq_true]
  simp [Json.same]

theorem accepts_minLength {least : Nat} {s : String} :
    (minLength least).Accepts (.text s) ↔ least ≤ s.length := by
  rw [Accepts, violations, check_eq_nil_iff, decide_eq_true_eq]

theorem one_le_length_iff {s : String} : 1 ≤ s.length ↔ s ≠ "" := by
  rw [Nat.one_le_iff_ne_zero, ne_eq, ← String.length_toList, List.length_eq_zero_iff, String.toList_eq_nil_iff]

theorem accepts_distinct {items : List Json} :
    distinct.Accepts (.list items) ↔ areDistinct items = true := by
  rw [Accepts, violations, check_eq_nil_iff]

theorem accepts_items {rule : Schema} {xs : List Json} :
    (items rule).Accepts (.list xs) ↔ ∀ item ∈ xs, rule.Accepts item := by
  rw [Accepts, violations, List.flatMap_eq_nil_iff]
  simp only [map_below_eq_nil_iff]
  constructor
  · intro h item hitem
    obtain ⟨i, hi, rfl⟩ := List.mem_iff_getElem.mp hitem
    exact h (xs[i], i) (List.mem_zipIdx_iff_getElem?.mpr (by simp [hi]))
  · rintro h ⟨item, i⟩ hmem
    exact h item (List.fst_mem_of_mem_zipIdx hmem)

theorem accepts_shaped {shape : Shape} {s : String} :
    (shaped shape).Accepts (.text s) ↔ shape.fits s = true := by
  rw [Accepts, violations, check_eq_nil_iff]

theorem accepts_never {rule : Schema} : (never rule).Accepts x ↔ ¬ rule.Accepts x := by
  rw [Accepts, violations, check_eq_nil_iff, Bool.not_eq_true', Accepts, ← Bool.not_eq_true,
    List.isEmpty_iff]

theorem accepts_anyOf {choices : List Schema} :
    (anyOf choices).Accepts x ↔ ∃ choice ∈ choices, choice.Accepts x := by
  rw [Accepts, violations, check_eq_nil_iff]
  induction choices with
  | nil => simp [admitsAny]
  | cons choice rest ih =>
    rw [admitsAny, Bool.or_eq_true, ih, List.isEmpty_iff]
    simp only [List.mem_cons, or_and_right, exists_or, exists_eq_left]
    rfl

end Rules

/-! ### Texts that differ -/

theorem same_text {a b : String} : (Json.text a).same (.text b) = true ↔ a = b := by
  rw [Json.same, beq_iff_eq]

theorem arePairwiseDistinct_map_text {items : List String} :
    arePairwiseDistinct (items.map .text) = true ↔ items.Nodup := by
  induction items with
  | nil => exact iff_of_true rfl .nil
  | cons s rest ih =>
    rw [List.map_cons, arePairwiseDistinct, Bool.and_eq_true, ih, List.nodup_cons]
    refine and_congr_left fun _ => ?_
    simp only [Bool.not_eq_true', List.any_eq_false, List.forall_mem_map, same_text]
    exact ⟨fun h hs => h s hs rfl, fun h r hr heq => h (heq ▸ hr)⟩

theorem accepts_distinct_strings {items : List String} :
    distinct.Accepts (.strings items) ↔ items.Nodup := by
  rw [Json.strings, accepts_distinct, areDistinct, if_pos, arePairwiseDistinct_map_text]
  simp [isText]

/-! ### Records with known fields -/

theorem lookup_isSome_iff {fields : List (String × Json)} {name : String} :
    (∃ value, fields.lookup name = some value) ↔ name ∈ fields.map (·.1) := by
  induction fields with
  | nil => simp
  | cons field rest ih =>
    by_cases h : name = field.1
    · rw [List.lookup_cons, h, beq_self_eq_true]
      simp
    · rw [List.lookup_cons, beq_eq_false_iff_ne.mpr h, List.map_cons, List.mem_cons]
      simp [h, ih]

theorem accepts_exactly {rules : List (String × Schema)} {fields : List (String × Json)} :
    (exactly rules).Accepts (.object fields) ↔
      (∀ name ∈ fields.map (·.1), name ∈ rules.map (·.1)) ∧
        ∀ r ∈ rules, ∃ value, fields.lookup r.1 = some value ∧ r.2.Accepts value := by
  simp only [exactly, accepts_all, List.forall_mem_cons, List.not_mem_nil, false_imp_iff,
    implies_true, and_true, accepts_kind, accepts_closed, accepts_required, accepts_properties]
  constructor
  · rintro ⟨-, hclosed, hrequired, hfields⟩
    refine ⟨hclosed, fun r hr => ?_⟩
    obtain ⟨value, hvalue⟩ := lookup_isSome_iff.mpr (hrequired r.1 (List.mem_map_of_mem hr))
    exact ⟨value, hvalue, hfields r hr value hvalue⟩
  · rintro ⟨hclosed, hfields⟩
    refine ⟨rfl, hclosed, fun name hname => ?_, fun r hr value hvalue => ?_⟩
    · obtain ⟨r, hr, rfl⟩ := List.mem_map.mp hname
      obtain ⟨value, hvalue, -⟩ := hfields r hr
      exact lookup_isSome_iff.mp ⟨value, hvalue⟩
    · obtain ⟨found, hfound, haccepts⟩ := hfields r hr
      obtain rfl := Option.some.inj (hfound.symm.trans hvalue)
      exact haccepts

theorem accepts_count {n : Int} : count.Accepts (.int n) ↔ 0 ≤ n := by
  simp [count, accepts_all, accepts_kind, Kind.admits, accepts_minimum_int]

theorem accepts_listOf_strings {rules : List Schema} {items : List String} :
    (listOf rules).Accepts (.strings items) ↔
      items.Nodup ∧ ∀ s ∈ items, ∀ rule ∈ rules, rule.Accepts (.text s) := by
  simp only [listOf, accepts_all, List.forall_mem_cons, List.not_mem_nil, false_imp_iff,
    implies_true, and_true, accepts_kind, accepts_distinct_strings]
  rw [Json.strings, accepts_items, List.forall_mem_map]
  simp only [accepts_all]
  exact ⟨fun h => h.2, fun h => ⟨rfl, h⟩⟩

end RouteInventory.Schema
