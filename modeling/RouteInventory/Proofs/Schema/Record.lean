import RouteInventory.Proofs.Schema.Acceptance

/-!
# The values that are complete records

What the schema of the complete record accepts, said of the value alone: `IsRecord` names the fields of the
record and what each of them holds. Numbers count by their value, so that `1.0` is a count and a truth value is
none.
-/

namespace RouteInventory

open Text

/-! ### The values of numbers -/

namespace Number.Binary64

/-- The value of a finite number. -/
def value? : Binary64 → Option ℚ
  | finite negative mantissa exponent => some ((if negative then -1 else 1) * mantissa * 2 ^ exponent)
  | _ => none

theorem zpow_two_eq_div (e : ℤ) : (2 : ℚ) ^ e = 2 ^ e.toNat / 2 ^ (-e).toNat := by
  obtain ⟨n, rfl | rfl⟩ := e.eq_nat_or_neg
  · simp
  · simp

theorem value?_eq_map_ratio? (x : Binary64) :
    x.value? = x.ratio?.map fun (num, den) => (num : ℚ) / den := by
  cases x with
  | nan => rfl
  | infinite => rfl
  | finite negative mantissa exponent =>
    rw [value?, ratio?, Option.map_some, zpow_two_eq_div]
    cases negative <;> simp [mul_div_assoc, neg_div]

theorem ratio?_den_pos {x : Binary64} {num : Int} {den : Nat} (h : x.ratio? = some (num, den)) : 0 < den := by
  cases x with
  | nan => cases h
  | infinite => cases h
  | finite negative mantissa exponent =>
    obtain ⟨-, rfl⟩ := Prod.mk.inj (Option.some.inj h)
    exact Nat.two_pow_pos _

end Number.Binary64

namespace Json

/-- The value of a number. -/
def number? : Json → Option ℚ
  | int n => some n
  | float x => x.value?
  | _ => none

/-- A count: a number, written as a whole number or not, whose value is a natural number. -/
def IsCount (x : Json) : Prop := ∃ n : ℕ, x.number? = some n

/-- An object that has exactly the given fields, where the value of each is as the field says. -/
def HasFields (fields : List (String × (Json → Prop))) (x : Json) : Prop :=
  ∃ known, x = object known ∧ (∀ name, name ∈ known.map (·.1) ↔ name ∈ fields.map (·.1)) ∧
    ∀ field ∈ fields, ∃ value, x.field? field.1 = some value ∧ field.2 value

/-- A text with a property. -/
def IsTextOf (p : String → Prop) (x : Json) : Prop := ∃ s, x = text s ∧ p s

/-- A list of texts with a property, no two of them equal. -/
def IsListOf (p : String → Prop) (x : Json) : Prop :=
  ∃ items, x = strings items ∧ items.Nodup ∧ ∀ s ∈ items, p s

/-- A route that can be navigated to, as the record lists it. -/
def IsRoute (s : String) : Prop := s ≠ "" ∧ ':' ∉ s.toList ∧ ¬ ['*', '*'] <:+: s.toList

/-- An address of the record. -/
def IsAddress (s : String) : Prop := ['#', '/'] <+: s.toList ∨ ['/'] <+: s.toList

def IsStatistics : Json → Prop :=
  HasFields [("routingModules", IsCount), ("htmlFiles", IsCount), ("tsFiles", IsCount), ("total", IsCount)]

def IsMetadata : Json → Prop :=
  HasFields [("totalRoutes", IsCount), ("routingMode", IsTextOf fun s => s = "Hash" ∨ s = "HTML5"),
    ("generatedAt", IsTextOf fun s => s ≠ ""), ("stats", IsStatistics)]

/-- The complete record of an inventory. -/
def IsRecord : Json → Prop :=
  HasFields [("metadata", IsMetadata), ("routes", IsListOf IsRoute), ("fullUrls", IsListOf IsAddress)]

end Json

namespace Schema

open Json

variable {x : Json}

/-- Whether a schema accepts the values with a property and no others. -/
def Means (s : Schema) (p : Json → Prop) : Prop := ∀ x, s.Accepts x ↔ p x

/-! ### Counts -/

theorem emod_eq_zero_and_nonneg_iff {num : Int} {den : Nat} (hden : 0 < den) :
    (num % den = 0 ∧ 0 ≤ num) ↔ ∃ n : ℕ, (num : ℚ) / den = n := by
  have hpos : (den : ℚ) ≠ 0 := Nat.cast_ne_zero.mpr hden.ne'
  constructor
  · rintro ⟨hmod, hnonneg⟩
    obtain ⟨k, rfl⟩ := Int.dvd_of_emod_eq_zero hmod
    have hk : 0 ≤ k := nonneg_of_mul_nonneg_right hnonneg (Int.natCast_pos.mpr hden)
    obtain ⟨n, rfl⟩ := Int.eq_ofNat_of_zero_le hk
    exact ⟨n, by rw [div_eq_iff hpos]; push_cast; ring⟩
  · rintro ⟨n, hn⟩
    rw [div_eq_iff hpos] at hn
    obtain rfl : num = n * den := by exact_mod_cast hn
    exact ⟨Int.mul_emod_left _ _, by positivity⟩

theorem accepts_count_iff :
    count.Accepts x ↔ Kind.integer.admits x = true ∧ isBelow 0 x = false := by
  simp only [count, accepts_all, List.forall_mem_cons, List.not_mem_nil, false_imp_iff, implies_true,
    and_true, accepts_kind, accepts_minimum]

/-- A floating-point number is a count for the schema if its quotient is whole and not negative. -/
theorem accepts_count_float {f : Number.Binary64} : count.Accepts (.float f) ↔
    ∃ num den, f.ratio? = some (num, den) ∧ num % den = 0 ∧ 0 ≤ num := by
  rw [accepts_count_iff, Kind.admits, Number.Binary64.isInteger]
  cases f with
  | nan => simp [Number.Binary64.ratio?]
  | infinite => simp [Number.Binary64.ratio?]
  | finite negative mantissa exponent =>
    simp [isBelow, Json.ratio?, Number.Binary64.ratio?]

theorem means_count : count.Means IsCount := by
  intro x
  cases x with
  | int n =>
    rw [accepts_count, IsCount]
    constructor
    · intro h
      obtain ⟨k, rfl⟩ := Int.eq_ofNat_of_zero_le h
      exact ⟨k, rfl⟩
    · rintro ⟨k, hk⟩
      have hn : n = k := by exact_mod_cast Option.some.inj hk
      exact hn ▸ Int.natCast_nonneg k
  | float f =>
    rw [accepts_count_float, IsCount, number?, Number.Binary64.value?_eq_map_ratio?]
    cases hf : f.ratio? with
    | none => exact iff_of_false (by simp) (by simp)
    | some r =>
      obtain ⟨num, den⟩ := r
      simpa using emod_eq_zero_and_nonneg_iff (Number.Binary64.ratio?_den_pos hf)
  | _ =>
    refine iff_of_false (fun h => Bool.false_ne_true (accepts_count_iff.mp h).1) ?_
    rintro ⟨n, hn⟩
    cases hn

example : count.Accepts (.float (.finite false (2 ^ 52) (-52))) := rfl

/-! ### Texts -/

theorem means_oneOf {choices : List String} : (oneOf choices).Means (IsTextOf (· ∈ choices)) := by
  intro x
  rw [Accepts, violations, check_eq_nil_iff, List.any_eq_true]
  constructor
  · rintro ⟨choice, hchoice, hsame⟩
    cases x with
    | text s => exact ⟨s, rfl, same_text.mp hsame ▸ hchoice⟩
    | _ => simp [Json.same, Json.ratio?] at hsame
  · rintro ⟨s, rfl, hs⟩
    exact ⟨s, hs, same_text.mpr rfl⟩

/-- Rules for texts accept no value but a text. -/
theorem accepts_all_string {rules : List Schema} : (all (kind .string :: rules)).Accepts x ↔
    ∃ s, x = .text s ∧ ∀ rule ∈ rules, rule.Accepts (.text s) := by
  rw [accepts_all, List.forall_mem_cons, accepts_kind]
  constructor
  · rintro ⟨hkind, hrules⟩
    cases x with
    | text s => exact ⟨s, rfl, hrules⟩
    | _ => exact absurd hkind Bool.false_ne_true
  · rintro ⟨s, rfl, hrules⟩
    exact ⟨rfl, hrules⟩

theorem accepts_shaped_contains {word s : String} :
    (shaped (.contains word)).Accepts (.text s) ↔ word.toList <:+: s.toList := by
  rw [accepts_shaped, Shape.fits, occurs_iff]

theorem accepts_shaped_startsWith {words : List String} {s : String} :
    (shaped (.startsWith words)).Accepts (.text s) ↔ ∃ word ∈ words, word.toList <+: s.toList := by
  rw [accepts_shaped, Shape.fits, List.any_eq_true]
  simp only [List.isPrefixOf_iff_prefix]

theorem means_nonempty : (all [kind .string, minLength 1]).Means (IsTextOf (· ≠ "")) := by
  intro x
  rw [accepts_all_string, IsTextOf]
  simp only [List.forall_mem_singleton, accepts_minLength, one_le_length_iff]

theorem means_routeRules : (all routeRules).Means (IsTextOf IsRoute) := by
  intro x
  rw [routeRules, accepts_all_string]
  refine exists_congr fun s => and_congr_right fun _ => ?_
  have hcolon : ":".toList <:+: s.toList ↔ ':' ∈ s.toList := List.singleton_infix_iff ..
  rw [List.forall_mem_cons, List.forall_mem_singleton, accepts_minLength, one_le_length_iff, accepts_never,
    accepts_anyOf, List.exists_mem_cons_iff, accepts_shaped_contains, hcolon, not_or]
  simp only [List.mem_singleton, exists_eq_left, accepts_shaped_contains]
  rfl

theorem means_urlRules : (all urlRules).Means (IsTextOf IsAddress) := by
  intro x
  rw [urlRules, accepts_all_string]
  refine exists_congr fun s => and_congr_right fun _ => ?_
  rw [List.forall_mem_singleton, accepts_shaped_startsWith, List.exists_mem_cons_iff]
  simp only [List.mem_singleton, exists_eq_left]
  rfl

/-! ### Lists -/

theorem forall_isTextOf_iff {p : String → Prop} {xs : List Json} :
    (∀ item ∈ xs, IsTextOf p item) ↔
      ∃ strings : List String, xs = strings.map .text ∧ ∀ s ∈ strings, p s := by
  constructor
  · intro h
    induction xs with
    | nil => exact ⟨[], rfl, List.forall_mem_nil _⟩
    | cons item rest ih =>
      obtain ⟨⟨s, rfl, hs⟩, hrest⟩ := List.forall_mem_cons.mp h
      obtain ⟨strings, rfl, hstrings⟩ := ih hrest
      exact ⟨s :: strings, rfl, List.forall_mem_cons.mpr ⟨hs, hstrings⟩⟩
  · rintro ⟨strings, rfl, hstrings⟩ item hitem
    obtain ⟨s, hs, rfl⟩ := List.mem_map.mp hitem
    exact ⟨s, rfl, hstrings s hs⟩

theorem means_listOf {rules : List Schema} {p : String → Prop} (h : (all rules).Means (IsTextOf p)) :
    (listOf rules).Means (IsListOf p) := by
  intro x
  rw [listOf, accepts_all, List.forall_mem_cons, List.forall_mem_cons, List.forall_mem_singleton, accepts_kind]
  constructor
  · rintro ⟨hkind, hdistinct, hitems⟩
    cases x with
    | list xs =>
      obtain ⟨strings, rfl, hstrings⟩ := forall_isTextOf_iff.mp fun item hitem =>
        (h item).mp (accepts_items.mp hitems item hitem)
      exact ⟨strings, rfl, accepts_distinct_strings.mp hdistinct, hstrings⟩
    | _ => exact absurd hkind Bool.false_ne_true
  · rintro ⟨strings, rfl, hdistinct, hstrings⟩
    refine ⟨rfl, accepts_distinct_strings.mpr hdistinct, accepts_items.mpr fun item hitem => ?_⟩
    exact (h item).mpr (forall_isTextOf_iff.mpr ⟨strings, rfl, hstrings⟩ item hitem)

/-! ### Objects -/

section Objects

variable {rules : List (String × Schema)} {fields : List (String × (Json → Prop))}

theorem forall_mem_iff_of_means {known : List (String × Json)}
    (h : List.Forall₂ (fun rule field => rule.1 = field.1 ∧ rule.2.Means field.2) rules fields) :
    (∀ rule ∈ rules, ∃ value, known.lookup rule.1 = some value ∧ rule.2.Accepts value) ↔
      ∀ field ∈ fields, ∃ value, known.lookup field.1 = some value ∧ field.2 value := by
  induction h with
  | nil => exact iff_of_true (List.forall_mem_nil _) (List.forall_mem_nil _)
  | cons hfield _ ih =>
    obtain ⟨hname, hmeans⟩ := hfield
    rw [List.forall_mem_cons, List.forall_mem_cons, ih, hname]
    simp only [hmeans _]

theorem map_name_eq_of_means
    (h : List.Forall₂ (fun rule field => rule.1 = field.1 ∧ rule.2.Means field.2) rules fields) :
    rules.map (·.1) = fields.map (·.1) := by
  induction h with
  | nil => rfl
  | cons hfield _ ih => rw [List.map_cons, List.map_cons, hfield.1, ih]

/-- An object of exactly some fields is accepted by what the schemas of its fields mean. -/
theorem means_exactly
    (h : List.Forall₂ (fun rule field => rule.1 = field.1 ∧ rule.2.Means field.2) rules fields) :
    (exactly rules).Means (HasFields fields) := by
  intro x
  constructor
  · intro haccepts
    have hkind : Kind.object.admits x = true := accepts_kind.mp (accepts_all.mp haccepts _ (List.mem_cons_self ..))
    cases x with
    | object known =>
      obtain ⟨hclosed, hfields⟩ := accepts_exactly.mp haccepts
      rw [map_name_eq_of_means h] at hclosed
      have hknown := (forall_mem_iff_of_means h).mp hfields
      refine ⟨known, rfl, fun name => ⟨hclosed name, fun hname => ?_⟩, hknown⟩
      obtain ⟨field, hfield, rfl⟩ := List.mem_map.mp hname
      obtain ⟨value, hvalue, -⟩ := hknown field hfield
      exact lookup_isSome_iff.mp ⟨value, hvalue⟩
    | _ => exact absurd hkind Bool.false_ne_true
  · rintro ⟨known, rfl, hnames, hfields⟩
    refine accepts_exactly.mpr ⟨fun name hname => ?_, (forall_mem_iff_of_means h).mpr hfields⟩
    rw [map_name_eq_of_means h]
    exact (hnames name).mp hname

end Objects

/-! ### The record -/

theorem means_statisticsSchema : statisticsSchema.Means IsStatistics :=
  means_exactly (.cons ⟨rfl, means_count⟩ (.cons ⟨rfl, means_count⟩ (.cons ⟨rfl, means_count⟩
    (.cons ⟨rfl, means_count⟩ .nil))))

theorem means_routingMode :
    (oneOf ["Hash", "HTML5"]).Means (IsTextOf fun s => s = "Hash" ∨ s = "HTML5") := by
  intro x
  rw [means_oneOf x]
  simp only [IsTextOf, List.mem_cons, List.not_mem_nil, or_false]

theorem means_metadataSchema : metadataSchema.Means IsMetadata :=
  means_exactly (.cons ⟨rfl, means_count⟩ (.cons ⟨rfl, means_routingMode⟩ (.cons ⟨rfl, means_nonempty⟩
    (.cons ⟨rfl, means_statisticsSchema⟩ .nil))))

theorem means_recordSchema : recordSchema.Means IsRecord :=
  means_exactly (.cons ⟨rfl, means_metadataSchema⟩ (.cons ⟨rfl, means_listOf means_routeRules⟩
    (.cons ⟨rfl, means_listOf means_urlRules⟩ .nil)))

/-- Validation by the schema of the complete record succeeds for the complete records and answers a violation
for every other value. -/
theorem validateBy_recordSchemaName (x : Json) :
    (validateBy recordSchemaName x = .ok () ↔ IsRecord x) ∧
      ((∃ violation, validateBy recordSchemaName x = .error (.invalid violation)) ↔ ¬ IsRecord x) := by
  have hok : recordSchema.validate x = .ok () ↔ IsRecord x := validate_eq_ok_iff.trans (means_recordSchema x)
  simp only [validateBy, named?_recordSchemaName]
  cases hv : recordSchema.validate x with
  | ok _ =>
    have hrecord : IsRecord x := hok.mp hv
    exact ⟨iff_of_true rfl hrecord, iff_of_false (by simp) (not_not_intro hrecord)⟩
  | error violation =>
    have hrecord : ¬ IsRecord x := by
      intro h
      rw [hok.mpr h] at hv
      cases hv
    exact ⟨iff_of_false (by simp) hrecord, iff_of_true ⟨violation, rfl⟩ hrecord⟩

end Schema

end RouteInventory
