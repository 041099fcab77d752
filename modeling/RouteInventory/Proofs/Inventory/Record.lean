import RouteInventory.Inventory.Artifacts
import RouteInventory.Proofs.Json.Fields
import RouteInventory.Proofs.Number.Digits
import RouteInventory.Proofs.Schema.Acceptance

/-!
# Valid records

`Inventory.Consistent` is what an extraction guarantees of its inventory. The complete record of such
an inventory is accepted by its schema, in the order in which it is made as well as sorted.
-/

namespace RouteInventory

open Text

namespace Inventory

/-- Whether an inventory's routes are different and can be navigated to, its addresses begin as in one
of the modes, and its counts belong to it. -/
structure Consistent (i : Inventory) : Prop where
  distinct : i.routes.Nodup
  ne_empty {r : String} (h : r ∈ i.routes) : r ≠ ""
  no_parameter {r : String} (h : r ∈ i.routes) : occurs ":".toList r.toList = false
  no_wildcard {r : String} (h : r ∈ i.routes) : occurs "**".toList r.toList = false
  mode : ∃ mode : RoutingMode, i.urlPrefix = mode.urlPrefix
  routingModules : 0 ≤ i.statistics.routingModules
  htmlFiles : 0 ≤ i.statistics.htmlFiles
  tsFiles : 0 ≤ i.statistics.tsFiles
  total : i.statistics.total = i.routes.length
  total_le : i.statistics.total ≤
    i.statistics.routingModules + i.statistics.htmlFiles + i.statistics.tsFiles
  generatedAt : i.generatedAt ≠ ""

variable {i : Inventory}

theorem Consistent.accepts_route (h : i.Consistent) {r : String} (hr : r ∈ i.routes) :
    ∀ rule ∈ Schema.routeRules, rule.Accepts (.text r) := by
  simp only [Schema.routeRules, List.forall_mem_cons, List.not_mem_nil, false_imp_iff, implies_true,
    and_true]
  refine ⟨Schema.accepts_kind.mpr rfl, ?_, ?_⟩
  · exact Schema.accepts_minLength.mpr (Schema.one_le_length_iff.mpr (h.ne_empty hr))
  · rw [Schema.accepts_never, Schema.accepts_anyOf]
    rintro ⟨choice, hchoice, haccepts⟩
    rw [List.mem_cons, List.mem_singleton] at hchoice
    rcases hchoice with rfl | rfl
    · exact Bool.false_ne_true ((h.no_parameter hr).symm.trans (Schema.accepts_shaped.mp haccepts))
    · exact Bool.false_ne_true ((h.no_wildcard hr).symm.trans (Schema.accepts_shaped.mp haccepts))

theorem fits_urlPrefix (mode : RoutingMode) (r : String) :
    (Schema.Shape.startsWith ["#/", "/"]).fits (mode.urlPrefix ++ r) = true := by
  cases mode <;> simp [Schema.Shape.fits, RoutingMode.urlPrefix]

theorem Consistent.accepts_url (h : i.Consistent) {url : String} (hu : url ∈ i.fullUrls) :
    ∀ rule ∈ Schema.urlRules, rule.Accepts (.text url) := by
  obtain ⟨r, -, rfl⟩ := List.mem_map.mp hu
  obtain ⟨mode, hmode⟩ := h.mode
  simp only [Schema.urlRules, List.forall_mem_cons, List.not_mem_nil, false_imp_iff, implies_true,
    and_true]
  refine ⟨Schema.accepts_kind.mpr rfl, Schema.accepts_shaped.mpr ?_⟩
  rw [hmode]
  exact fits_urlPrefix mode r

theorem Consistent.nodup_fullUrls (h : i.Consistent) : i.fullUrls.Nodup := by
  refine List.Pairwise.map _ (fun a b hne heq => hne ?_) h.distinct
  exact String.toList_inj.mp (by simpa using congrArg String.toList heq)

end Inventory

namespace Schema

/-- Whether a value is accepted in the order of its fields and with its fields sorted. -/
def AcceptsSorted (s : Schema) (x : Json) : Prop := s.Accepts x ∧ s.Accepts x.sorted

theorem acceptsSorted_of_sorted_eq {s : Schema} {x : Json} (hx : x.sorted = x) (h : s.Accepts x) :
    s.AcceptsSorted x := ⟨h, by rwa [hx]⟩

theorem acceptsSorted_exactly {rules : List (String × Schema)} {fields : List (String × Json)}
    (distinct : (fields.map (·.1)).Nodup)
    (hclosed : ∀ name ∈ fields.map (·.1), name ∈ rules.map (·.1))
    (hfields : ∀ r ∈ rules, ∃ value, fields.lookup r.1 = some value ∧ r.2.AcceptsSorted value) :
    (exactly rules).AcceptsSorted (.object fields) := by
  refine ⟨accepts_exactly.mpr ⟨hclosed, fun r hr => ?_⟩, ?_⟩
  · obtain ⟨value, hvalue, haccepts, -⟩ := hfields r hr
    exact ⟨value, hvalue, haccepts⟩
  · rw [Json.sorted_object]
    refine accepts_exactly.mpr ⟨fun name hname => ?_, fun r hr => ?_⟩
    · rw [List.map_map] at hname
      exact hclosed name (((Json.sortFields_perm fields).map _).mem_iff.mp hname)
    · obtain ⟨value, hvalue, -, haccepts⟩ := hfields r hr
      refine ⟨value.sorted, ?_, haccepts⟩
      rw [Json.lookup_map, Json.lookup_perm (Json.sortFields_perm fields)
        (Json.nodup_sortFields distinct), hvalue]
      rfl

end Schema

namespace Inventory

variable {i : Inventory}

theorem acceptsSorted_count {n : Int} (h : 0 ≤ n) : Schema.count.AcceptsSorted (.int n) :=
  Schema.acceptsSorted_of_sorted_eq rfl (Schema.accepts_count.mpr h)

theorem Consistent.accepts_statistics (h : i.Consistent) :
    Schema.statisticsSchema.AcceptsSorted i.statistics.record := by
  have htotal : 0 ≤ i.statistics.total := h.total ▸ Int.natCast_nonneg _
  refine Schema.acceptsSorted_exactly (by simp) (by simp) ?_
  simp only [List.forall_mem_cons, List.not_mem_nil, false_imp_iff, implies_true, and_true]
  exact ⟨⟨_, rfl, acceptsSorted_count h.routingModules⟩, ⟨_, rfl, acceptsSorted_count h.htmlFiles⟩,
    ⟨_, rfl, acceptsSorted_count h.tsFiles⟩, ⟨_, rfl, acceptsSorted_count htotal⟩⟩

theorem accepts_routingMode (mode : RoutingMode) :
    (Schema.oneOf ["Hash", "HTML5"]).AcceptsSorted (.text mode.name) := by
  refine Schema.acceptsSorted_of_sorted_eq rfl (Schema.accepts_oneOf.mpr ?_)
  cases mode <;> simp [RoutingMode.name]

theorem Consistent.accepts_generatedAt (h : i.Consistent) :
    (Schema.all [.kind .string, .minLength 1]).AcceptsSorted (.text i.generatedAt) := by
  refine Schema.acceptsSorted_of_sorted_eq rfl (Schema.accepts_all.mpr ?_)
  simp only [List.forall_mem_cons, List.not_mem_nil, false_imp_iff, implies_true, and_true]
  exact ⟨Schema.accepts_kind.mpr rfl,
    Schema.accepts_minLength.mpr (Schema.one_le_length_iff.mpr h.generatedAt)⟩

theorem acceptsSorted_strings {rules : List Schema} {items : List String} (hdistinct : items.Nodup)
    (hitems : ∀ s ∈ items, ∀ rule ∈ rules, rule.Accepts (.text s)) :
    (Schema.listOf rules).AcceptsSorted (.strings items) :=
  Schema.acceptsSorted_of_sorted_eq (Json.sorted_strings items)
    (Schema.accepts_listOf_strings.mpr ⟨hdistinct, hitems⟩)

/-- The part of the complete record that is about the routes as a whole. -/
def metadata (i : Inventory) : Json :=
  .object [
    ("totalRoutes", .int i.routes.length),
    ("routingMode", .text i.routingMode.name),
    ("generatedAt", .text i.generatedAt),
    ("stats", i.statistics.record)]

theorem record_eq (i : Inventory) : i.record = .object [("metadata", i.metadata),
    ("routes", .strings i.routes), ("fullUrls", .strings i.fullUrls)] := rfl

theorem Consistent.accepts_metadata (h : i.Consistent) :
    Schema.metadataSchema.AcceptsSorted i.metadata := by
  refine Schema.acceptsSorted_exactly (by simp) (by simp) ?_
  simp only [List.forall_mem_cons, List.not_mem_nil, false_imp_iff, implies_true, and_true]
  exact ⟨⟨_, rfl, acceptsSorted_count (Int.natCast_nonneg _)⟩, ⟨_, rfl, accepts_routingMode _⟩,
    ⟨_, rfl, h.accepts_generatedAt⟩, ⟨_, rfl, h.accepts_statistics⟩⟩

/-- The schema accepts the complete record, as it is made and as it is written. -/
theorem Consistent.accepts_record (h : i.Consistent) :
    Schema.recordSchema.AcceptsSorted i.record := by
  rw [record_eq]
  refine Schema.acceptsSorted_exactly (by simp) (by simp) ?_
  simp only [List.forall_mem_cons, List.not_mem_nil, false_imp_iff, implies_true, and_true]
  exact ⟨⟨_, rfl, h.accepts_metadata⟩,
    ⟨_, rfl, acceptsSorted_strings h.distinct fun _ hr => h.accepts_route hr⟩,
    ⟨_, rfl, acceptsSorted_strings h.nodup_fullUrls fun _ hu => h.accepts_url hu⟩⟩

/-! ### The artifacts -/

/-- Whether the counts of an inventory, which are lengths of lists in memory, have no more digits than
are read. -/
def Readable (i : Inventory) : Prop :=
  i.statistics.routingModules + i.statistics.htmlFiles + i.statistics.tsFiles <
    10 ^ Number.maxDigits

theorem writable_int {n m : Int} (h : 0 ≤ n) (hle : n ≤ m) (hm : m < 10 ^ Number.maxDigits) :
    Json.Writable (.int n) := by
  refine .int (Number.isBeyond_maxDigits ?_)
  have : (n.natAbs : Int) < ((10 ^ Number.maxDigits : Nat) : Int) := by
    rw [Int.natAbs_of_nonneg h, Int.natCast_pow]
    exact Int.lt_of_le_of_lt hle hm
  exact Int.ofNat_lt.mp this

theorem Consistent.writable_statistics (h : i.Consistent) (hr : i.Readable) :
    i.statistics.record.Writable := by
  obtain ⟨hmodules, hhtml, hts, htotal⟩ := And.intro h.routingModules
    (And.intro h.htmlFiles (And.intro h.tsFiles h.total_le))
  refine .object (by simp) ?_
  simp only [List.forall_mem_cons, List.not_mem_nil, false_imp_iff, implies_true, and_true]
  exact ⟨writable_int hmodules (by omega) hr, writable_int hhtml (by omega) hr,
    writable_int hts (by omega) hr, writable_int (h.total ▸ Int.natCast_nonneg _) htotal hr⟩

theorem Consistent.writable_metadata (h : i.Consistent) (hr : i.Readable) : i.metadata.Writable := by
  have hlength : Json.Writable (.int i.routes.length) :=
    writable_int (Int.natCast_nonneg _) (h.total ▸ h.total_le) hr
  refine .object (by simp) ?_
  simp only [List.forall_mem_cons, List.not_mem_nil, false_imp_iff, implies_true, and_true]
  exact ⟨hlength, .text _, .text _, h.writable_statistics hr⟩

/-- The complete record of a consistent inventory can be read back. -/
theorem Consistent.writable_record (h : i.Consistent) (hr : i.Readable) : i.record.Writable := by
  rw [record_eq]
  refine .object (by simp) ?_
  simp only [List.forall_mem_cons, List.not_mem_nil, false_imp_iff, implies_true, and_true]
  exact ⟨h.writable_metadata hr, Json.writable_strings _, Json.writable_strings _⟩

theorem Consistent.artifacts_eq (h : i.Consistent) : i.artifacts = .ok [
    ⟨Artifact.routesName, (Json.strings i.routes).stableText (some 2)⟩,
    ⟨Artifact.urlsName, (Json.strings i.fullUrls).stableText (some 2)⟩,
    ⟨Artifact.recordName, i.record.stableText (some 2)⟩] := by
  rw [artifacts, Schema.validate_eq_ok_iff.mpr h.accepts_record.1]

end Inventory

end RouteInventory
