import RouteInventory.Proofs.Json.Canonical
import RouteInventory.Proofs.Value.Sorting
import RouteInventory.Value.Plain

/-!
# What values mean as JSON

Data are the values that JSON knows, tuples, and sets of texts or paths. `Means` says which JSON values a
datum stands for: a tuple for a list, a set for the rising list of its texts, a mapping for an object with
its entries in any order. The stable text of data is read as what they mean, and data have the same text
if and only if they mean the same (`stableText_canonical`).
-/

namespace RouteInventory.Value

/-- The text that stands for an item of a set. -/
def itemText? : Value → Option String
  | text s => some s
  | path p => some p.text
  | _ => none

inductive IsData : Value → Prop
  | null : IsData null
  | bool (b : Bool) : IsData (bool b)
  | int (n : Int) : IsData (int n)
  | text (s : String) : IsData (text s)
  | list {items : List Value} (h : ∀ x ∈ items, IsData x) : IsData (list items)
  | tuple {items : List Value} (h : ∀ x ∈ items, IsData x) : IsData (tuple items)
  | mapping {entries : List (Value × Value)} (names : ∀ e ∈ entries, ∃ s, e.1 = .text s)
      (distinct : (entries.map (·.1)).Nodup) (h : ∀ e ∈ entries, IsData e.2) : IsData (mapping entries)
  | set {frozen : Bool} {items : List Value} (h : ∀ x ∈ items, (itemText? x).isSome) :
      IsData (set frozen items)

inductive Means : Value → Json → Prop
  | null : Means null .null
  | bool (b : Bool) : Means (bool b) (.bool b)
  | int (n : Int) : Means (int n) (.int n)
  | text (s : String) : Means (text s) (.text s)
  | list {items : List Value} {parts : List Json} (h : List.Forall₂ Means items parts) :
      Means (list items) (.list parts)
  | tuple {items : List Value} {parts : List Json} (h : List.Forall₂ Means items parts) :
      Means (tuple items) (.list parts)
  | mapping {entries : List (Value × Value)} {fields listed : List (String × Json)}
      (names : entries.map (·.1) = (fields.map (·.1)).map .text)
      (h : List.Forall₂ Means (entries.map (·.2)) (fields.map (·.2)))
      (distinct : (fields.map (·.1)).Nodup) (order : listed.Perm fields) :
      Means (mapping entries) (.object listed)
  | set {frozen : Bool} {items : List Value} {texts : List String}
      (order : texts.Perm (items.filterMap itemText?)) (rises : texts.Pairwise (· ≤ ·)) :
      Means (set frozen items) (Json.strings texts)

/-! ### What lists of values mean -/

section Forall₂

variable {α β γ : Type} {R S : α → β → Prop} {items : List α}

theorem forall₂_imp_of_mem {parts : List β} (h : List.Forall₂ R items parts)
    (himp : ∀ x ∈ items, ∀ y, R x y → S x y) : List.Forall₂ S items parts := by
  induction h with
  | nil => exact .nil
  | cons hxy _ ih =>
    obtain ⟨hx, hrest⟩ := List.forall_mem_cons.mp himp
    exact .cons (hx _ hxy) (ih hrest)

/-- What all parts of an item share is the same for two lists of parts. -/
theorem map_eq_of_forall₂ {f : β → γ} {parts parts' : List β} (h : List.Forall₂ R items parts)
    (h' : List.Forall₂ R items parts') (hshare : ∀ x ∈ items, ∀ y z, R x y → R x z → f y = f z) :
    parts.map f = parts'.map f := by
  induction h generalizing parts' with
  | nil =>
    cases h'
    rfl
  | cons hxy _ ih =>
    obtain ⟨hx, hrest⟩ := List.forall_mem_cons.mp hshare
    cases h' with
    | cons hxz htail => rw [List.map_cons, List.map_cons, hx _ _ hxy hxz, ih htail hrest]

theorem eq_of_map_fst_snd {l l' : List (α × β)} (hfst : l.map Prod.fst = l'.map Prod.fst)
    (hsnd : l.map Prod.snd = l'.map Prod.snd) : l = l' := by
  rw [← List.zip_unzip l, ← List.zip_unzip l', List.unzip_eq_map, List.unzip_eq_map, hfst, hsnd]

theorem map_fst_map (f : β → γ) (l : List (α × β)) :
    (l.map fun p => (p.1, f p.2)).map Prod.fst = l.map Prod.fst := by
  rw [List.map_map]
  rfl

theorem map_snd_map (f : β → γ) (l : List (α × β)) :
    (l.map fun p => (p.1, f p.2)).map Prod.snd = (l.map Prod.snd).map f := by
  rw [List.map_map, List.map_map]
  rfl

theorem exists_left_of_forall₂ {parts : List β} (h : List.Forall₂ R items parts) {y : β} (hy : y ∈ parts) :
    ∃ x ∈ items, R x y := by
  induction h with
  | nil => cases hy
  | @cons x _ _ _ hxy _ ih =>
    rcases List.mem_cons.mp hy with rfl | hy
    · exact ⟨x, List.mem_cons_self, hxy⟩
    · obtain ⟨x', hx', hrel⟩ := ih hy
      exact ⟨x', List.mem_cons_of_mem _ hx', hrel⟩

end Forall₂

variable {v w : Value} {j k : Json}

/-- What a datum means it still means with fields sorted. -/
theorem Means.sorted (hv : IsData v) (h : Means v j) : Means v j.sorted := by
  induction hv generalizing j with
  | null | bool | int | text =>
    cases h
    constructor
  | @list items _ ih =>
    cases h with
    | @list _ parts h =>
      rw [Json.sorted_list]
      refine .list (List.forall₂_map_right_iff.mpr (forall₂_imp_of_mem h fun x hx y hy => ih x hx hy))
  | @tuple items _ ih =>
    cases h with
    | @tuple _ parts h =>
      rw [Json.sorted_list]
      refine .tuple (List.forall₂_map_right_iff.mpr (forall₂_imp_of_mem h fun x hx y hy => ih x hx hy))
  | @mapping entries names distinct _ ih =>
    cases h with
    | @mapping _ fields listed names h distinct order =>
      have hparts : List.Forall₂ Means (entries.map (·.2)) ((fields.map (·.2)).map Json.sorted) := by
        refine List.forall₂_map_right_iff.mpr (forall₂_imp_of_mem h fun x hx y hy => ?_)
        obtain ⟨e, he, rfl⟩ := List.mem_map.mp hx
        exact ih e he hy
      rw [Json.sorted_object]
      refine .mapping ?_ ?_ ?_ (((Json.sortFields_perm listed).trans order).map fun p => (p.1, p.2.sorted))
      · exact names.trans (congrArg _ (map_fst_map Json.sorted fields).symm)
      · exact (map_snd_map Json.sorted fields).symm ▸ hparts
      · exact (map_fst_map Json.sorted fields).symm ▸ distinct
  | set =>
    cases h with
    | set order rises =>
      rw [Json.sorted_strings]
      exact .set order rises

/-- Two meanings of a datum differ in the order of fields at most. -/
theorem Means.unique (hv : IsData v) (hj : Means v j) (hk : Means v k) : j.sorted = k.sorted := by
  induction hv generalizing j k with
  | null | bool | int | text =>
    cases hj
    cases hk
    rfl
  | @list items _ ih =>
    cases hj with | list hj => ?_
    cases hk with | list hk => ?_
    rw [Json.sorted_list, Json.sorted_list]
    exact congrArg _ (map_eq_of_forall₂ hj hk fun x hx _ _ => ih x hx)
  | @tuple items _ ih =>
    cases hj with | tuple hj => ?_
    cases hk with | tuple hk => ?_
    rw [Json.sorted_list, Json.sorted_list]
    exact congrArg _ (map_eq_of_forall₂ hj hk fun x hx _ _ => ih x hx)
  | @mapping entries names distinct _ ih =>
    cases hj with | @mapping _ fields listed names hj distinct order => ?_
    cases hk with | @mapping _ fields' listed' names' hk distinct' order' => ?_
    have hnames : fields.map (·.1) = fields'.map (·.1) :=
      List.map_injective_iff.mpr (fun _ _ => Value.text.inj) (names.symm.trans names')
    have hparts : (fields.map (·.2)).map Json.sorted = (fields'.map (·.2)).map Json.sorted := by
      refine map_eq_of_forall₂ hj hk fun x hx _ _ => ?_
      obtain ⟨e, he, rfl⟩ := List.mem_map.mp hx
      exact ih e he
    have hfields : (fields.map fun p => (p.1, p.2.sorted)) = fields'.map fun p => (p.1, p.2.sorted) :=
      eq_of_map_fst_snd (by rw [map_fst_map, map_fst_map]; exact hnames)
        (by rw [map_snd_map, map_snd_map]; exact hparts)
    -- under the same names the same forms, each mapping's in its own order
    have hperm : (listed.map fun p => (p.1, p.2.sorted)).Perm (listed'.map fun p => (p.1, p.2.sorted)) :=
      (order.map _).trans (hfields ▸ (order'.map _).symm)
    rw [Json.sorted_object, Json.sorted_object, ← Json.sortFields_map, ← Json.sortFields_map,
      Json.sortFields_eq_of_perm hperm]
    exact (map_fst_map Json.sorted listed).symm ▸ (order.map _).nodup_iff.mpr distinct
  | set =>
    cases hj with | set order rises => ?_
    cases hk with | set order' rises' => ?_
    have htexts := List.Perm.eq_of_pairwise (fun a b _ _ => le_antisymm) rises rises'
      (order.trans order'.symm)
    rw [htexts]

/-! ### Forms of data -/

theorem plainItems_ok {items : List Value} (h : ∀ x ∈ items, ∃ j, x.plain = .ok j ∧ Means x j) :
    ∃ parts, plainItems items = .ok parts ∧ List.Forall₂ Means items parts := by
  induction items with
  | nil => exact ⟨[], rfl, .nil⟩
  | cons x rest ih =>
    obtain ⟨⟨j, hplain, hmeans⟩, hrest⟩ := List.forall_mem_cons.mp h
    obtain ⟨parts, hparts, hall⟩ := ih hrest
    refine ⟨j :: parts, ?_, .cons hmeans hall⟩
    rw [plainItems, hplain, hparts]
    rfl

theorem plainEntries_ok {entries : List (Value × Value)} (names : ∀ e ∈ entries, ∃ s, e.1 = .text s)
    (h : ∀ e ∈ entries, ∃ j, e.2.plain = .ok j ∧ Means e.2 j) :
    ∃ fields, plainEntries entries = .ok fields ∧ entries.map (·.1) = (fields.map (·.1)).map .text ∧
      List.Forall₂ Means (entries.map (·.2)) (fields.map (·.2)) := by
  induction entries with
  | nil => exact ⟨[], rfl, rfl, .nil⟩
  | cons e rest ih =>
    obtain ⟨⟨s, hs⟩, hnames⟩ := List.forall_mem_cons.mp names
    obtain ⟨⟨j, hplain, hmeans⟩, hrest⟩ := List.forall_mem_cons.mp h
    obtain ⟨fields, hfields, hkeys, hall⟩ := ih hnames hrest
    obtain ⟨key, x⟩ := e
    obtain rfl : key = .text s := hs
    refine ⟨(s, j) :: fields, ?_, congrArg (Value.text s :: ·) hkeys, .cons hmeans hall⟩
    rw [plainEntries, hplain, hfields]
    rfl

theorem plainItems_texts {items : List Value} (h : ∀ x ∈ items, (itemText? x).isSome) :
    plainItems items = .ok ((items.filterMap itemText?).map .text) := by
  induction items with
  | nil => rfl
  | cons x rest ih =>
    obtain ⟨hx, hrest⟩ := List.forall_mem_cons.mp h
    obtain ⟨s, hs⟩ := Option.isSome_iff_exists.mp hx
    have hplain : x.plain = .ok (.text s) := by
      cases x <;> simp_all [itemText?, plain]
    rw [plainItems, hplain, ih hrest, List.filterMap_cons_some hs]
    rfl

/-- The text that a form is. -/
def formText : Json → String
  | .text s => s
  | _ => ""

theorem comparesBy_formText : Sorting.ComparesBy (fun x y => less (ofJson x) (ofJson y)) formText
    fun x => ∃ s, x = .text s := by
  rintro _ _ ⟨s, rfl⟩ ⟨t, rfl⟩
  simp only [ofJson, less, text?, formText]
  exact congrArg Except.ok (decide_eq_decide.mpr Iff.rfl)

theorem sorted_texts (texts : List String) : ∃ rising : List String,
    RouteInventory.sorted (fun x y => less (ofJson x) (ofJson y)) (texts.map Json.text) =
      .ok (rising.map .text) ∧ rising.Perm texts ∧ rising.Pairwise (· ≤ ·) := by
  have hall : ∀ x ∈ texts.map Json.text, ∃ s, x = .text s := by
    intro x hx
    obtain ⟨s, -, rfl⟩ := List.mem_map.mp hx
    exact ⟨s, rfl⟩
  obtain ⟨result, hresult, hperm, hrises⟩ := sorted_ok comparesBy_formText hall
  have hform : (texts.map Json.text).map formText = texts := by
    rw [List.map_map]
    exact List.map_id texts
  have htext : (result.map formText).map Json.text = result := by
    rw [List.map_map]
    refine (List.map_congr_left fun x hx => ?_).trans (List.map_id result)
    obtain ⟨s, rfl⟩ := hall x (hperm.mem_iff.mp hx)
    rfl
  exact ⟨result.map formText, htext.symm ▸ hresult, hform ▸ hperm.map formText, List.pairwise_map.mpr hrises⟩

/-- Data have a form, which is what they mean. -/
theorem exists_plain (hv : IsData v) : ∃ j, v.plain = .ok j ∧ Means v j := by
  induction hv with
  | null => exact ⟨_, rfl, .null⟩
  | bool b => exact ⟨_, rfl, .bool b⟩
  | int n => exact ⟨_, rfl, .int n⟩
  | text s => exact ⟨_, rfl, .text s⟩
  | @list items _ ih =>
    obtain ⟨parts, hparts, hall⟩ := plainItems_ok ih
    refine ⟨.list parts, ?_, .list hall⟩
    rw [plain, hparts]
    rfl
  | @tuple items _ ih =>
    obtain ⟨parts, hparts, hall⟩ := plainItems_ok ih
    refine ⟨.list parts, ?_, .tuple hall⟩
    rw [plain, hparts]
    rfl
  | @mapping entries names distinct _ ih =>
    obtain ⟨fields, hfields, hkeys, hall⟩ := plainEntries_ok names ih
    have hnodup : (fields.map (·.1)).Nodup := List.Nodup.of_map _ (hkeys ▸ distinct)
    refine ⟨.object fields, ?_, .mapping hkeys hall hnodup (.refl _)⟩
    rw [plain, hfields, ← Json.ofFields_of_nodup hnodup]
    rfl
  | @set frozen items h =>
    obtain ⟨rising, hsorted, hperm, hrises⟩ := sorted_texts (items.filterMap itemText?)
    refine ⟨Json.strings rising, ?_, .set hperm hrises⟩
    rw [plain, plainItems_texts h]
    show (RouteInventory.sorted _ _ >>= _) = _
    rw [hsorted]
    rfl

/-! ### Numbers in data -/

theorem isTooLong_of_mem {items : List Value} (h : anyTooLong items = false) :
    ∀ x ∈ items, x.isTooLong = false := by
  induction items with
  | nil => simp
  | cons x rest ih =>
    rw [anyTooLong, Bool.or_eq_false_iff] at h
    exact List.forall_mem_cons.mpr ⟨h.1, ih h.2⟩

theorem isTooLong_of_mem_entries {entries : List (Value × Value)} (h : anyEntryTooLong entries = false) :
    ∀ e ∈ entries, e.2.isTooLong = false := by
  induction entries with
  | nil => simp
  | cons e rest ih =>
    rw [anyEntryTooLong, Bool.or_eq_false_iff, Bool.or_eq_false_iff] at h
    exact List.forall_mem_cons.mpr ⟨h.1.2, ih h.2⟩

/-- Whether no whole number in a value has more digits than a limit, which is none or that of the
program. -/
def KeepsTo (limit : Option Nat) (v : Value) : Prop :=
  limit = none ∨ limit = some Number.maxDigits ∧ v.isTooLong = false

variable {limit : Option Nat}

theorem KeepsTo.imp (h : KeepsTo limit v) (hw : v.isTooLong = false → w.isTooLong = false) :
    KeepsTo limit w := Or.imp id (And.imp id hw) h

/-- What data mean is read back from its text. -/
theorem Means.writable (hv : IsData v) (h : Means v j) (hlimit : KeepsTo limit v) :
    j.WritableWithin limit := by
  induction hv generalizing j with
  | null =>
    cases h
    exact .null
  | bool b =>
    cases h
    exact .bool b
  | int n =>
    cases h
    refine .int ?_
    rcases hlimit with rfl | ⟨rfl, hshort⟩
    · rfl
    · rw [isTooLong] at hshort
      exact Number.isBeyond_of_isTooLong hshort
  | text s =>
    cases h
    exact .text s
  | @list items _ ih =>
    cases h with | list h => ?_
    refine .list fun y hy => ?_
    obtain ⟨x, hx, hmeans⟩ := exists_left_of_forall₂ h hy
    exact ih x hx hmeans (hlimit.imp fun hshort => isTooLong_of_mem hshort x hx)
  | @tuple items _ ih =>
    cases h with | tuple h => ?_
    refine .list fun y hy => ?_
    obtain ⟨x, hx, hmeans⟩ := exists_left_of_forall₂ h hy
    exact ih x hx hmeans (hlimit.imp fun hshort => isTooLong_of_mem hshort x hx)
  | @mapping entries names _ _ ih =>
    cases h with | @mapping _ fields _ _ h distinct order => ?_
    refine .object ((order.map _).nodup_iff.mpr distinct) fun p hp => ?_
    have hp' : p.2 ∈ fields.map (·.2) := List.mem_map_of_mem (order.mem_iff.mp hp)
    obtain ⟨x, hx, hmeans⟩ := exists_left_of_forall₂ h hp'
    obtain ⟨e, he, rfl⟩ := List.mem_map.mp hx
    exact ih e he hmeans (hlimit.imp fun hshort => isTooLong_of_mem_entries hshort e he)
  | set =>
    cases h with | set _ _ => ?_
    exact Json.writable_strings _

/-! ### The stable text of data -/

/-- Data have a stable text, for every indent. It ends in a line feed and is read as what the data mean,
by the program as long as no number is too long for it; and it is the text of those data that mean the
same, and of no others. -/
theorem stableText_canonical (hv : IsData v) (indent : Option Nat) :
    ∃ text, v.stableText indent = .ok text ∧ (∃ body, text = body ++ "\n") ∧
      (∃ j, Means v j ∧ Json.readWithin none text.toList = .ok j ∧
        (v.isTooLong = false → Json.read text.toList = .ok j)) ∧
      ∀ w, IsData w → (w.stableText indent = .ok text ↔ ∃ j, Means v j ∧ Means w j) := by
  obtain ⟨j, hplain, hmeans⟩ := exists_plain hv
  have hwritable := hmeans.writable hv (.inl rfl)
  refine ⟨j.stableText indent, ?_, ⟨String.ofList (j.write indent 0), ?_⟩, ⟨j.sorted, hmeans.sorted hv, ?_, ?_⟩, ?_⟩
  · rw [stableText, hplain]
    rfl
  · rw [Json.stableText, String.ofList_append]
  · exact Json.read_stableText hwritable indent
  · intro hshort
    exact Json.read_stableText (hmeans.writable hv (.inr ⟨rfl, hshort⟩)) indent
  · intro w hw
    obtain ⟨k, hplain', hmeans'⟩ := exists_plain hw
    have htext : w.stableText indent = .ok (k.stableText indent) := by
      rw [stableText, hplain']
      rfl
    rw [htext, Except.ok.injEq, Json.stableText_eq_iff (hmeans'.writable hw (.inl rfl)) hwritable]
    constructor
    · intro hsame
      exact ⟨j.sorted, hmeans.sorted hv, hsame ▸ hmeans'.sorted hw⟩
    · rintro ⟨l, hl, hl'⟩
      exact (hmeans'.unique hw hl').trans (hl.unique hv hmeans)

/-- A mapping out of order, with a tuple, a set out of order and characters that are escaped. -/
def mixedData : Value :=
  mapping [(text "b", tuple [int (-1), set false [path (Path.ofString "z/b"), text "a"], null]),
    (text "a", text "\"\\\n\x7f😀"), (text "c", list [])]

theorem stableText_mixedData : IsData mixedData ∧ mixedData.isTooLong = false ∧
    ∃ text, mixedData.stableText (some 2) = .ok text ∧
      ∃ j, Means mixedData j ∧ Json.read text.toList = .ok j := by
  have hdata : IsData mixedData := by
    refine .mapping (by simp) (by simp) ?_
    simp only [List.forall_mem_cons, List.not_mem_nil, false_imp_iff, implies_true, and_true]
    refine ⟨.tuple ?_, .text _, .list (by simp)⟩
    simp only [List.forall_mem_cons, List.not_mem_nil, false_imp_iff, implies_true, and_true]
    exact ⟨.int _, .set (by simp [itemText?]), .null⟩
  have hshort : mixedData.isTooLong = false := by decide +kernel
  obtain ⟨text, htext, -, ⟨j, hmeans, -, hread⟩, -⟩ := stableText_canonical hdata (some 2)
  exact ⟨hdata, hshort, text, htext, j, hmeans, hread hshort⟩

end RouteInventory.Value
