import Mathlib
import RouteInventory.Json.Writer

/-!
# The fields of objects

Sorting rearranges fields and nothing else, and an object made of fields with different names has
those fields in their order. `Json.sorted` sorts the fields of every object in a value; `Writable`
values are those that a text can be read back to.
-/

namespace RouteInventory.Json

section Sorting

variable {α β : Type}

theorem insertField_perm (field : String × α) (fields : List (String × α)) :
    (insertField field fields).Perm (field :: fields) := by
  induction fields with
  | nil => exact .refl _
  | cons other rest ih =>
    rw [insertField]
    split
    · exact .refl _
    · exact (ih.cons other).trans (.swap field other rest)

theorem sortFields_perm (fields : List (String × α)) : (sortFields fields).Perm fields := by
  induction fields with
  | nil => exact .refl _
  | cons field rest ih => exact (insertField_perm field _).trans (ih.cons field)

theorem mem_sortFields {field : String × α} {fields : List (String × α)} :
    field ∈ sortFields fields ↔ field ∈ fields := (sortFields_perm fields).mem_iff

theorem nodup_sortFields {fields : List (String × α)} (h : (fields.map (·.1)).Nodup) :
    ((sortFields fields).map (·.1)).Nodup := (((sortFields_perm fields).map _).nodup_iff).mpr h

theorem insertField_map (f : α → β) (field : String × α) (fields : List (String × α)) :
    insertField (field.1, f field.2) (fields.map fun p => (p.1, f p.2)) =
      (insertField field fields).map fun p => (p.1, f p.2) := by
  induction fields with
  | nil => rfl
  | cons other rest ih =>
    simp only [List.map_cons, insertField]
    split
    · rfl
    · rw [ih, List.map_cons]

theorem sortFields_map (f : α → β) (fields : List (String × α)) :
    sortFields (fields.map fun p => (p.1, f p.2)) =
      (sortFields fields).map fun p => (p.1, f p.2) := by
  induction fields with
  | nil => rfl
  | cons field rest ih =>
    show insertField _ (sortFields (rest.map _)) = (insertField _ (sortFields rest)).map _
    rw [ih, insertField_map]

theorem lookup_perm {κ : Type} [BEq κ] [LawfulBEq κ] {fields fields' : List (κ × α)}
    (h : fields.Perm fields') (hdistinct : (fields.map (·.1)).Nodup) (name : κ) :
    fields.lookup name = fields'.lookup name := by
  induction h with
  | nil => rfl
  | cons field _ ih =>
    rw [List.lookup_cons, List.lookup_cons, ih (List.nodup_cons.mp hdistinct).2]
  | swap a b rest =>
    have hne : b.1 ≠ a.1 := fun heq => (List.nodup_cons.mp hdistinct).1 (by simp [heq])
    obtain ⟨a, _⟩ := a
    obtain ⟨b, _⟩ := b
    simp only [List.lookup_cons]
    by_cases ha : name = a
    · rw [ha, beq_eq_false_iff_ne.mpr hne.symm, beq_self_eq_true]
    · rw [beq_eq_false_iff_ne.mpr ha]
  | trans hab _ ihab ihbc =>
    rw [ihab hdistinct, ihbc ((hab.map _).nodup_iff.mp hdistinct)]

theorem lookup_map (f : α → β) (fields : List (String × α)) (name : String) :
    (fields.map fun p => (p.1, f p.2)).lookup name = (fields.lookup name).map f := by
  induction fields with
  | nil => rfl
  | cons field rest ih =>
    rw [List.map_cons, List.lookup_cons, List.lookup_cons, ih]
    cases name == field.1 <;> rfl

end Sorting

/-! ### Setting fields -/

theorem setField_of_new {name : String} {value : Json} {fields : List (String × Json)}
    (h : name ∉ fields.map (·.1)) : setField name value fields = fields ++ [(name, value)] := by
  induction fields with
  | nil => rfl
  | cons field rest ih =>
    simp only [List.map_cons, List.mem_cons, not_or] at h
    rw [setField, if_neg (Ne.symm h.1), ih h.2, List.cons_append]

theorem foldl_setField (known : List (String × Json)) {fields : List (String × Json)}
    (h : ((known ++ fields).map (·.1)).Nodup) :
    fields.foldl (fun known (name, value) => setField name value known) known = known ++ fields := by
  induction fields generalizing known with
  | nil => simp
  | cons field rest ih =>
    obtain ⟨name, value⟩ := field
    have hnew : name ∉ known.map (·.1) := by
      rw [List.map_append, List.nodup_append] at h
      exact fun hm => h.2.2 name hm name (List.mem_cons_self ..) rfl
    show rest.foldl _ (setField name value known) = _
    rw [setField_of_new hnew, ih _ (by simpa using h)]
    simp

theorem ofFields_of_nodup {fields : List (String × Json)} (h : (fields.map (·.1)).Nodup) :
    ofFields fields = object fields := congrArg object (foldl_setField [] h)

/-! ### Sorting at every depth -/

mutual

/-- The value with the fields of every object in increasing order of their names. -/
def sorted : Json → Json
  | list items => list (sortedItems items)
  | object fields => object (sortFields (sortedFields fields))
  | x => x

def sortedItems : List Json → List Json
  | [] => []
  | item :: rest => sorted item :: sortedItems rest

def sortedFields : List (String × Json) → List (String × Json)
  | [] => []
  | (name, value) :: rest => (name, sorted value) :: sortedFields rest

end

theorem sortedItems_eq_map (items : List Json) : sortedItems items = items.map sorted := by
  induction items with
  | nil => rfl
  | cons item rest ih => rw [sortedItems, ih, List.map_cons]

theorem sortedFields_eq_map (fields : List (String × Json)) :
    sortedFields fields = fields.map fun p => (p.1, sorted p.2) := by
  induction fields with
  | nil => rfl
  | cons field rest ih => rw [sortedFields, ih, List.map_cons]

theorem sorted_list (items : List Json) : (list items).sorted = list (items.map sorted) := by
  rw [sorted, sortedItems_eq_map]

theorem sorted_object (fields : List (String × Json)) :
    (object fields).sorted = object ((sortFields fields).map fun p => (p.1, sorted p.2)) := by
  rw [sorted, sortedFields_eq_map, sortFields_map]

theorem sorted_strings (items : List String) : (strings items).sorted = strings items := by
  rw [strings, sorted_list, List.map_map]
  rfl

theorem writeItems_eq_map (indent : Option Nat) (depth : Nat) (items : List Json) :
    writeItems indent depth items = items.map (write indent depth) := by
  induction items with
  | nil => rfl
  | cons item rest ih => rw [writeItems, ih, List.map_cons]

theorem writeFields_eq_map (indent : Option Nat) (depth : Nat) (fields : List (String × Json)) :
    writeFields indent depth fields = fields.map fun p => (p.1, write indent depth p.2) := by
  induction fields with
  | nil => rfl
  | cons field rest ih => rw [writeFields, ih, List.map_cons]

/-- The text of a field. -/
def writeField (indent : Option Nat) (depth : Nat) (field : String × Json) : List Char :=
  writeText field.1 ++ ':' :: ' ' :: write indent depth field.2

theorem write_list (indent : Option Nat) (depth : Nat) (items : List Json) :
    write indent depth (list items) =
      enclose indent depth '[' ']' (items.map (write indent (depth + 1))) := by
  rw [write, writeItems_eq_map]

theorem write_object (indent : Option Nat) (depth : Nat) (fields : List (String × Json)) :
    write indent depth (object fields) =
      enclose indent depth '\x7b' '\x7d' ((sortFields fields).map (writeField indent (depth + 1))) := by
  rw [write, writeFields_eq_map, sortFields_map, List.map_map]
  rfl

/-- A value without floating-point numbers whose objects have no name twice and whose whole numbers
have no more digits than are read with a limit. -/
inductive WritableWithin (limit : Option Nat) : Json → Prop
  | null : WritableWithin limit null
  | bool (b : Bool) : WritableWithin limit (bool b)
  | int {n : Int} (h : Number.isBeyond limit (Number.decimal n.natAbs).length = false) :
      WritableWithin limit (int n)
  | text (s : String) : WritableWithin limit (text s)
  | list {items : List Json} (h : ∀ x ∈ items, WritableWithin limit x) : WritableWithin limit (list items)
  | object {fields : List (String × Json)} (distinct : (fields.map (·.1)).Nodup)
      (h : ∀ p ∈ fields, WritableWithin limit p.2) : WritableWithin limit (object fields)

/-- A value whose text can be read. -/
abbrev Writable (v : Json) : Prop := WritableWithin (some Number.maxDigits) v

variable {limit : Option Nat}

theorem field?_sorted {v : Json} (h : WritableWithin limit v) (name : String) :
    v.sorted.field? name = (v.field? name).map sorted := by
  cases h with
  | @object fields distinct _ =>
    rw [sorted_object]
    show List.lookup _ _ = (List.lookup _ _).map _
    rw [lookup_map, lookup_perm (sortFields_perm fields) (nodup_sortFields distinct)]
  | list => rw [sorted_list]; rfl
  | _ => rfl

theorem writable_strings (items : List String) : WritableWithin limit (strings items) := by
  refine .list fun x hx => ?_
  obtain ⟨s, _, rfl⟩ := List.mem_map.mp hx
  exact .text s

end RouteInventory.Json
