import RouteInventory.Proofs.Json.RoundTrip

/-!
# Canonical texts

The stable text of a value depends on nothing but the value with its fields sorted, and it shows that
value (`stableText_eq_iff`): so it is the same for fields in any order, and for nothing else.
-/

namespace RouteInventory.Json

variable {limit : Option Nat}

/-! ### Sorted fields -/

section Sorting

variable {α : Type}

theorem pairwise_insertField (field : String × α) {fields : List (String × α)}
    (h : fields.Pairwise fun a b => a.1 ≤ b.1) :
    (insertField field fields).Pairwise fun a b => a.1 ≤ b.1 := by
  induction fields with
  | nil => exact List.pairwise_singleton ..
  | cons other rest ih =>
    obtain ⟨hother, hrest⟩ := List.pairwise_cons.mp h
    rw [insertField]
    split
    · rename_i hlt
      refine List.pairwise_cons.mpr ⟨fun b hb => ?_, h⟩
      rcases List.mem_cons.mp hb with rfl | hb
      · exact le_of_lt hlt
      · exact le_trans (le_of_lt hlt) (hother b hb)
    · rename_i hnot
      refine List.pairwise_cons.mpr ⟨fun b hb => ?_, ih hrest⟩
      rcases List.mem_cons.mp ((insertField_perm field rest).mem_iff.mp hb) with rfl | hb
      · exact not_lt.mp hnot
      · exact hother b hb

theorem pairwise_sortFields (fields : List (String × α)) :
    (sortFields fields).Pairwise fun a b => a.1 ≤ b.1 := by
  induction fields with
  | nil => exact List.Pairwise.nil
  | cons field rest ih => exact pairwise_insertField field ih

/-- The order of fields with different names makes no difference once they are sorted. -/
theorem sortFields_eq_of_perm {fields fields' : List (String × α)} (h : fields.Perm fields')
    (distinct : (fields.map (·.1)).Nodup) : sortFields fields = sortFields fields' := by
  refine List.Perm.eq_of_pairwise (fun a b ha hb hab hba => ?_) (pairwise_sortFields _)
    (pairwise_sortFields _) ((sortFields_perm fields).trans (h.trans (sortFields_perm fields').symm))
  have ha := mem_sortFields.mp ha
  have hb := h.mem_iff.mpr (mem_sortFields.mp hb)
  exact List.inj_on_of_nodup_map distinct ha hb (le_antisymm hab hba)

theorem sortFields_sortFields {fields : List (String × α)} (distinct : (fields.map (·.1)).Nodup) :
    sortFields (sortFields fields) = sortFields fields :=
  (sortFields_eq_of_perm (sortFields_perm fields).symm distinct).symm

end Sorting

/-! ### Texts of sorted values -/

theorem write_sorted {v : Json} (h : WritableWithin limit v) (indent : Option Nat) (depth : Nat) :
    write indent depth v.sorted = write indent depth v := by
  induction h generalizing depth with
  | null | bool | int | text => rfl
  | list h ih =>
    rw [sorted_list, write_list, write_list, List.map_map]
    refine congrArg _ (List.map_congr_left fun x hx => ?_)
    exact ih x hx (depth + 1)
  | @object fields distinct h ih =>
    rw [sorted_object, write_object, write_object, sortFields_map, sortFields_sortFields distinct,
      List.map_map]
    refine congrArg _ (List.map_congr_left fun p hp => ?_)
    have hvalue := ih p (mem_sortFields.mp hp) (depth + 1)
    exact congrArg (writeText p.1 ++ ':' :: ' ' :: ·) hvalue

/-- Values have the same text if and only if they are the same but for the order of fields. -/
theorem stableText_eq_iff {v w : Json} (hv : WritableWithin limit v) (hw : WritableWithin limit w)
    (indent : Option Nat) : stableText indent v = stableText indent w ↔ v.sorted = w.sorted := by
  constructor
  · intro h
    have hread := read_stableText hv indent
    rw [h, read_stableText hw indent] at hread
    exact (Except.ok.inj hread).symm
  · intro h
    rw [stableText, stableText, ← write_sorted hv, ← write_sorted hw, h]

end RouteInventory.Json
