import Mathlib
import RouteInventory.Value.Slots

/-!
# What sets list

A set lists only items that were put into it, and it lists one if any was put into it (`listed_ne_nil`): an item
is put into a slot of the table, which grows with all its items.
-/

namespace RouteInventory

namespace SlotTable

variable {α : Type} {t : SlotTable α} {item x : Nat × α} {items : List (Nat × α)}

theorem freeSlot_lt {fuel slot key : Nat} (h : slot < t.size) : t.freeSlot fuel slot key < t.size := by
  induction fuel generalizing slot key with
  | zero => exact h
  | succ fuel ih =>
    rw [freeSlot]
    split
    · next free hfree =>
      have hmem := List.mem_of_find?_eq_some hfree
      rw [List.mem_range'_1] at hmem
      split at hmem <;> omega
    · exact ih (Nat.mod_lt _ (by omega))

/-! ### Many items -/

variable {step : SlotTable α → Nat × α → SlotTable α}

theorem mem_of_mem_items_foldl (hstep : ∀ {t item x}, x ∈ (step t item).items → x = item ∨ x ∈ t.items)
    (h : x ∈ (items.foldl step t).items) : x ∈ items ∨ x ∈ t.items := by
  induction items generalizing t with
  | nil => exact .inr h
  | cons item items ih =>
    rcases ih h with hx | hx
    · exact .inl (List.mem_cons_of_mem _ hx)
    · rcases hstep hx with rfl | hx
      · exact .inl List.mem_cons_self
      · exact .inr hx

theorem items_foldl_ne_nil (hsize : ∀ {t item}, 0 < t.size → 0 < (step t item).size)
    (hstep : ∀ {t item}, 0 < t.size → (step t item).items ≠ []) (ht : 0 < t.size) (h : items ≠ []) :
    (items.foldl step t).items ≠ [] := by
  induction items generalizing t with
  | nil => exact absurd rfl h
  | cons item items ih =>
    cases items with
    | nil => exact hstep ht
    | cons => exact ih (hsize ht) (List.cons_ne_nil _ _)

/-! ### One item -/

theorem items_put_ne_nil (h : 0 < t.size) : (t.put item).items ≠ [] := by
  have hslot : t.freeSlot (t.size + 14) (item.1 % t.size) item.1 < t.slots.length :=
    freeSlot_lt (Nat.mod_lt _ h)
  exact List.ne_nil_of_mem (List.mem_filterMap.mpr ⟨some item, List.mem_set hslot _, rfl⟩)

theorem mem_of_mem_items_put (h : x ∈ (t.put item).items) : x = item ∨ x ∈ t.items := by
  obtain ⟨slot, hslot, hx⟩ := List.mem_filterMap.mp h
  rcases List.mem_or_eq_of_mem_set hslot with hold | rfl
  · exact .inr (List.mem_filterMap.mpr ⟨slot, hold, hx⟩)
  · exact .inl (Option.some.inj hx).symm

theorem size_foldl_put : (items.foldl put t).size = t.size := by
  induction items generalizing t with
  | nil => rfl
  | cons item items ih => rw [List.foldl_cons, ih, size_put]

theorem sizeAbove_pos (n : Nat) : 0 < sizeAbove n := by
  rw [sizeAbove]
  split
  · omega
  · exact Nat.pow_pos (by omega)

theorem size_empty (size : Nat) : (empty size : SlotTable α).size = size := List.length_replicate

theorem size_resize (n : Nat) : (t.resize n).size = sizeAbove n := by
  rw [resize, size_foldl_put, size_empty]

theorem mem_of_mem_items_resize {n : Nat} (h : x ∈ (t.resize n).items) : x ∈ t.items := by
  rcases mem_of_mem_items_foldl mem_of_mem_items_put h with hx | hx
  · exact hx
  · rw [items_empty] at hx
    cases hx

theorem items_resize_ne_nil {n : Nat} (h : t.items ≠ []) : (t.resize n).items ≠ [] := by
  refine items_foldl_ne_nil (fun ht => ?_) items_put_ne_nil ?_ h
  · rwa [size_put]
  · rw [size_empty]
    exact sizeAbove_pos n

theorem mem_of_mem_items_add (h : x ∈ (t.add item).items) : x = item ∨ x ∈ t.items := by
  unfold add at h
  dsimp only at h
  split at h
  · exact mem_of_mem_items_put h
  · exact mem_of_mem_items_put (mem_of_mem_items_resize h)

theorem items_add_ne_nil (h : 0 < t.size) : (t.add item).items ≠ [] := by
  have hput : (t.put item).items ≠ [] := items_put_ne_nil h
  unfold add
  dsimp only
  split
  · exact hput
  · exact items_resize_ne_nil hput

theorem size_add_pos (h : 0 < t.size) : 0 < (t.add item).size := by
  unfold add
  dsimp only
  split
  · rwa [size_put]
  · rw [size_resize]
    exact sizeAbove_pos _

theorem size_madeFor_pos (expected : Nat) : 0 < (madeFor expected : SlotTable α).size := by
  rw [madeFor, size_empty]
  split
  · omega
  · exact sizeAbove_pos _

end SlotTable

namespace Value

/-! ### The items of a set -/

theorem mapM_isSome_iff {α β : Type} {f : α → Option β} {xs : List α} :
    (xs.mapM f).isSome = true ↔ ∀ x ∈ xs, (f x).isSome = true := by
  induction xs with
  | nil => simp
  | cons x xs ih =>
    rw [List.forall_mem_cons, ← ih, List.mapM_cons]
    cases f x with
    | none => simp
    | some y => cases xs.mapM f <;> simp

variable {expected : Nat} {items : List Value} {x : Value}

theorem map_snd_of_mapM {keyed : List (Nat × Value)}
    (h : items.mapM (fun x => x.slotKey?.map (·.toNat, x)) = some keyed) : keyed.map (·.2) = items := by
  induction items generalizing keyed with
  | nil =>
    cases h
    rfl
  | cons x items ih =>
    rw [List.mapM_cons] at h
    obtain ⟨head, hhead, h⟩ := Option.bind_eq_some_iff.mp h
    obtain ⟨tail, htail, h⟩ := Option.bind_eq_some_iff.mp h
    obtain ⟨key, -, rfl⟩ := Option.map_eq_some_iff.mp hhead
    cases h
    rw [List.map_cons, ih htail]

theorem mem_of_mem_listed (h : x ∈ listed expected items) : x ∈ items := by
  unfold listed at h
  split at h
  · next keyed hkeyed =>
    obtain ⟨y, hy, rfl⟩ := List.mem_map.mp h
    have hmem : y ∈ keyed := by
      refine (SlotTable.mem_of_mem_items_foldl SlotTable.mem_of_mem_items_add hy).resolve_right fun hmade => ?_
      rw [SlotTable.madeFor, SlotTable.items_empty] at hmade
      cases hmade
    rw [← map_snd_of_mapM hkeyed]
    exact List.mem_map_of_mem hmem
  · exact h

theorem listed_ne_nil (h : items ≠ []) : listed expected items ≠ [] := by
  unfold listed
  split
  · next keyed hkeyed =>
    have hne : keyed ≠ [] := by
      rintro rfl
      exact h (map_snd_of_mapM hkeyed).symm
    have htable : (keyed.foldl SlotTable.add (SlotTable.madeFor expected)).items ≠ [] :=
      SlotTable.items_foldl_ne_nil SlotTable.size_add_pos SlotTable.items_add_ne_nil
        (SlotTable.size_madeFor_pos expected) hne
    simpa using htable
  · exact h

/-- A set with an item whose slot follows from nothing lists its items as they came. -/
theorem listed_of_slotKey?_eq_none (hx : x ∈ items) (hkey : x.slotKey? = none) :
    listed expected items = items := by
  unfold listed
  split
  · next keyed hkeyed =>
    have hsome := mapM_isSome_iff.mp (Option.isSome_of_eq_some hkeyed) x hx
    rw [hkey] at hsome
    cases hsome
  · rfl

end Value

end RouteInventory
