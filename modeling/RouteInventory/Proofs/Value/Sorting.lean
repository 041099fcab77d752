import Mathlib
import RouteInventory.Value.Order

/-!
# Sorting by a linear order

Where items are compared by a key, `sorted` rearranges a list and puts it in rising order: the run at the
beginning is one already, and each other item goes behind those that are not greater and in front of
those that are not less.
-/

namespace RouteInventory

namespace Sorting

variable {α ε κ : Type} [LinearOrder κ] {less : α → α → Except ε Bool} {key : α → κ} {P : α → Prop}

/-- Whether items of a kind are compared by a key. -/
def ComparesBy (less : α → α → Except ε Bool) (key : α → κ) (P : α → Prop) : Prop :=
  ∀ x y, P x → P y → less x y = .ok (decide (key x < key y))

/-- Whether a list is in rising order of a key. -/
def Rises (key : α → κ) (items : List α) : Prop := items.Pairwise fun x y => key x ≤ key y

/-- Whether one item may follow another in a run. -/
def Follows (key : α → κ) (falling : Bool) (x y : α) : Prop :=
  if falling then key y < key x else key x ≤ key y

theorem Follows.trans {falling : Bool} {x y z : α} (hxy : Follows key falling x y)
    (hyz : Follows key falling y z) : Follows key falling x z := by
  cases falling with
  | true => exact lt_trans hyz hxy
  | false => exact le_trans hxy hyz

theorem follows_iff {falling : Bool} {x y : α} :
    Follows key falling x y ↔ decide (key y < key x) = falling := by
  cases falling <;> simp [Follows]

theorem continueRun_ok (h : ComparesBy less key P) (falling : Bool) {last : α} (hlast : P last)
    {items : List α} (hitems : ∀ x ∈ items, P x) :
    ∃ run others, continueRun less falling last items = .ok (run, others) ∧ items = run ++ others ∧
      (last :: run).Pairwise (Follows key falling) := by
  induction items generalizing last with
  | nil => exact ⟨[], [], rfl, rfl, List.pairwise_singleton ..⟩
  | cons x rest ih =>
    obtain ⟨hx, hrest⟩ := List.forall_mem_cons.mp hitems
    by_cases hfollows : Follows key falling last x
    · obtain ⟨run, others, hrun, hsplit, hpairs⟩ := ih hx hrest
      refine ⟨x :: run, others, ?_, congrArg (x :: ·) hsplit, ?_⟩
      · rw [continueRun, h x last hx hlast]
        show (if decide (key x < key last) = falling then _ else _) = _
        rw [if_pos (follows_iff.mp hfollows), hrun]
        rfl
      · refine List.pairwise_cons.mpr ⟨fun y hy => ?_, hpairs⟩
        rcases List.mem_cons.mp hy with rfl | hy
        · exact hfollows
        · exact hfollows.trans ((List.pairwise_cons.mp hpairs).1 y hy)
    · refine ⟨[], x :: rest, ?_, rfl, List.pairwise_singleton ..⟩
      rw [continueRun, h x last hx hlast]
      exact if_neg (mt follows_iff.mpr hfollows)

theorem firstRun_ok (h : ComparesBy less key P) {items : List α} (hitems : ∀ x ∈ items, P x) :
    ∃ run others, firstRun less items = .ok (run, others) ∧ (run ++ others).Perm items ∧
      Rises key run := by
  match items with
  | [] => exact ⟨[], [], rfl, .refl _, List.Pairwise.nil⟩
  | [x] => exact ⟨[x], [], rfl, .refl _, List.pairwise_singleton ..⟩
  | x :: y :: rest =>
    obtain ⟨hx, hyrest⟩ := List.forall_mem_cons.mp hitems
    obtain ⟨hy, hrest⟩ := List.forall_mem_cons.mp hyrest
    obtain ⟨run, others, hrun, rfl, hpairs⟩ := continueRun_ok h (decide (key y < key x)) hy hrest
    have hfollows : Follows key (decide (key y < key x)) x y := follows_iff.mpr rfl
    have hall : (x :: y :: run).Pairwise (Follows key (decide (key y < key x))) := by
      refine List.pairwise_cons.mpr ⟨fun z hz => ?_, hpairs⟩
      rcases List.mem_cons.mp hz with rfl | hz
      · exact hfollows
      · exact hfollows.trans ((List.pairwise_cons.mp hpairs).1 z hz)
    refine ⟨if decide (key y < key x) then (x :: y :: run).reverse else x :: y :: run, others, ?_, ?_, ?_⟩
    · rw [firstRun, h y x hy hx]
      show (continueRun less (decide (key y < key x)) y _ >>= _) = _
      rw [hrun]
      rfl
    · split
      · exact (List.reverse_perm _).append_right others
      · exact .refl _
    · split
      · rename_i hfalling
        rw [hfalling] at hall
        exact List.pairwise_reverse.mpr (hall.imp fun hab => le_of_lt hab)
      · rename_i hrising
        rw [Bool.eq_false_iff.mpr hrising] at hall
        exact hall.imp fun hab => hab

/-- Whether a place in a list is behind no greater and in front of no less item. -/
structure Splits (key : α → κ) (x : α) (items : List α) (place : Nat) : Prop where
  before : ∀ y ∈ items.take place, key y ≤ key x
  behind : ∀ y ∈ items.drop place, key x ≤ key y

theorem Rises.split {items : List α} (h : Rises key items) {i : Nat} (hi : i < items.length) :
    (∀ y ∈ items.take (i + 1), key y ≤ key items[i]) ∧ ∀ y ∈ items.drop i, key items[i] ≤ key y := by
  rw [Rises, ← List.take_append_drop i items, List.pairwise_append, List.drop_eq_getElem_cons hi,
    List.pairwise_cons] at h
  obtain ⟨-, ⟨hbehind, -⟩, hbefore⟩ := h
  rw [List.take_succ_eq_append_getElem hi, List.drop_eq_getElem_cons hi]
  constructor
  · intro y hy
    rcases List.mem_append.mp hy with hy | hy
    · exact hbefore y hy _ List.mem_cons_self
    · rw [List.mem_singleton.mp hy]
  · intro y hy
    rcases List.mem_cons.mp hy with rfl | hy
    · exact le_rfl
    · exact hbehind y hy

theorem bisect_ok (h : ComparesBy less key P) {x : α} (hx : P x) {items : Array α}
    (hitems : ∀ y ∈ items, P y) (hrises : Rises key items.toList) {low high : Nat} (hle : low ≤ high)
    (hhigh : high ≤ items.size) (hbefore : ∀ y ∈ items.toList.take low, key y ≤ key x)
    (hbehind : ∀ y ∈ items.toList.drop high, key x ≤ key y) :
    ∃ place, bisect less x items low high = .ok place ∧ place ≤ items.size ∧
      Splits key x items.toList place := by
  -- no greater item stands in front of the lower position and no less one behind the upper
  fun_induction bisect less x items low high with
  | case1 low high hlt middle hnone =>
    have hsize := Array.getElem?_eq_none_iff.mp hnone
    omega
  | case2 low high hlt middle y hget fault hfault =>
    rw [h x y hx (hitems y (Array.mem_of_getElem? hget))] at hfault
    cases hfault
  | case3 low high hlt middle y hget htrue ih =>
    rw [h x y hx (hitems y (Array.mem_of_getElem? hget))] at htrue
    obtain ⟨hsize, rfl⟩ := Array.getElem?_eq_some_iff.mp hget
    refine ih (by omega) (by omega) hbefore fun z hz => ?_
    have hless : key x < key items[middle] := of_decide_eq_true (Except.ok.inj htrue)
    exact le_trans hless.le ((hrises.split hsize).2 z hz)
  | case4 low high hlt middle y hget hfalse ih =>
    rw [h x y hx (hitems y (Array.mem_of_getElem? hget))] at hfalse
    obtain ⟨hsize, rfl⟩ := Array.getElem?_eq_some_iff.mp hget
    refine ih (by omega) hhigh (fun z hz => ?_) hbehind
    have hnot : ¬ key x < key items[middle] := of_decide_eq_false (Except.ok.inj hfalse)
    exact le_trans ((hrises.split hsize).1 z hz) (not_lt.mp hnot)
  | case5 low high hlt =>
    obtain rfl : low = high := by omega
    exact ⟨low, rfl, hhigh, hbefore, hbehind⟩

theorem insertIdx_eq_append {items : List α} {place : Nat} (h : place ≤ items.length) (x : α) :
    items.insertIdx place x = items.take place ++ x :: items.drop place := by
  induction items generalizing place with
  | nil =>
    obtain rfl := Nat.le_zero.mp h
    rfl
  | cons y rest ih =>
    cases place with
    | zero => rfl
    | succ place => simp [List.insertIdx_succ_cons, ih (Nat.le_of_succ_le_succ h)]

theorem Rises.insertIdx {items : List α} (h : Rises key items) {x : α} {place : Nat}
    (hplace : place ≤ items.length) (hsplits : Splits key x items place) :
    Rises key (items.insertIdx place x) := by
  have hparts := h
  rw [Rises, ← List.take_append_drop place items, List.pairwise_append] at hparts
  obtain ⟨hbefore, hbehind, hacross⟩ := hparts
  rw [insertIdx_eq_append hplace]
  refine List.pairwise_append.mpr ⟨hbefore, List.pairwise_cons.mpr ⟨hsplits.behind, hbehind⟩, ?_⟩
  intro y hy z hz
  rcases List.mem_cons.mp hz with rfl | hz
  · exact hsplits.before y hy
  · exact hacross y hy z hz

theorem insert_ok (h : ComparesBy less key P) {x : α} (hx : P x) {items : Array α}
    (hitems : ∀ y ∈ items, P y) (hrises : Rises key items.toList) :
    ∃ after, insert less items x = .ok after ∧ after.toList.Perm (x :: items.toList) ∧
      Rises key after.toList := by
  have hbefore : ∀ y ∈ items.toList.take 0, key y ≤ key x := by simp
  have hbehind : ∀ y ∈ items.toList.drop items.size, key x ≤ key y := by
    rw [← Array.length_toList, List.drop_length]
    exact List.forall_mem_nil _
  obtain ⟨place, hplace, hle, hsplits⟩ := bisect_ok h hx hitems hrises (Nat.zero_le items.size) le_rfl
    hbefore hbehind
  refine ⟨items.insertIdx place x hle, ?_, ?_, ?_⟩
  · rw [insert, hplace]
    exact congrArg Except.ok (dif_pos hle)
  · rw [Array.toList_insertIdx]
    exact List.perm_insertIdx x items.toList hle
  · rw [Array.toList_insertIdx]
    exact hrises.insertIdx hle hsplits

theorem foldlM_insert_ok (h : ComparesBy less key P) {items : Array α} (hitems : ∀ y ∈ items, P y)
    (hrises : Rises key items.toList) {others : List α} (hothers : ∀ y ∈ others, P y) :
    ∃ after, others.foldlM (insert less) items = .ok after ∧
      after.toList.Perm (items.toList ++ others) ∧ Rises key after.toList := by
  induction others generalizing items with
  | nil => exact ⟨items, rfl, by simp, hrises⟩
  | cons x rest ih =>
    obtain ⟨hx, hrest⟩ := List.forall_mem_cons.mp hothers
    obtain ⟨next, hnext, hperm, hrises'⟩ := insert_ok h hx hitems hrises
    have hall : ∀ y ∈ next, P y := by
      intro y hy
      rcases List.mem_cons.mp (hperm.mem_iff.mp (Array.mem_toList_iff.mpr hy)) with rfl | hy
      · exact hx
      · exact hitems y (Array.mem_toList_iff.mp hy)
    obtain ⟨after, hafter, hperm', hdone⟩ := ih hall hrises' hrest
    refine ⟨after, ?_, ?_, hdone⟩
    · rw [List.foldlM_cons, hnext]
      exact hafter
    · exact hperm'.trans ((hperm.append_right rest).trans List.perm_middle.symm)

end Sorting

open Sorting in
/-- Items that are compared by a key have a sorted form: the items in rising order. -/
theorem sorted_ok {α ε κ : Type} [LinearOrder κ] {less : α → α → Except ε Bool} {key : α → κ} {P : α → Prop}
    (h : ComparesBy less key P) {items : List α} (hitems : ∀ x ∈ items, P x) :
    ∃ result, sorted less items = .ok result ∧ result.Perm items ∧ Rises key result := by
  obtain ⟨run, others, hrun, hperm, hrises⟩ := firstRun_ok h hitems
  have hall : ∀ x ∈ run ++ others, P x := fun x hx => hitems x (hperm.mem_iff.mp hx)
  obtain ⟨hin, hout⟩ := List.forall_mem_append.mp hall
  have hin' : ∀ x ∈ run.toArray, P x := fun x hx => hin x (List.mem_toArray.mp hx)
  obtain ⟨after, hafter, hperm', hrises'⟩ := foldlM_insert_ok h hin' hrises hout
  refine ⟨after.toList, ?_, hperm'.trans hperm, hrises'⟩
  rw [sorted, hrun]
  show (others.foldlM (insert less) run.toArray >>= _) = _
  rw [hafter]
  rfl

end RouteInventory
