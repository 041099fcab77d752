import RouteInventory.FileSystem.Basic

/-!
# Unvisited locations

The number of locations of a finite list that a walk has not visited yet. It drops whenever the walk
visits a new one of them, so it bounds how deep a walk can nest that never visits one twice.
-/

namespace RouteInventory

def unvisited (all seen : List Location) : Nat := (all.filter fun l => !seen.contains l).length

theorem unvisited_cons_le (all seen : List Location) (l : Location) :
    unvisited all (l :: seen) ≤ unvisited all seen := by
  induction all with
  | nil => simp [unvisited]
  | cons a all ih =>
    simp only [unvisited, List.filter_cons, List.contains_cons, Bool.not_or] at *
    cases hs : seen.contains a <;> cases ha : a == l <;> simp_all
    omega

theorem unvisited_cons_lt {all seen : List Location} {l : Location} (hl : l ∈ all) (hs : l ∉ seen) :
    unvisited all (l :: seen) < unvisited all seen := by
  induction all with
  | nil => simp at hl
  | cons a all ih =>
    have hle := unvisited_cons_le all seen l
    by_cases ha : a = l
    · subst ha
      have hs : seen.contains a = false := by simpa using hs
      simp only [unvisited, List.filter_cons, List.contains_cons, Bool.not_or, hs, beq_self_eq_true,
        Bool.not_true, Bool.false_and, Bool.not_false, Bool.false_eq_true, if_false, if_true,
        List.length_cons] at *
      omega
    · have := ih ((List.mem_cons.mp hl).resolve_left (Ne.symm ha))
      simp only [unvisited, List.filter_cons, List.contains_cons, Bool.not_or] at *
      cases hc : seen.contains a <;> simp_all

end RouteInventory
