import RouteInventory.Proofs.Path.Names

/-!
# Cancelling double dots

A double dot cancels the name before it, and at the root it cancels alone (`Cancels`). `normalize` cancels
until nothing is left to cancel, and whatever the order is in which that is done, the path is the same
(`cancelsTo_iff`).
-/

namespace RouteInventory.Path

open Relation

/-- One double dot is taken away from the names of a path. -/
inductive Cancels (absolute : Bool) : List String → List String → Prop
  | name {front rest : List String} {name : String} (h : name ≠ "..") :
      Cancels absolute (front ++ name :: ".." :: rest) (front ++ rest)
  | root {rest : List String} (h : absolute = true) : Cancels absolute (".." :: rest) rest

/-- Whether a path is another one with its double dots cancelled until none can be. -/
structure CancelsTo (p q : Path) : Prop where
  anchor : q.anchor = p.anchor
  names : ReflTransGen (Cancels p.isAbsolute) p.names q.names
  done : ∀ names, ¬ Cancels p.isAbsolute q.names names

variable {p q : Path} {absolute : Bool}

/-- A name put on the stack stands for one step at most. -/
theorem reflTransGen_pushName (stack rest : List String) (name : String) :
    ReflTransGen (Cancels absolute) (stack.reverse ++ name :: rest)
      ((pushName absolute stack name).reverse ++ rest) := by
  by_cases hname : name = ".."
  · subst hname
    cases stack with
    | nil =>
      cases absolute with
      | true => exact .single (.root rfl)
      | false => exact .refl
    | cons top below =>
      by_cases htop : top = ".."
      · subst htop
        rw [show pushName absolute (".." :: below) ".." = ".." :: ".." :: below from rfl]
        simp only [List.reverse_cons, List.append_assoc, List.singleton_append]
        exact .refl
      · rw [pushName_of_top htop, List.reverse_cons, List.append_assoc]
        exact .single (.name htop)
  · rw [pushName_of_ne hname, List.reverse_cons, List.append_assoc]
    exact .refl

theorem reflTransGen_foldl_pushName (names stack : List String) :
    ReflTransGen (Cancels absolute) (stack.reverse ++ names)
      (names.foldl (pushName absolute) stack).reverse := by
  induction names generalizing stack with
  | nil => rw [List.append_nil]; exact .refl
  | cons name rest ih => exact (reflTransGen_pushName stack rest name).trans (ih _)

namespace Cancels

variable {names names' : List String}

/-- What cancels makes no difference to what is left in the end. -/
theorem foldl_pushName_eq (h : Cancels absolute names names') :
    names.foldl (pushName absolute) [] = names'.foldl (pushName absolute) [] := by
  cases h with
  | name hname =>
    rw [List.foldl_append, List.foldl_append, List.foldl_cons, List.foldl_cons, pushName_of_ne hname,
      pushName_of_top hname]
  | root habs =>
    rw [habs]
    rfl

theorem length_lt (h : Cancels absolute names names') : names'.length < names.length := by
  cases h with
  | name =>
    simp only [List.length_append, List.length_cons]
    omega
  | root => exact Nat.lt_succ_self _

end Cancels

theorem foldl_pushName_eq_of_reflTransGen {names names' : List String}
    (h : ReflTransGen (Cancels absolute) names names') :
    names.foldl (pushName absolute) [] = names'.foldl (pushName absolute) [] := by
  induction h with
  | refl => rfl
  | tail _ hstep ih => exact ih.trans hstep.foldl_pushName_eq

theorem length_pushName_le (absolute : Bool) (stack : List String) (name : String) :
    (pushName absolute stack name).length ≤ stack.length + 1 := by
  unfold pushName
  split
  · exact le_rfl
  · cases stack with
    | nil =>
      dsimp only
      split <;> simp
    | cons top below =>
      dsimp only
      split
      · exact le_rfl
      · simp only [List.length_cons]
        omega

theorem length_foldl_pushName_le (absolute : Bool) (names stack : List String) :
    (names.foldl (pushName absolute) stack).length ≤ stack.length + names.length := by
  induction names generalizing stack with
  | nil => exact le_rfl
  | cons name rest ih =>
    have hstep := length_pushName_le absolute stack name
    have hrest := ih (pushName absolute stack name)
    rw [List.foldl_cons, List.length_cons]
    omega

theorem not_cancels_of_normalize_eq (h : p.normalize = p) (names : List String) :
    ¬ Cancels p.isAbsolute p.names names := by
  intro hcancels
  have hnames : p.names = (p.names.foldl (pushName p.isAbsolute) []).reverse :=
    congrArg Path.names h.symm
  have hlength := length_foldl_pushName_le p.isAbsolute names []
  rw [hcancels.foldl_pushName_eq] at hnames
  have hlt := hcancels.length_lt
  rw [hnames, List.length_reverse] at hlt
  simp only [List.length_nil] at hlength
  omega

theorem cancelsTo_normalize (p : Path) : CancelsTo p p.normalize :=
  ⟨rfl, reflTransGen_foldl_pushName p.names [],
    not_cancels_of_normalize_eq (normalize_of_isNormal (isNormal_normalize p))⟩

/-- Cancelling comes to the normal path whatever is cancelled first. -/
theorem cancelsTo_iff : CancelsTo p q ↔ q = p.normalize := by
  refine ⟨fun h => ?_, fun h => h ▸ cancelsTo_normalize p⟩
  have hself : q.names = (q.names.foldl (pushName p.isAbsolute) []).reverse := by
    rcases (reflTransGen_foldl_pushName q.names []).cases_head with heq | ⟨_, hstep, -⟩
    · exact heq
    · exact absurd hstep (h.done _)
  rw [← foldl_pushName_eq_of_reflTransGen h.names] at hself
  obtain ⟨anchor, names⟩ := q
  exact congr (congrArg Path.mk h.anchor) hself

end RouteInventory.Path
