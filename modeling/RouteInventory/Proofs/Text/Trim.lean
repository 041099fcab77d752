import Mathlib
import RouteInventory.Text.Blank

/-!
# Trimmed texts

What `trim` leaves of a text neither begins nor ends with junk (`IsTrimmed`), and it left out nothing else
at either end.
-/

namespace RouteInventory.Text

/-- Whether a text neither begins nor ends with a character of a class. -/
def IsTrimmed (junk : Char → Bool) (text : List Char) : Prop :=
  (∀ c ∈ text.head?, junk c = false) ∧ ∀ c ∈ text.getLast?, junk c = false

instance (junk : Char → Bool) (text : List Char) : Decidable (IsTrimmed junk text) :=
  @instDecidableAnd _ _ (Option.decidableForallMem _) (Option.decidableForallMem _)

variable {junk : Char → Bool} {text : List Char}

theorem ne_of_isBlank {c d : Char} (hc : isBlank c = true) (hd : isBlank d = false) : c ≠ d := by
  rintro rfl
  rw [hc] at hd
  cases hd

theorem trimStart_of_head? (h : ∀ c ∈ text.head?, junk c = false) : trimStart junk text = text := by
  cases text with
  | nil => rfl
  | cons c rest => exact List.dropWhile_cons_of_neg (by simp [h c rfl])

theorem head?_trimStart (junk : Char → Bool) (text : List Char) :
    ∀ c ∈ (trimStart junk text).head?, junk c = false := by
  intro c hc
  have hnot := List.head?_dropWhile_not junk text
  rw [show (text.dropWhile junk).head? = some c from hc] at hnot
  exact hnot

theorem exists_trimStart (junk : Char → Bool) (text : List Char) :
    ∃ left, (∀ c ∈ left, junk c = true) ∧ text = left ++ trimStart junk text :=
  ⟨text.takeWhile junk, fun _ hc => List.all_eq_true.mp List.all_takeWhile _ hc,
    List.takeWhile_append_dropWhile.symm⟩

theorem reverse_trimEnd (junk : Char → Bool) (text : List Char) :
    (trimEnd junk text).reverse = trimStart junk text.reverse := List.reverse_reverse _

theorem exists_trimEnd (junk : Char → Bool) (text : List Char) :
    ∃ right, (∀ c ∈ right, junk c = true) ∧ text = trimEnd junk text ++ right := by
  obtain ⟨right, hright, htext⟩ := exists_trimStart junk text.reverse
  refine ⟨right.reverse, by simpa using hright, ?_⟩
  rw [← List.reverse_inj, List.reverse_append, List.reverse_reverse, reverse_trimEnd]
  exact htext

theorem trimStart_append {left : List Char} (hleft : ∀ c ∈ left, junk c = true) (text : List Char) :
    trimStart junk (left ++ text) = trimStart junk text :=
  List.dropWhile_append_of_pos hleft

theorem trimEnd_append {right : List Char} (hright : ∀ c ∈ right, junk c = true) (text : List Char) :
    trimEnd junk (text ++ right) = trimEnd junk text := by
  rw [← List.reverse_inj, reverse_trimEnd, reverse_trimEnd, List.reverse_append,
    trimStart_append (by simpa using hright)]

/-- Junk around a trimmed text is all that is trimmed. -/
theorem trim_append {left right : List Char} (hleft : ∀ c ∈ left, junk c = true)
    (hright : ∀ c ∈ right, junk c = true) (h : IsTrimmed junk text) :
    trim junk (left ++ text ++ right) = text := by
  have hstart : trimStart junk (text ++ right) = text ++ right ∨ text = [] := by
    cases text with
    | nil => exact .inr rfl
    | cons c rest => exact .inl (trimStart_of_head? h.1)
  rw [List.append_assoc, trim, trimStart_append hleft]
  rcases hstart with hstart | rfl
  · rw [hstart, trimEnd_append hright, ← List.reverse_inj, reverse_trimEnd]
    exact trimStart_of_head? (by simpa using h.2)
  · rw [List.nil_append, show trimStart junk right = [] from List.dropWhile_eq_nil_iff.mpr hright]
    rfl

theorem trimStart_append_of_head? (left : List Char) (h : ∀ c ∈ text.head?, junk c = false) :
    trimStart junk (left ++ text) = trimStart junk left ++ text := by
  obtain ⟨front, hfront, hleft⟩ := exists_trimStart junk left
  rw [hleft, List.append_assoc, trimStart_append hfront, ← hleft]
  refine trimStart_of_head? fun c hc => ?_
  cases hkept : trimStart junk left with
  | nil =>
    rw [hkept] at hc
    exact h c hc
  | cons d kept =>
    rw [hkept] at hc
    obtain rfl : d = c := by simpa using hc
    exact head?_trimStart junk left d (by simp [hkept])

/-- Junk around a text that neither begins nor ends with junk is trimmed in front of it and behind it apart. -/
theorem trim_append_append (left right : List Char) (hne : text ≠ []) (h : IsTrimmed junk text) :
    trim junk (left ++ (text ++ right)) = trimStart junk left ++ (text ++ trimEnd junk right) := by
  have hhead : ∀ c ∈ (text ++ right).head?, junk c = false := by
    rw [List.head?_append_of_ne_nil text hne]
    exact h.1
  have hlast : ∀ c ∈ (trimStart junk left ++ text).reverse.head?, junk c = false := by
    rw [List.head?_reverse, List.getLast?_append_of_ne_nil _ hne]
    exact h.2
  rw [trim, trimStart_append_of_head? left hhead, ← List.append_assoc, ← List.append_assoc,
    ← List.reverse_inj, reverse_trimEnd, List.reverse_append, trimStart_append_of_head? _ hlast,
    ← reverse_trimEnd, ← List.reverse_append]

theorem IsTrimmed.mono {wider : Char → Bool} (h : IsTrimmed wider text)
    (hwider : ∀ c, junk c = true → wider c = true) : IsTrimmed junk text := by
  have hnot (c : Char) (hc : wider c = false) : junk c = false := by
    rw [← Bool.not_eq_true] at hc ⊢
    exact fun hjunk => hc (hwider c hjunk)
  exact ⟨fun c hc => hnot c (h.1 c hc), fun c hc => hnot c (h.2 c hc)⟩

theorem trim_of_isTrimmed (h : IsTrimmed junk text) : trim junk text = text := by
  have hnone : ∀ c ∈ ([] : List Char), junk c = true := by simp
  have htrim := trim_append hnone hnone h
  rwa [List.nil_append, List.append_nil] at htrim

theorem isTrimmed_trim (junk : Char → Bool) (text : List Char) : IsTrimmed junk (trim junk text) := by
  constructor
  · intro c hc
    obtain ⟨right, -, hright⟩ := exists_trimEnd junk (trimStart junk text)
    refine head?_trimStart junk text c ?_
    rw [hright, List.head?_append, Option.mem_def, show (trimEnd junk _).head? = some c from hc]
    rfl
  · intro c hc
    refine head?_trimStart junk (trimStart junk text).reverse c ?_
    rw [← reverse_trimEnd, List.head?_reverse]
    exact hc

theorem exists_trim (junk : Char → Bool) (text : List Char) :
    ∃ left right, (∀ c ∈ left, junk c = true) ∧ (∀ c ∈ right, junk c = true) ∧
      text = left ++ trim junk text ++ right := by
  obtain ⟨left, hleft, htext⟩ := exists_trimStart junk text
  obtain ⟨right, hright, hkept⟩ := exists_trimEnd junk (trimStart junk text)
  refine ⟨left, right, hleft, hright, ?_⟩
  rw [List.append_assoc, trim, ← hkept]
  exact htext

theorem trimStart_sublist (junk : Char → Bool) (text : List Char) : (trimStart junk text).Sublist text :=
  List.dropWhile_sublist junk

theorem trimEnd_sublist (junk : Char → Bool) (text : List Char) : (trimEnd junk text).Sublist text := by
  rw [← List.reverse_sublist, reverse_trimEnd]
  exact trimStart_sublist junk text.reverse

theorem trim_sublist (junk : Char → Bool) (text : List Char) : (trim junk text).Sublist text :=
  (trimEnd_sublist junk _).trans (trimStart_sublist junk text)

end RouteInventory.Text
