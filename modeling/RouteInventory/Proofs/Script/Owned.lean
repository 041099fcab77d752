import RouteInventory.Proofs.Script.Lexed

/-!
# The own text of a span, by offset

At the offsets that belong to a span itself (`Span.Owns`) its own text is the text. A literal belongs to
it as a whole or not at all, since brackets are code.
-/

namespace RouteInventory.Script

open Text

variable {text : List Char} {roots : List Span} {s : Span} {i k : Nat} {c : Char}

/-- Whether an offset is between the brackets of a span and outside of the spans inside it. -/
def Span.Owns (s : Span) (i : Nat) : Prop :=
  s.start < i ∧ i < s.stop ∧ ∀ child ∈ s.children, child.covers i = false

theorem Span.owns_iff : s.Owns i ↔
    s.start < i ∧ i < s.stop ∧ ∀ child ∈ s.children, i < child.start ∨ child.stop < i := by
  simp only [Owns, covers, Bool.and_eq_false_iff, decide_eq_false_iff_not, not_le]

/-- The place of an offset in the own text of a span. -/
def Span.place (s : Span) (i : Nat) : Nat := i - (s.start + 1)

theorem Span.Owns.add_place (h : s.Owns i) : s.start + 1 + s.place i = i := by
  have := h.1
  rw [Span.place]
  omega

theorem isBlank_blankOut (c : Char) : isBlank (blankOut c) = true := by
  rw [blankOut]
  split <;> decide

theorem getElem?_ownText (text : List Char) (s : Span) (k : Nat) :
    (s.ownText text)[k]? = if s.start + 1 + k < s.stop then (text[s.start + 1 + k]?).map fun c =>
      if s.children.any (·.covers (s.start + 1 + k)) then blankOut c else c else none := by
  rw [Span.ownText, Span.interior, List.getElem?_map, List.getElem?_zipIdx, List.getElem?_take,
    List.getElem?_drop]
  by_cases h : s.start + 1 + k < s.stop
  · rw [if_pos h, if_pos (by omega), Option.map_map]
    rfl
  · rw [if_neg h, if_neg (by omega)]
    rfl

theorem getElem?_ownText_of_owns (h : s.Owns (s.start + 1 + k)) :
    (s.ownText text)[k]? = text[s.start + 1 + k]? := by
  obtain ⟨-, hstop, hchildren⟩ := h
  have hany : s.children.any (·.covers (s.start + 1 + k)) = false := by
    simpa using hchildren
  rw [getElem?_ownText, if_pos hstop, hany]
  simp

theorem getElem?_ownText_place (h : s.Owns i) : (s.ownText text)[s.place i]? = text[i]? := by
  have hplace := h.add_place
  rw [← hplace] at h
  rw [getElem?_ownText_of_owns h, hplace]

theorem lt_stop_of_getElem?_ownText (h : (s.ownText text)[k]? = some c) : s.start + 1 + k < s.stop := by
  rw [getElem?_ownText] at h
  split at h
  · assumption
  · cases h

theorem standsAt_ownText_iff {x : List Char} (h : ∀ i < x.length, s.Owns (s.start + 1 + k + i)) :
    StandsAt x (s.ownText text) k ↔ StandsAt x text (s.start + 1 + k) := by
  rw [standsAt_iff, standsAt_iff]
  refine forall_congr' fun i => forall_congr' fun hi => ?_
  have howns := h i hi
  rw [Nat.add_assoc] at howns ⊢
  rw [getElem?_ownText_of_owns howns]

/-- What is not blank in the own text belongs to it. -/
theorem owns_of_getElem?_ownText (h : (s.ownText text)[k]? = some c) (hc : isBlank c = false) :
    s.Owns (s.start + 1 + k) := by
  have hstop := lt_stop_of_getElem?_ownText h
  refine ⟨by omega, hstop, fun child hchild => ?_⟩
  rw [getElem?_ownText, if_pos hstop] at h
  obtain ⟨d, -, hd⟩ := Option.map_eq_some_iff.mp h
  cases hcovers : child.covers (s.start + 1 + k) with
  | false => rfl
  | true =>
    rw [if_pos (List.any_eq_true.mpr ⟨child, hchild, hcovers⟩)] at hd
    rw [← hd, isBlank_blankOut] at hc
    cases hc

theorem mem_codeOf_of_mem_marks {mark : Mark} (h : (i, mark) ∈ marks text) :
    ∃ c, (i, c) ∈ codeOf text := by
  obtain ⟨⟨offset, c⟩, hmem, hmark⟩ := List.mem_filterMap.mp h
  obtain ⟨mark', -, heq⟩ := Option.map_eq_some_iff.mp hmark
  obtain ⟨rfl, rfl⟩ := Prod.mk.inj heq
  exact ⟨c, hmem⟩

theorem brackets_mem_codeOf (h : spans text = .ok roots) (hs : s ∈ Span.allOf roots) :
    (∃ c, (s.start, c) ∈ codeOf text) ∧ ∃ c, (s.stop, c) ∈ codeOf text := by
  obtain ⟨hopens, hcloses⟩ := mem_bracketsOf hs
  rw [bracketsOf_spans h] at hopens hcloses
  exact ⟨mem_codeOf_of_mem_marks hopens, mem_codeOf_of_mem_marks hcloses⟩

/-- A literal belongs to the own text of a span as a whole or not at all. -/
theorem owns_of_mem_stringsOf {offset : Nat} {body : List Char} (h : spans text = .ok roots)
    (hs : s ∈ Span.allOf roots) (hbody : (offset, body) ∈ stringsOf text) {j : Nat} (hj : offset ≤ j)
    (hjlt : j < offset + body.length) (howns : s.Owns j) (hi : offset ≤ i)
    (hlt : i < offset + body.length) : s.Owns i := by
  obtain ⟨⟨_, hopen⟩, _, hclose⟩ := brackets_mem_codeOf h hs
  obtain ⟨hstart, hstop, hchildren⟩ := Span.owns_iff.mp howns
  have hopen := codeOf_outside hopen hbody
  have hclose := codeOf_outside hclose hbody
  refine Span.owns_iff.mpr ⟨by omega, by omega, fun child hchild => ?_⟩
  obtain ⟨⟨_, hchildopen⟩, _, hchildclose⟩ :=
    brackets_mem_codeOf h (mem_allOf_trans hs (mem_allOf_of_mem hchild))
  have hchildopen := codeOf_outside hchildopen hbody
  have hchildclose := codeOf_outside hchildclose hbody
  have := hchildren child hchild
  omega

end RouteInventory.Script
