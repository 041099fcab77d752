import RouteInventory.Proofs.Script.Owned
import RouteInventory.Proofs.Script.Span

/-!
# Bracket trees

A text has at most one bracket tree: spans that lie one behind another or one within another, and whose
brackets are just the brackets in the code of the text, each of them once. The spans of a text are this tree
(`spans_eq_ok_iff`). In the own text of a span, which has a character for every offset between the brackets,
the spans inside are blank and all else is kept; blanking one place after another never leaves the text
(`IsWellFormed.blanked?_eq`).
-/

namespace RouteInventory.Script

open Script.Span Text

variable {text : List Char} {roots : List Span} {low high i : Nat} {s child : Span} {c : Char}

/-- Whether a span lies between two brackets of its kind, around the spans inside it, which lie one behind
another. -/
structure Span.IsWellFormed (text : List Char) (s : Span) : Prop where
  lt : s.start < s.stop
  opening : text[s.start]? = some s.kind.opening
  closing : text[s.stop]? = some s.kind.closing
  encloses : ∀ child ∈ s.children, s.Encloses child
  apart : s.children.Pairwise fun a b => a.stop < b.start

/-- Whether a character at an offset is one of the two brackets of a span. -/
def Span.HasBracket (s : Span) (i : Nat) (c : Char) : Prop :=
  (i = s.start ∧ c = s.kind.opening) ∨ (i = s.stop ∧ c = s.kind.closing)

/-- The characters that open and close spans. -/
def bracketChars : List Char := ['\x7b', '\x7d', '[', ']']

/-- Whether spans are well formed, lie one behind another, and have the brackets in the code of a text, each
of them once. -/
structure IsBracketTree (text : List Char) (roots : List Span) : Prop where
  wellFormed : ∀ s ∈ allOf roots, s.IsWellFormed text
  apart : roots.Pairwise fun a b => a.stop < b.start
  brackets (i : Nat) (c : Char) :
    (i, c) ∈ codeOf text ∧ c ∈ bracketChars ↔ ∃ s ∈ allOf roots, s.HasBracket i c
  once : ((allOf roots).flatMap fun s => [s.start, s.stop]).Nodup

/-! ### Brackets of spans -/

theorem mem_bracketsOf_iff {mark : Mark} : (i, mark) ∈ bracketsOf roots ↔
    ∃ s ∈ allOf roots, (i, mark) = (s.start, .opens s.kind) ∨ (i, mark) = (s.stop, .closes s.kind) := by
  constructor
  · intro h
    induction roots using forest_induction with
    | nil => cases h
    | cons r rest ihchildren ihrest =>
      have hsub : ∀ s, s ∈ allOf r.children ∨ s ∈ allOf rest → s ∈ allOf (r :: rest) := fun s hs => by
        rw [allOf_cons, List.mem_cons, List.mem_append]
        exact .inr hs
      rw [bracketsOf, brackets_eq, List.mem_append, List.mem_cons, List.mem_append, List.mem_singleton] at h
      rcases h with (h | h | h) | h
      · exact ⟨r, mem_allOf_of_mem List.mem_cons_self, .inl h⟩
      · obtain ⟨s, hs, hmark⟩ := ihchildren h
        exact ⟨s, hsub s (.inl hs), hmark⟩
      · exact ⟨r, mem_allOf_of_mem List.mem_cons_self, .inr h⟩
      · obtain ⟨s, hs, hmark⟩ := ihrest h
        exact ⟨s, hsub s (.inr hs), hmark⟩
  · rintro ⟨s, hs, h | h⟩
    · exact h ▸ (mem_bracketsOf hs).1
    · exact h ▸ (mem_bracketsOf hs).2

theorem Mark.ofChar?_char (mark : Mark) : Mark.ofChar? mark.char = some mark := by
  rcases mark with (_ | _) | (_ | _) <;> rfl

theorem mem_marks_iff {mark : Mark} : (i, mark) ∈ marks text ↔ (i, mark.char) ∈ codeOf text := by
  constructor
  · intro h
    obtain ⟨⟨offset, c⟩, hmem, hmark⟩ := List.mem_filterMap.mp h
    obtain ⟨found, hchar, heq⟩ := Option.map_eq_some_iff.mp hmark
    obtain ⟨rfl, rfl⟩ := Prod.mk.inj heq
    rwa [Mark.char_of_ofChar? hchar]
  · intro h
    refine List.mem_filterMap.mpr ⟨_, h, ?_⟩
    dsimp only
    rw [Mark.ofChar?_char]
    rfl

theorem mem_bracketChars_iff : c ∈ bracketChars ↔ ∃ mark : Mark, mark.char = c := by
  constructor
  · intro h
    simp only [bracketChars, List.mem_cons, List.not_mem_nil, or_false] at h
    rcases h with rfl | rfl | rfl | rfl
    exacts [⟨.opens .brace, rfl⟩, ⟨.closes .brace, rfl⟩, ⟨.opens .square, rfl⟩, ⟨.closes .square, rfl⟩]
  · rintro ⟨mark, rfl⟩
    rcases mark with (_ | _) | (_ | _) <;> decide

theorem hasBracket_iff : s.HasBracket i c ↔ ∃ mark : Mark, mark.char = c ∧
    ((i, mark) = (s.start, .opens s.kind) ∨ (i, mark) = (s.stop, .closes s.kind)) := by
  constructor
  · rintro (⟨rfl, rfl⟩ | ⟨rfl, rfl⟩)
    · exact ⟨.opens s.kind, rfl, .inl rfl⟩
    · exact ⟨.closes s.kind, rfl, .inr rfl⟩
  · rintro ⟨mark, rfl, h | h⟩
    · obtain ⟨rfl, rfl⟩ := Prod.mk.inj h
      exact .inl ⟨rfl, rfl⟩
    · obtain ⟨rfl, rfl⟩ := Prod.mk.inj h
      exact .inr ⟨rfl, rfl⟩

/-- The brackets of spans are those in code if they are the same list of marks. -/
theorem brackets_iff (h : ∀ m, m ∈ bracketsOf roots ↔ m ∈ marks text) (i : Nat) (c : Char) :
    (i, c) ∈ codeOf text ∧ c ∈ bracketChars ↔ ∃ s ∈ allOf roots, s.HasBracket i c := by
  simp only [mem_bracketChars_iff, hasBracket_iff]
  constructor
  · rintro ⟨hmem, mark, rfl⟩
    obtain ⟨s, hs, hmark⟩ := mem_bracketsOf_iff.mp ((h _).mpr (mem_marks_iff.mpr hmem))
    exact ⟨s, hs, mark, rfl, hmark⟩
  · rintro ⟨s, hs, mark, rfl, hmark⟩
    exact ⟨mem_marks_iff.mp ((h _).mp (mem_bracketsOf_iff.mpr ⟨s, hs, hmark⟩)), mark, rfl⟩

theorem perm_offsets (roots : List Span) :
    ((allOf roots).flatMap fun s => [s.start, s.stop]).Perm ((bracketsOf roots).map (·.1)) := by
  induction roots using forest_induction with
  | nil => exact .refl _
  | cons s rest ihchildren ihrest =>
    have hinner := ihchildren.append (ihrest.cons s.stop)
    rw [allOf_cons, bracketsOf, brackets_eq]
    simpa using (List.perm_middle.symm.trans hinner).cons s.start

namespace Tiled

theorem pairwise_apart (h : Tiled low high roots) : roots.Pairwise fun a b => a.stop < b.start := by
  induction h with
  | nil => exact .nil
  | cons _ _ _ _ hrest _ ih =>
    refine List.pairwise_cons.mpr ⟨fun b hb => ?_, ih⟩
    have := hrest.bounds (mem_allOf_of_mem hb)
    omega

theorem pairwise_bracketsOf (h : Tiled low high roots) :
    (bracketsOf roots).Pairwise fun a b => a.1 < b.1 := by
  have hbounds {low high : Nat} {roots : List Span} (h : Tiled low high roots) :
      ∀ m ∈ bracketsOf roots, low ≤ m.1 ∧ m.1 < high := by
    rintro ⟨i, mark⟩ hm
    obtain ⟨s, hs, heq | heq⟩ := mem_bracketsOf_iff.mp hm
    all_goals
      have := h.bounds hs
      obtain ⟨rfl, -⟩ := Prod.mk.inj heq
      exact ⟨by omega, by omega⟩
  induction h with
  | nil => exact .nil
  | @cons low high s rest hstart hstop hhigh hchildren hrest ihchildren ihrest =>
    rw [bracketsOf, brackets_eq, List.cons_append, List.append_assoc, List.singleton_append,
      List.pairwise_cons, List.pairwise_append, List.pairwise_cons]
    have hinner := hbounds hchildren
    have hbehind := hbounds hrest
    refine ⟨fun m hm => ?_, ihchildren, ⟨fun m hm => (hbehind m hm).1, ihrest⟩, fun a ha b hb => ?_⟩
    · rcases List.mem_append.mp hm with hm | hm
      · exact (hinner m hm).1
      · rcases List.mem_cons.mp hm with rfl | hm
        · exact hstop
        · have := (hbehind m hm).1
          omega
    · have := (hinner a ha).2
      rcases List.mem_cons.mp hb with rfl | hb
      · exact this
      · have := (hbehind b hb).1
        omega

end Tiled

/-! ### The tree of a text -/

/-- The brackets of spans nest to these spans. -/
theorem balanced_bracketsOf (roots : List Span) : Balanced (bracketsOf roots) roots := by
  induction roots using forest_induction with
  | nil => exact balanced_nil
  | cons s rest ihchildren ihrest =>
    cases s
    rw [bracketsOf, brackets_eq]
    exact (ihchildren.enclose _ _ _).append ihrest

theorem spans_of_bracketsOf (h : bracketsOf roots = marks text) : spans text = .ok roots := by
  have hnest := balanced_bracketsOf roots [] [] []
  rw [List.append_nil] at hnest
  rw [spans, ← h, hnest]
  simp [addSpans, nest]

theorem isWellFormed_of_mem (h : spans text = .ok roots) (hs : s ∈ allOf roots) : s.IsWellFormed text := by
  have htiled := tiled_spans h
  obtain ⟨hopening, hclosing⟩ := getElem?_of_mem_spans h hs
  refine ⟨(htiled.bounds hs).2.1, hopening, hclosing, fun child hchild => ?_,
    (htiled.children hs).pairwise_apart⟩
  have := (htiled.children hs).bounds (mem_allOf_of_mem hchild)
  exact ⟨by omega, by omega⟩

theorem tiled_of_isWellFormed (roots : List Span) : ∀ {low high : Nat},
    (∀ s ∈ allOf roots, s.IsWellFormed text) → (roots.Pairwise fun a b => a.stop < b.start) →
      (∀ s ∈ roots, low ≤ s.start ∧ s.stop < high) → Tiled low high roots := by
  induction roots using forest_induction with
  | nil => exact fun _ _ _ => .nil _ _
  | cons s rest ihchildren ihrest =>
    intro low high hformed hapart hbounds
    rw [allOf_cons, List.forall_mem_cons, List.forall_mem_append] at hformed
    rw [List.pairwise_cons] at hapart
    rw [List.forall_mem_cons] at hbounds
    obtain ⟨hs, hinner, hbehind⟩ := hformed
    refine .cons hbounds.1.1 hs.lt hbounds.1.2 (ihchildren hinner hs.apart hs.encloses)
      (ihrest hbehind hapart.2 fun r hr => ⟨hapart.1 r hr, (hbounds.2 r hr).2⟩)

theorem IsBracketTree.tiled (h : IsBracketTree text roots) : Tiled 0 text.length roots := by
  refine tiled_of_isWellFormed roots h.wellFormed h.apart fun s hs => ⟨Nat.zero_le _, ?_⟩
  exact (List.getElem?_eq_some_iff.mp (h.wellFormed s (mem_allOf_of_mem hs)).closing).1

theorem isBracketTree_spans (h : spans text = .ok roots) : IsBracketTree text roots where
  wellFormed _ hs := isWellFormed_of_mem h hs
  apart := (tiled_spans h).pairwise_apart
  brackets := brackets_iff fun m => by rw [bracketsOf_spans h]
  once := by
    refine (perm_offsets roots).nodup_iff.mpr ?_
    rw [bracketsOf_spans h]
    exact (List.pairwise_map.mpr (pairwise_marks text)).imp Nat.ne_of_lt

/-- The spans of a text are its bracket tree: there is no other, and none if the brackets do not nest. -/
theorem spans_eq_ok_iff : spans text = .ok roots ↔ IsBracketTree text roots := by
  refine ⟨isBracketTree_spans, fun h => spans_of_bracketsOf ?_⟩
  refine h.tiled.pairwise_bracketsOf.eq_of_mem_iff (pairwise_marks text) fun ⟨i, mark⟩ => ?_
  rw [mem_bracketsOf_iff, mem_marks_iff]
  have hbracket := h.brackets i mark.char
  rw [and_iff_left (mem_bracketChars_iff.mpr ⟨mark, rfl⟩)] at hbracket
  rw [hbracket]
  refine exists_congr fun s => and_congr_right fun _ => ?_
  rw [hasBracket_iff]
  constructor
  · exact fun h => ⟨mark, rfl, h⟩
  · rintro ⟨other, hchar, h⟩
    have heq := Mark.ofChar?_char other
    rw [hchar, Mark.ofChar?_char] at heq
    exact Option.some.inj heq ▸ h

/-! ### The own text of a span -/

theorem Span.IsWellFormed.stop_lt (h : s.IsWellFormed text) : s.stop < text.length :=
  (List.getElem?_eq_some_iff.mp h.closing).1

theorem Span.IsWellFormed.length_ownText (h : s.IsWellFormed text) :
    (s.ownText text).length = s.stop - s.start - 1 := by
  have := h.stop_lt
  simp only [ownText, interior, List.length_map, List.length_zipIdx, List.length_take, List.length_drop]
  omega

/-- What a span inside covers is in the interior, and blank in the own text. -/
theorem Span.IsWellFormed.getElem?_ownText_of_covers (h : s.IsWellFormed text) (hchild : child ∈ s.children)
    (hcovers : child.covers i = true) : s.start + 1 ≤ i ∧ s.place i < (s.ownText text).length ∧
      (s.ownText text)[s.place i]? = text[i]?.map blankOut := by
  obtain ⟨hstart, hstop⟩ := h.encloses child hchild
  have hwithin := hcovers
  simp only [covers, Bool.and_eq_true, decide_eq_true_eq] at hwithin
  have hplace : s.start + 1 + (i - (s.start + 1)) = i := by omega
  rw [h.length_ownText, Span.place, getElem?_ownText, hplace, if_pos (by omega)]
  refine ⟨by omega, by omega, ?_⟩
  have hany : s.children.any (·.covers i) = true := List.any_eq_true.mpr ⟨child, hchild, hcovers⟩
  simp only [hany, if_true]

/-- Blanks the character at an offset of a text that begins at another one, if there is one. -/
def blankAt? (base : Nat) (text : List Char) (i : Nat) : Option (List Char) :=
  if base ≤ i ∧ i - base < text.length then some (text.modify (i - base) blankOut) else none

/-- The offsets from a span's opening bracket to its closing one. -/
def Span.offsets (s : Span) : List Nat := List.range' s.start (s.stop + 1 - s.start)

theorem Span.mem_offsets : i ∈ s.offsets ↔ s.covers i = true := by
  simp only [offsets, List.mem_range'_1, covers, Bool.and_eq_true, decide_eq_true_eq]
  omega

/-- The interior of a span with the spans inside it blanked offset by offset, unless one of the offsets is not
in the interior. -/
def Span.blanked? (text : List Char) (s : Span) : Option (List Char) :=
  (s.children.flatMap Span.offsets).foldlM (blankAt? (s.start + 1)) (s.interior text)

theorem foldlM_blankAt? {base : Nat} {offsets : List Nat}
    (h : ∀ i ∈ offsets, base ≤ i ∧ i - base < text.length) : ∃ blanked,
      offsets.foldlM (blankAt? base) text = some blanked ∧ ∀ k : Nat,
        blanked[k]? = text[k]?.map fun c => if base + k ∈ offsets then blankOut c else c := by
  induction offsets generalizing text with
  | nil => exact ⟨text, rfl, fun k => by simp⟩
  | cons i offsets ih =>
    obtain ⟨hi, hoffsets⟩ := List.forall_mem_cons.mp h
    obtain ⟨blanked, hfold, hblanked⟩ := @ih (text.modify (i - base) blankOut) (by simpa using hoffsets)
    refine ⟨blanked, ?_, fun k => ?_⟩
    · rw [List.foldlM_cons, blankAt?, if_pos hi]
      exact hfold
    · rw [hblanked, List.getElem?_modify, Option.map_eq_map, Option.map_map]
      congr 1
      funext c
      have hplace : i - base = k ↔ base + k = i := by omega
      by_cases hk : base + k = i
      · simp [hplace, hk, blankOut]
      · simp [hplace, hk]

/-- Blanking offset by offset never leaves the interior, and comes to the own text. -/
theorem Span.IsWellFormed.blanked?_eq (h : s.IsWellFormed text) : s.blanked? text = some (s.ownText text) := by
  have hlength : (s.interior text).length = (s.ownText text).length := by simp [ownText]
  have hoffsets : ∀ i ∈ s.children.flatMap Span.offsets,
      s.start + 1 ≤ i ∧ i - (s.start + 1) < (s.interior text).length := by
    intro i hi
    obtain ⟨child, hchild, hi⟩ := List.mem_flatMap.mp hi
    obtain ⟨hle, hlt, -⟩ := h.getElem?_ownText_of_covers hchild (mem_offsets.mp hi)
    exact ⟨hle, hlength ▸ hlt⟩
  obtain ⟨blanked, hfold, hblanked⟩ := foldlM_blankAt? hoffsets
  rw [blanked?, hfold]
  refine congrArg some (List.ext_getElem? fun k => ?_)
  have hmem : s.start + 1 + k ∈ s.children.flatMap Span.offsets ↔
      s.children.any (·.covers (s.start + 1 + k)) = true := by
    simp only [List.mem_flatMap, mem_offsets, List.any_eq_true]
  rw [hblanked, ownText, List.getElem?_map, List.getElem?_zipIdx, Option.map_map]
  simp only [hmem, Function.comp_def]

/-! ### Whole texts -/

/-- The spans of a text, if its brackets nest, are its only bracket tree. The own text of each span has a character
for every offset between the brackets: outside of the spans inside it that of the text, inside of them a line feed
where the text has one and a space elsewhere. Blanking these offset by offset stays in the text. -/
theorem spans_bracketTree (text : List Char) (roots : List Span) :
    (spans text = .ok roots ↔ IsBracketTree text roots) ∧ (spans text = .ok roots → ∀ s ∈ allOf roots,
      s.blanked? text = some (s.ownText text) ∧ (s.ownText text).length = s.stop - s.start - 1 ∧
      (∀ i, s.Owns i → (s.ownText text)[s.place i]? = text[i]?) ∧
      ∀ child ∈ s.children, ∀ i, child.start ≤ i → i ≤ child.stop → ∃ c, text[i]? = some c ∧
        (s.ownText text)[s.place i]? = some (if c = '\n' then '\n' else ' ')) := by
  refine ⟨spans_eq_ok_iff, fun h s hs => ?_⟩
  have hformed := isWellFormed_of_mem h hs
  refine ⟨hformed.blanked?_eq, hformed.length_ownText, fun i => getElem?_ownText_place,
    fun child hchild i hle hge => ?_⟩
  have hcovers : child.covers i = true := by simp [covers, hle, hge]
  obtain ⟨-, -, hown⟩ := hformed.getElem?_ownText_of_covers hchild hcovers
  have hlt : i < text.length := by
    have := hformed.stop_lt
    have := (hformed.encloses child hchild).2
    omega
  rw [List.getElem?_eq_getElem hlt] at hown ⊢
  exact ⟨_, rfl, hown⟩

/-- Brackets in a string and in a regular expression, and a line feed between brackets. -/
def bracketed : List Char := "[\x7b a: '[' \x7d, /[\x7d]/, [\n] ]".toList

def bracketedRoot : Span := ⟨.square, 0, 24, [⟨.brace, 1, 10, []⟩, ⟨.square, 20, 22, []⟩]⟩

theorem spans_bracketed : spans bracketed = .ok [bracketedRoot] ∧ IsBracketTree bracketed [bracketedRoot] ∧
    bracketedRoot.blanked? bracketed = some "          , /[\x7d]/,  \n  ".toList := by
  have hspans : spans bracketed = .ok [bracketedRoot] := by cbv
  have hown : bracketedRoot.ownText bracketed = "          , /[\x7d]/,  \n  ".toList := by cbv
  obtain ⟨hiff, htexts⟩ := spans_bracketTree bracketed [bracketedRoot]
  obtain ⟨hblanked, -⟩ := htexts hspans bracketedRoot (mem_allOf_of_mem List.mem_cons_self)
  exact ⟨hspans, hiff.mp hspans, hown ▸ hblanked⟩

end RouteInventory.Script
