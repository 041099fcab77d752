import RouteInventory.Proofs.Script.Lookback

/-!
# The own text of a span, read again

From an offset that cuts none of the spans inside (`Span.Parts`) the text of a span is read as spans inside and
segments, one behind the other, up to the closing bracket (`Span.Reads`). The own text of the span is read in
the same segments, with blanks for the spans inside (`segmentsAt_ownText`), as long as the slashes right behind
these are read alike.
-/

namespace RouteInventory.Script

open Script.Span Text

variable {text x : List Char} {roots : List Span} {s child : Span} {i k : Nat}

/-! ### Parts of texts -/

theorem StandsAt.split (h : StandsAt x text k) :
    text.drop k = x ++ text.drop (k + x.length) ∧ text.take (k + x.length) = text.take k ++ x := by
  obtain ⟨rest, hrest⟩ := h
  rw [← List.drop_drop, List.take_add, ← hrest, List.drop_left, List.take_left]
  exact ⟨rfl, rfl⟩

theorem standsAt_of_drop {after : List Char} (h : text.drop k = x ++ after) : StandsAt x text k :=
  ⟨after, h.symm⟩

theorem Begins.exists_segment (h : Begins text i) (hlt : i < text.length) :
    ∃ seg rest, segmentsAt text i = seg :: rest := by
  obtain ⟨front, hfront, hi⟩ := h.exists_segments
  refine List.exists_cons_of_ne_nil fun hnil => ?_
  have htext := text_segments .bare text
  rw [hfront, hnil, List.append_nil] at htext
  rw [hi, htext] at hlt
  exact lt_irrefl _ hlt

theorem Begins.behind {seg : Segment} {rest : List Segment} (h : Begins text i)
    (hsegments : segmentsAt text i = seg :: rest) : Begins text (i + seg.text.length) := by
  obtain ⟨front, hfront, hi⟩ := h.exists_segments
  refine ⟨front ++ [seg], rest, by rw [hfront, hsegments, List.append_assoc]; rfl, ?_⟩
  rw [List.flatMap_append, List.length_append, ← hi, List.flatMap_singleton]

/-- No segment begins within another one. -/
theorem Begins.outside {seg : Segment} {rest : List Segment} (h : Begins text i)
    (hsegments : segmentsAt text i = seg :: rest) (hk : Begins text k) :
    k ≤ i ∨ i + seg.text.length ≤ k := by
  obtain ⟨front, hfront, rfl⟩ := h.exists_segments
  obtain ⟨front', back', hfront', rfl⟩ := hk
  rw [hfront, hsegments] at hfront'
  rcases List.append_eq_append_iff.mp hfront' with ⟨between, rfl, hbetween⟩ | ⟨between, rfl, -⟩
  · cases between with
    | nil => exact .inl (by simp)
    | cons first between =>
      obtain ⟨rfl, -⟩ := List.cons.inj hbetween
      refine .inr ?_
      rw [List.flatMap_append, List.flatMap_cons, List.length_append, List.length_append]
      omega
  · refine .inl ?_
    rw [List.flatMap_append, List.length_append]
    omega

/-- Within a segment there is a character of code only if the segment is one. -/
theorem mem_codeOf_within_iff {seg : Segment} {rest : List Segment} {c : Char} (h : Begins text i)
    (hsegments : segmentsAt text i = seg :: rest) (hle : i ≤ k) (hlt : k < i + seg.text.length) :
    (k, c) ∈ codeOf text ↔ k = i ∧ seg = .code c := by
  have hfirst : (i, c) ∈ codeOf text ↔ seg = .code c := by
    rw [mem_codeOf_iff h, hsegments, List.head?_cons, Option.some.injEq]
  constructor
  · intro hmem
    obtain rfl : k = i := by
      have := h.outside hsegments (begins_of_mem_codeOf hmem).1
      omega
    exact ⟨rfl, hfirst.mp hmem⟩
  · rintro ⟨rfl, hcode⟩
    exact hfirst.mpr hcode

theorem Segment.FitsBare.text_ne_nil {seg : Segment} {before after : List Char} (h : seg.FitsBare before after) :
    seg.text ≠ [] := by
  cases seg with
  | code c => exact List.cons_ne_nil c []
  | string text =>
    obtain ⟨quote, body, rfl, -⟩ := h
    exact List.cons_ne_nil quote body
  | regex text =>
    obtain ⟨body, rfl, -⟩ := h
    exact List.cons_ne_nil '/' body
  | lineComment text => exact h.elim
  | blockComment text => exact h.elim

theorem getElem?_of_isSlash {seg : Segment} {rest : List Segment} (hsegments : segmentsAt text i = seg :: rest)
    (hslash : seg.isSlash = true) : text[i]? = some '/' := by
  obtain ⟨after, htext, hfits⟩ := exists_fitsBare hsegments
  have hhead : text[i]? = (seg.text ++ after).head? := by rw [← htext, List.head?_drop]
  rw [hhead]
  cases seg with
  | code c =>
    obtain rfl : c = '/' := by simpa [Segment.isSlash] using hslash
    rfl
  | regex text =>
    obtain ⟨body, rfl, -⟩ := hfits
    rfl
  | string | lineComment | blockComment => cases hslash

/-! ### Offsets outside of the spans inside -/

/-- Whether an offset lies behind a span's opening bracket, up to its closing one, and cuts none of the spans
inside it. -/
def Span.Parts (s : Span) (i : Nat) : Prop :=
  s.start < i ∧ i ≤ s.stop ∧ ∀ child ∈ s.children, i ≤ child.start ∨ child.stop < i

theorem Span.Owns.parts (h : s.Owns i) : s.Parts i := by
  obtain ⟨hstart, hstop, hchildren⟩ := owns_iff.mp h
  exact ⟨hstart, hstop.le, fun child hchild => (hchildren child hchild).imp_left Nat.le_of_lt⟩

theorem Span.Owns.parts_succ (h : s.Owns i) : s.Parts (i + 1) := by
  obtain ⟨hstart, hstop, hchildren⟩ := owns_iff.mp h
  refine ⟨hstart.trans (Nat.lt_succ_self i), hstop, fun child hchild => ?_⟩
  exact (hchildren child hchild).imp_right fun hlt => hlt.trans (Nat.lt_succ_self i)

namespace Span.Parts

theorem place_add (h : s.Parts i) (k : Nat) : s.place (i + k) = s.place i + k := by
  have := h.1
  simp only [Span.place]
  omega

theorem add_place (h : s.Parts i) : s.start + 1 + s.place i = i := by
  have := h.1
  rw [Span.place]
  omega

/-- At an offset that cuts no span inside, the span ends, another one begins, or the character is its own. -/
theorem eq_stop_or (h : s.Parts i) :
    i = s.stop ∨ (∃ child ∈ s.children, child.start = i) ∨ s.Owns i := by
  obtain ⟨hstart, hstop, hchildren⟩ := h
  rcases hstop.eq_or_lt with heq | hlt
  · exact .inl heq
  by_cases hbegins : ∃ child ∈ s.children, child.start = i
  · exact .inr (.inl hbegins)
  · refine .inr (.inr (owns_iff.mpr ⟨hstart, hlt, fun child hchild => ?_⟩))
    have hne : child.start ≠ i := fun heq => hbegins ⟨child, hchild, heq⟩
    exact (hchildren child hchild).imp_left fun hle => lt_of_le_of_ne hle hne.symm

end Span.Parts

section Spans

variable (hspans : spans text = .ok roots) (hs : s ∈ allOf roots)
include hspans hs

theorem parts_child (hchild : child ∈ s.children) : s.Parts child.start ∧ s.Parts (child.stop + 1) := by
  have hinner := (tiled_spans hspans).children hs
  have hbounds := hinner.bounds (mem_allOf_of_mem hchild)
  have hothers (other : Span) (hother : other ∈ s.children) :
      (child.start ≤ other.start ∨ other.stop < child.start) ∧
        (child.stop + 1 ≤ other.start ∨ other.stop < child.stop + 1) := by
    rcases hinner.laminar_root hchild (mem_allOf_of_mem hother) with rfl | hmem | hlt | hlt
    · omega
    · have := (hinner.children (mem_allOf_of_mem hchild)).bounds hmem
      omega
    · omega
    · omega
  exact ⟨⟨by omega, by omega, fun other hother => (hothers other hother).1⟩,
    by omega, by omega, fun other hother => (hothers other hother).2⟩

theorem parts_stop : s.Parts s.stop := by
  have hinner := (tiled_spans hspans).children hs
  refine ⟨((tiled_spans hspans).bounds hs).2.1, le_rfl, fun child hchild => ?_⟩
  exact .inr (hinner.bounds (mem_allOf_of_mem hchild)).2.2

/-- A span inside another, and the blanks that stand for it in the own text of that one. -/
theorem exists_covered (hchild : child ∈ s.children) : ∃ inner : List Char,
    child.start + (child.kind.opening :: (inner ++ [child.kind.closing])).length = child.stop + 1 ∧
      StandsAt (child.kind.opening :: (inner ++ [child.kind.closing])) text child.start ∧
      StandsAt ((child.kind.opening :: (inner ++ [child.kind.closing])).map blankOut) (s.ownText text)
        (s.place child.start) := by
  have hformed := isWellFormed_of_mem hspans (mem_allOf_trans hs (mem_allOf_of_mem hchild))
  have hlt := hformed.lt
  have hstop := hformed.stop_lt
  have hinner : (child.interior text).length = child.stop - (child.start + 1) := by
    rw [Span.interior, List.length_take, List.length_drop]
    omega
  have hstands : StandsAt (child.kind.opening :: (child.interior text ++ [child.kind.closing])) text
      child.start := by
    rw [standsAt_cons, standsAt_append, standsAt_cons, hinner]
    refine ⟨hformed.opening, List.take_prefix .., ?_, List.nil_prefix⟩
    rw [← hformed.closing]
    congr 1
    omega
  refine ⟨child.interior text, ?_, hstands, standsAt_iff.mpr fun k hk => ?_⟩
  · simp only [List.length_cons, List.length_append, List.length_nil, hinner]
    omega
  · rw [List.length_map] at hk
    have hcovers : child.covers (child.start + k) = true := by
      simp only [List.length_cons, List.length_append, List.length_nil, hinner] at hk
      simp only [covers, Bool.and_eq_true, decide_eq_true_eq]
      omega
    have hplace := (parts_child hspans hs hchild).1.place_add k
    rw [← hplace, ((isWellFormed_of_mem hspans hs).getElem?_ownText_of_covers hchild hcovers).2.2,
      List.getElem?_map, standsAt_iff.mp hstands k hk]

theorem take_succ_of_owns (h : s.Owns i) : ∃ c, text.take (i + 1) = text.take i ++ [c] ∧
    (s.ownText text).take (s.place (i + 1)) = (s.ownText text).take (s.place i) ++ [c] := by
  have hlt : i < text.length := by
    have := (isWellFormed_of_mem hspans hs).stop_lt
    have := h.2.1
    omega
  have hc := List.getElem?_eq_getElem hlt
  refine ⟨text[i], by rw [List.take_add_one, hc]; rfl, ?_⟩
  rw [h.parts.place_add, List.take_add_one, getElem?_ownText_place h, hc]
  rfl

/-- The text before an offset is shown in the own text with the spans inside it blanked. -/
theorem looksBack_ownText (h : s.Parts i) :
    LooksBack (text.take i).reverse ((s.ownText text).take (s.place i)).reverse := by
  induction i using Nat.strong_induction_on with
  | _ i ih =>
    obtain ⟨j, rfl⟩ : ∃ j, i = j + 1 := ⟨i - 1, by have := h.1; omega⟩
    have hle := h.1
    rcases (Nat.lt_succ_iff.mp hle).eq_or_lt with rfl | hlt
    · have hopening := (isWellFormed_of_mem hspans hs).opening
      have hplace : s.place (s.start + 1) = 0 := Nat.sub_self _
      rw [hplace, List.take_add_one, hopening]
      simpa using LooksBack.opening s.kind (text.take s.start).reverse
    by_cases hcovered : ∃ child ∈ s.children, child.covers j = true
    · -- a span inside ends right before the offset
      obtain ⟨child, hchild, hcovers⟩ := hcovered
      have hend := h.2.2 child hchild
      simp only [covers, Bool.and_eq_true, decide_eq_true_eq] at hcovers
      obtain rfl : child.stop = j := by omega
      obtain ⟨hparts, -⟩ := parts_child hspans hs hchild
      obtain ⟨inner, hlength, hstands, hblank⟩ := exists_covered hspans hs hchild
      have hbefore := ih child.start (by omega) hparts
      have hshown := hblank.split.2
      rw [List.length_map, ← hparts.place_add] at hshown
      rw [← hlength, hstands.split.2, hshown, List.reverse_append, List.reverse_append]
      have hgaps : ∀ c ∈ ((child.kind.opening :: inner).map blankOut).reverse, isGap c = true := by
        intro c hc
        obtain ⟨d, -, rfl⟩ := List.mem_map.mp (List.mem_reverse.mp hc)
        unfold blankOut
        split <;> rfl
      have hclosing : blankOut child.kind.closing = ' ' := by cases child.kind <;> rfl
      have hback := hbefore.closing child.kind (child.kind.opening :: inner).reverse hgaps
      simpa [hclosing] using hback
    · have howns : s.Owns j := by
        refine ⟨hlt, h.2.1, fun child hchild => ?_⟩
        simpa using fun hcovers => hcovered ⟨child, hchild, hcovers⟩
      obtain ⟨c, htext, hshown⟩ := take_succ_of_owns hspans hs howns
      rw [htext, hshown, List.reverse_append, List.reverse_append]
      exact (ih j (Nat.lt_succ_self j) howns.parts).own c

theorem beginsAlike_ownText (h : s.Parts i) :
    BeginsAlike (text.drop i) ((s.ownText text).drop (s.place i)) := by
  have hformed := isWellFormed_of_mem hspans hs
  rw [BeginsAlike, List.head?_drop, List.head?_drop]
  rcases h.eq_stop_or with rfl | ⟨child, hchild, rfl⟩ | howns
  · have hnone : (s.ownText text)[s.place s.stop]? = none := by
      rw [List.getElem?_eq_none_iff, hformed.length_ownText, Span.place]
      omega
    exact ⟨_, hformed.closing, .inr ⟨(mem_bracketChars _).2, by simp [hnone]⟩⟩
  · have hchildformed := isWellFormed_of_mem hspans (mem_allOf_trans hs (mem_allOf_of_mem hchild))
    have hcovers : child.covers child.start = true := by simp [covers, hchildformed.lt.le]
    obtain ⟨-, -, hshown⟩ := hformed.getElem?_ownText_of_covers hchild hcovers
    rw [hchildformed.opening] at hshown
    refine ⟨_, hchildformed.opening, .inr ⟨(mem_bracketChars _).1, fun d hd => ?_⟩⟩
    rw [hshown] at hd
    obtain rfl := Option.some.inj hd
    cases child.kind <;> rfl
  · have hlt : i < text.length := by
      have := hformed.stop_lt
      have := howns.2.1
      omega
    have hc := List.getElem?_eq_getElem hlt
    exact ⟨_, hc, .inl ((getElem?_ownText_place howns).trans hc)⟩

/-! ### Reading on -/

/-- A segment that belongs to a span is one of its own text. -/
theorem segmentsAt_ownText {seg : Segment} {rest : List Segment} (hsegments : segmentsAt text i = seg :: rest)
    (howns : ∀ j, i ≤ j → j < i + seg.text.length → s.Owns j) (hparts : s.Parts i)
    (hbehind : s.Parts (i + seg.text.length))
    (hslash : seg.isSlash = true → FollowsBracket (text.take i).reverse →
      opensRegex (text.take i).reverse = opensRegex ((s.ownText text).take (s.place i)).reverse) :
    StandsAt seg.text (s.ownText text) (s.place i) ∧ segmentsAt (s.ownText text) (s.place i) =
      seg :: segmentsAt (s.ownText text) (s.place (i + seg.text.length)) := by
  obtain ⟨after, htext, hfits⟩ := exists_fitsBare hsegments
  have hstands := standsAt_of_drop htext
  obtain rfl : text.drop (i + seg.text.length) = after := by
    rw [← List.drop_drop, htext, List.drop_left]
  have hplace := hparts.add_place
  have hown : StandsAt seg.text (s.ownText text) (s.place i) := by
    refine (standsAt_ownText_iff fun j hj => ?_).mpr (hplace.symm ▸ hstands)
    rw [hplace]
    exact howns _ (Nat.le_add_right ..) (by omega)
  obtain ⟨hdrop, htake⟩ := hown.split
  have hblanked := hfits.blanked (looksBack_ownText hspans hs hparts)
    (beginsAlike_ownText hspans hs hbehind) hslash
  rw [hparts.place_add] at hblanked
  refine ⟨hown, ?_⟩
  rw [segmentsAt, hdrop, segmentsFrom_of_fitsBare hblanked, hparts.place_add, segmentsAt, htake,
    List.reverse_append]

end Spans

/-- How the text of a span is read from an offset on, up to its closing bracket: as spans inside it and segments,
one behind the other. -/
inductive Span.Reads (text : List Char) (s : Span) : Nat → Prop
  | stop : Reads text s s.stop
  | inner {child : Span} (hchild : child ∈ s.children) (h : Reads text s (child.stop + 1)) :
      Reads text s child.start
  | segment {i : Nat} {seg : Segment} {rest : List Segment} (hbegins : Begins text i)
      (hsegments : segmentsAt text i = seg :: rest)
      (howns : ∀ j, i ≤ j → j < i + seg.text.length → s.Owns j)
      (h : Reads text s (i + seg.text.length)) : Reads text s i

theorem length_pos_of_segmentsAt {seg : Segment} {rest : List Segment}
    (h : segmentsAt text i = seg :: rest) : 0 < seg.text.length := by
  obtain ⟨after, -, hfits⟩ := exists_fitsBare h
  exact List.length_pos_iff.mpr hfits.text_ne_nil

theorem begins_bracket (hspans : spans text = .ok roots) (hs : s ∈ allOf roots) :
    Begins text s.start ∧ Begins text s.stop ∧ Begins text (s.stop + 1) := by
  obtain ⟨⟨_, hopening⟩, _, hclosing⟩ := brackets_mem_codeOf hspans hs
  exact ⟨(begins_of_mem_codeOf hopening).1, begins_of_mem_codeOf hclosing⟩

theorem Span.Reads.parts (hspans : spans text = .ok roots) (hs : s ∈ allOf roots) (h : s.Reads text i) :
    s.Parts i := by
  cases h with
  | stop => exact parts_stop hspans hs
  | inner hchild _ => exact (parts_child hspans hs hchild).1
  | segment _ hsegments howns _ =>
    have := length_pos_of_segmentsAt hsegments
    exact (howns i le_rfl (by omega)).parts

/-- A segment belongs to a span as a whole or not at all, since brackets are segments of their own. -/
theorem owns_segment {seg : Segment} {rest : List Segment} (hspans : spans text = .ok roots)
    (hs : s ∈ allOf roots) (hbegins : Begins text i) (hsegments : segmentsAt text i = seg :: rest)
    (howns : s.Owns i) : ∀ j, i ≤ j → j < i + seg.text.length → s.Owns j := by
  intro j hle hlt
  obtain ⟨hstart, hstop, hchildren⟩ := owns_iff.mp howns
  have hclosing := hbegins.outside hsegments (begins_bracket hspans hs).2.1
  refine owns_iff.mpr ⟨by omega, by omega, fun child hchild => ?_⟩
  have hmem := mem_allOf_trans hs (mem_allOf_of_mem hchild)
  have hopening := hbegins.outside hsegments (begins_bracket hspans hmem).1
  have := hchildren child hchild
  omega

/-- The text of a span is so read from every beginning of a segment that cuts no span inside. -/
theorem reads_of_begins (hspans : spans text = .ok roots) (hs : s ∈ allOf roots) (hbegins : Begins text i)
    (hparts : s.Parts i) : s.Reads text i := by
  induction hn : s.stop - i using Nat.strong_induction_on generalizing i with
  | _ n ih =>
    rcases hparts.eq_stop_or with rfl | ⟨child, hchild, rfl⟩ | howns
    · exact .stop
    · have hmem := mem_allOf_trans hs (mem_allOf_of_mem hchild)
      have hbehind := (parts_child hspans hs hchild).2
      have := (isWellFormed_of_mem hspans hmem).lt
      have hlt := hbehind.2.1
      exact .inner hchild (ih _ (by omega) (begins_bracket hspans hmem).2.2 hbehind rfl)
    · have hlt := howns.2.1
      obtain ⟨seg, rest, hsegments⟩ :=
        hbegins.exists_segment (hlt.trans (isWellFormed_of_mem hspans hs).stop_lt)
      have hpos := length_pos_of_segmentsAt hsegments
      have hall := owns_segment hspans hs hbegins hsegments howns
      have hbehind := (hall (i + seg.text.length - 1) (by omega) (by omega)).parts_succ
      rw [Nat.sub_add_cancel (by omega)] at hbehind
      exact .segment hbegins hsegments hall (ih _ (by omega) (hbegins.behind hsegments) hbehind rfl)

end RouteInventory.Script
