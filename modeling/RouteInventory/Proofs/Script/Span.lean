import RouteInventory.Proofs.Script.Segment
import RouteInventory.Script.Span

/-!
# Pieces of a script

A piece is a text whose brackets, wherever it stands in a script without comments, nest to spans of
its own. `Piece` says which spans these are, and what of the text is left when they are blanked. Words
and literals are pieces without spans; pieces put together are pieces, and a piece between brackets is
one with a single span.
-/

namespace RouteInventory.Script

open Text

/-- The brackets in code, with their offsets, of a text that stands at an offset. -/
def marksFrom (offset : Nat) (before text : List Char) : List (Nat × Mark) :=
  (codeChars offset (segmentsFrom .bare before text)).filterMap fun (offset, c) =>
    (Mark.ofChar? c).map (offset, ·)

theorem marks_eq_marksFrom (text : List Char) : marks text = marksFrom 0 [] text := rfl

theorem marksFrom_nil (offset : Nat) (before : List Char) : marksFrom offset before [] = [] := by
  rw [marksFrom, segmentsFrom]
  rfl

theorem marksFrom_code {c : Char} (h : IsCode c) (offset : Nat) (before rest : List Char) :
    marksFrom offset before (c :: rest) =
      ((Mark.ofChar? c).map (offset, ·)).toList ++ marksFrom (offset + 1) (c :: before) rest := by
  rw [marksFrom, segmentsFrom_code h, codeChars, List.filterMap_cons]
  cases hm : Mark.ofChar? c <;> simp only [hm] <;> rfl

theorem marksFrom_literal {body : List Char} (h : IsLiteral body) (offset : Nat)
    (before rest : List Char) : marksFrom offset before (literal body ++ rest) =
      marksFrom (offset + (literal body).length) ((literal body).reverse ++ before) rest := by
  rw [marksFrom, segmentsFrom_literal h, codeChars]
  · rfl
  · exact nofun

/-! ### Balanced brackets -/

/-- Puts finished spans into the innermost open span, or else among the outermost ones. -/
def addSpans (stack : List OpenSpan) (roots spans : List Span) : List OpenSpan × List Span :=
  match stack with
  | [] => ([], spans.reverse ++ roots)
  | top :: below => ({ top with children := spans.reverse ++ top.children } :: below, roots)

theorem addSpans_nil (stack : List OpenSpan) (roots : List Span) :
    addSpans stack roots [] = (stack, roots) := by
  cases stack <;> rfl

theorem addSpans_append (stack : List OpenSpan) (roots a b : List Span) :
    addSpans stack roots (a ++ b) =
      addSpans (addSpans stack roots a).1 (addSpans stack roots a).2 b := by
  cases stack <;> simp [addSpans]

/-- Whether brackets nest to spans whatever is open before them. -/
def Balanced (marks : List (Nat × Mark)) (spans : List Span) : Prop :=
  ∀ stack roots rest, nest stack roots (marks ++ rest) =
    nest (addSpans stack roots spans).1 (addSpans stack roots spans).2 rest

theorem balanced_nil : Balanced [] [] := by
  intro stack roots rest
  rw [addSpans_nil, List.nil_append]

theorem Balanced.append {a b : List (Nat × Mark)} {s t : List Span} (ha : Balanced a s)
    (hb : Balanced b t) : Balanced (a ++ b) (s ++ t) := by
  intro stack roots rest
  rw [List.append_assoc, ha, hb, addSpans_append]

theorem Balanced.enclose {marks : List (Nat × Mark)} {spans : List Span} (h : Balanced marks spans)
    (kind : Bracket) (start stop : Nat) :
    Balanced ((start, .opens kind) :: (marks ++ [(stop, .closes kind)]))
      [⟨kind, start, stop, spans⟩] := by
  intro stack roots rest
  rw [List.cons_append, List.append_assoc, List.singleton_append, nest, h]
  simp only [addSpans, List.append_nil]
  cases stack <;> rw [nest, if_pos rfl] <;> simp

/-! ### Blanked spans -/

/-- The text at an offset with everything that some spans cover made blank. -/
def blankSpans (spans : List Span) (offset : Nat) (text : List Char) : List Char :=
  (text.zipIdx offset).map fun (c, i) => if spans.any (·.covers i) then blankOut c else c

theorem ownText_eq (text : List Char) (s : Span) :
    s.ownText text = blankSpans s.children (s.start + 1) (s.interior text) := rfl

theorem blankSpans_nil (offset : Nat) (text : List Char) : blankSpans [] offset text = text := by
  simp only [blankSpans, List.any_nil, Bool.false_eq_true, if_false]
  exact List.zipIdx_map_fst ..

theorem blankSpans_append (spans : List Span) (offset : Nat) (a b : List Char) :
    blankSpans spans offset (a ++ b) =
      blankSpans spans offset a ++ blankSpans spans (offset + a.length) b := by
  rw [blankSpans, List.zipIdx_append, List.map_append]
  rfl

/-- Only the spans that meet a text matter for it. -/
theorem blankSpans_congr {spans spans' : List Span} {offset : Nat} {text : List Char}
    (h : ∀ i, offset ≤ i → i < offset + text.length →
      spans.any (·.covers i) = spans'.any (·.covers i)) :
    blankSpans spans offset text = blankSpans spans' offset text := by
  refine List.map_congr_left fun ⟨c, i⟩ hmem => ?_
  obtain ⟨hle, hlt, -⟩ := List.mem_zipIdx hmem
  show (if _ then _ else _) = if _ then _ else _
  rw [h i hle hlt]

theorem blankSpans_covered {s : Span} {offset : Nat} {text : List Char}
    (h : ∀ i, offset ≤ i → i < offset + text.length → s.covers i = true) :
    blankSpans [s] offset text = text.map blankOut := by
  rw [← List.zipIdx_map_fst offset text, List.map_map, List.zipIdx_map_fst]
  refine List.map_congr_left fun ⟨c, i⟩ hmem => ?_
  obtain ⟨hle, hlt, -⟩ := List.mem_zipIdx hmem
  simp [h i hle hlt]

/-- Whether spans lie between two offsets. -/
def Within (spans : List Span) (start stop : Nat) : Prop :=
  ∀ s ∈ spans, start ≤ s.start ∧ s.stop < stop

theorem Within.not_covers {spans : List Span} {start stop : Nat} (h : Within spans start stop)
    {i : Nat} (hi : i < start ∨ stop ≤ i) : spans.any (·.covers i) = false := by
  rw [List.any_eq_false]
  intro s hs
  obtain ⟨hstart, hstop⟩ := h s hs
  simp only [Span.covers, Bool.and_eq_true, decide_eq_true_eq]
  omega

/-! ### Pieces -/

/-- Whether a text at an offset has certain spans of its own, and what is left outside of them. -/
structure Piece (text : List Char) (spans : Nat → List Span) (own : List Char) : Prop where
  marks (offset : Nat) (before rest : List Char) : ∃ marks,
    marksFrom offset before (text ++ rest) =
        marks ++ marksFrom (offset + text.length) (text.reverse ++ before) rest ∧
      Balanced marks (spans offset)
  within (offset : Nat) : Within (spans offset) offset (offset + text.length)
  own (offset : Nat) : blankSpans (spans offset) offset text = own

namespace Piece

theorem nil : Piece [] (fun _ => []) [] where
  marks _ _ _ := ⟨[], rfl, balanced_nil⟩
  within _ := nofun
  own _ := rfl

theorem append {a b own own' : List Char} {s t : Nat → List Span} (ha : Piece a s own)
    (hb : Piece b t own') :
    Piece (a ++ b) (fun offset => s offset ++ t (offset + a.length)) (own ++ own') where
  marks offset before rest := by
    obtain ⟨ms, hms, hs⟩ := ha.marks offset before (b ++ rest)
    obtain ⟨ns, hns, ht⟩ := hb.marks (offset + a.length) (a.reverse ++ before) rest
    refine ⟨ms ++ ns, ?_, hs.append ht⟩
    rw [List.append_assoc, hms, hns, List.reverse_append, List.append_assoc, List.append_assoc,
      List.length_append, Nat.add_assoc]
  within offset := by
    intro x hx
    rw [List.length_append]
    rcases List.mem_append.mp hx with hx | hx
    · have := ha.within offset x hx
      omega
    · have := hb.within (offset + a.length) x hx
      omega
  own offset := by
    rw [blankSpans_append, ← ha.own offset, ← hb.own (offset + a.length)]
    congr 1
    · refine blankSpans_congr fun i _ hi => ?_
      rw [List.any_append, (hb.within (offset + a.length)).not_covers (.inl hi), Bool.or_false]
    · refine blankSpans_congr fun i hi _ => ?_
      rw [List.any_append, (ha.within offset).not_covers (.inr hi), Bool.false_or]

theorem code {c : Char} (h : IsCode c) (hmark : Mark.ofChar? c = none) :
    Piece [c] (fun _ => []) [c] where
  marks offset before rest := by
    refine ⟨[], ?_, balanced_nil⟩
    rw [List.singleton_append, marksFrom_code h, hmark]
    rfl
  within _ := nofun
  own offset := blankSpans_nil offset [c]

theorem append_plain {a b own own' : List Char} {t : Nat → List Span}
    (ha : Piece a (fun _ => []) own) (hb : Piece b t own') :
    Piece (a ++ b) (fun offset => t (offset + a.length)) (own ++ own') := ha.append hb

theorem append_plain_right {a b own own' : List Char} {s : Nat → List Span} (ha : Piece a s own)
    (hb : Piece b (fun _ => []) own') : Piece (a ++ b) s (own ++ own') := by
  simpa using ha.append hb

theorem word {text : List Char} (h : ∀ c ∈ text, IsCode c ∧ Mark.ofChar? c = none) :
    Piece text (fun _ => []) text := by
  induction text with
  | nil => exact nil
  | cons c text ih =>
    obtain ⟨⟨hc, hmark⟩, htext⟩ := List.forall_mem_cons.mp h
    exact (code hc hmark).append_plain (ih htext)

theorem literal {body : List Char} (h : IsLiteral body) :
    Piece (Script.literal body) (fun _ => []) (Script.literal body) where
  marks offset before rest := ⟨[], marksFrom_literal h offset before rest, balanced_nil⟩
  within _ := nofun
  own offset := blankSpans_nil offset _

theorem isCode_bracket (kind : Bracket) :
    (IsCode kind.opening ∧ Mark.ofChar? kind.opening = some (.opens kind)) ∧
      IsCode kind.closing ∧ Mark.ofChar? kind.closing = some (.closes kind) := by
  cases kind <;> decide

/-- A piece between brackets has one span, which covers all of it. -/
theorem enclose {text own : List Char} {spans : Nat → List Span} (h : Piece text spans own)
    (kind : Bracket) :
    Piece (kind.opening :: (text ++ [kind.closing]))
      (fun offset => [⟨kind, offset, offset + 1 + text.length, spans (offset + 1)⟩])
      ((kind.opening :: (text ++ [kind.closing])).map blankOut) where
  marks offset before rest := by
    obtain ⟨⟨hopen, hopens⟩, hclose, hcloses⟩ := isCode_bracket kind
    obtain ⟨ms, hms, hbalanced⟩ := h.marks (offset + 1) (kind.opening :: before) (kind.closing :: rest)
    refine ⟨_, ?_, hbalanced.enclose kind offset (offset + 1 + text.length)⟩
    rw [List.cons_append, List.append_assoc, List.singleton_append, marksFrom_code hopen, hms,
      marksFrom_code hclose, hopens, hcloses]
    simp [Nat.add_assoc, Nat.add_comm 1]
  within offset := by
    intro s hs
    rw [List.mem_singleton.mp hs]
    simp only [List.length_cons, List.length_append, List.length_nil]
    omega
  own offset := by
    refine blankSpans_covered fun i hi hlt => ?_
    simp only [List.length_cons, List.length_append, List.length_nil] at hlt
    simp only [Span.covers, Bool.and_eq_true, decide_eq_true_eq]
    omega

end Piece

theorem spans_of_piece {text own : List Char} {f : Nat → List Span} (h : Piece text f own) :
    spans text = .ok (f 0) := by
  obtain ⟨ms, hms, hbalanced⟩ := h.marks 0 [] []
  rw [List.append_nil, marksFrom_nil, List.append_nil] at hms
  have hnest := hbalanced [] [] []
  rw [List.append_nil] at hnest
  rw [spans, marks_eq_marksFrom, hms, hnest]
  simp [addSpans, nest]

/-- The text of a span whose brackets enclose a piece. -/
theorem ownText_of_piece {text own : List Char} {f : Nat → List Span} (h : Piece text f own)
    (kind : Bracket) (left right : List Char) :
    Span.ownText (left ++ kind.opening :: (text ++ kind.closing :: right))
      ⟨kind, left.length, left.length + 1 + text.length, f (left.length + 1)⟩ = own := by
  have hinterior : Span.interior (left ++ kind.opening :: (text ++ kind.closing :: right))
      ⟨kind, left.length, left.length + 1 + text.length, f (left.length + 1)⟩ = text := by
    rw [Span.interior, List.drop_append, List.drop_of_length_le (Nat.le_succ _)]
    simp
  rw [ownText_eq, hinterior]
  exact h.own _

end RouteInventory.Script
