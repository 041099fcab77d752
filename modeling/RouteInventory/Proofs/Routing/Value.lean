import RouteInventory.Proofs.Routing.OwnPath
import RouteInventory.Proofs.Script.Reread

/-!
# Where a property value ends

A value ends in front of the first comma of its object that no parenthesis keeps in it, literals and the spans
inside apart (`EndsValue`). It is read from the own text of the object, in which the spans inside are blanks
(`valueText`): up to the same offset, if the slashes right behind these are read alike (`SlashesKept`).
-/

namespace RouteInventory.Routing

open Script Script.Span Text

variable {text own : List Char} {roots : List Span} {s : Span} {depth : Int} {i start mid stop : Nat} {c : Char}

/-! ### Ends of values -/

/-- Whether a character of code stands at an offset that belongs to a span itself. -/
def OwnsCode (text : List Char) (s : Span) (i : Nat) (c : Char) : Prop := (i, c) ∈ codeOf text ∧ s.Owns i

instance (s : Span) (i : Nat) : Decidable (s.Owns i) := inferInstanceAs (Decidable (_ ∧ _ ∧ ∀ child ∈ _, _))

instance (text : List Char) (s : Span) (i : Nat) (c : Char) : Decidable (OwnsCode text s i c) :=
  inferInstanceAs (Decidable (_ ∧ _))

/-- How the depth of parentheses changes at an offset. -/
def parenthesisAt (text : List Char) (s : Span) (i : Nat) : Int :=
  if OwnsCode text s i '(' then 1 else if OwnsCode text s i ')' then -1 else 0

/-- How many more parentheses of a span open than close between two offsets. -/
def parentheses (text : List Char) (s : Span) (start stop : Nat) : Int :=
  ∑ i ∈ Finset.Ico start stop, parenthesisAt text s i

/-- Whether a value read from an offset on, inside of some parentheses, ends at another one: at the end of the
span, or in front of its first comma outside of parentheses. -/
structure EndsValue (text : List Char) (s : Span) (depth : Int) (start stop : Nat) : Prop where
  le : start ≤ stop
  ends : stop = s.stop ∨ OwnsCode text s stop ',' ∧ depth + parentheses text s start stop ≤ 0
  inside : ∀ i < stop, start ≤ i → OwnsCode text s i ',' → 0 < depth + parentheses text s start i

instance (text : List Char) (s : Span) (depth : Int) (start stop : Nat) :
    Decidable (EndsValue text s depth start stop) :=
  decidable_of_iff (start ≤ stop ∧
      (stop = s.stop ∨ OwnsCode text s stop ',' ∧ depth + parentheses text s start stop ≤ 0) ∧
      ∀ i < stop, start ≤ i → OwnsCode text s i ',' → 0 < depth + parentheses text s start i)
    ⟨fun ⟨le, ends, inside⟩ => ⟨le, ends, inside⟩, fun h => ⟨h.le, h.ends, h.inside⟩⟩

@[simp] theorem parentheses_self (text : List Char) (s : Span) (i : Nat) : parentheses text s i i = 0 := by
  rw [parentheses, Finset.Ico_self, Finset.sum_empty]

theorem parentheses_add (hle : start ≤ mid) (hle' : mid ≤ stop) :
    parentheses text s start mid + parentheses text s mid stop = parentheses text s start stop :=
  Finset.sum_Ico_consecutive _ hle hle'

theorem parentheses_eq_zero (h : ∀ i, start ≤ i → i < stop → ∀ c, ¬ OwnsCode text s i c) :
    parentheses text s start stop = 0 := by
  refine Finset.sum_eq_zero fun i hi => ?_
  obtain ⟨hle, hlt⟩ := Finset.mem_Ico.mp hi
  rw [parenthesisAt, if_neg (h i hle hlt _), if_neg (h i hle hlt _)]

namespace EndsValue

theorem le_stop (h : EndsValue text s depth start stop) : stop ≤ s.stop :=
  h.ends.elim Eq.le fun hcomma => hcomma.1.2.2.1.le

/-- A value that has not ended before an offset ends where its part from there on ends. -/
theorem of_behind (hle : start ≤ mid)
    (hinside : ∀ i < mid, start ≤ i → OwnsCode text s i ',' → 0 < depth + parentheses text s start i)
    (h : EndsValue text s (depth + parentheses text s start mid) mid stop) :
    EndsValue text s depth start stop := by
  have hsum (i : Nat) (hi : mid ≤ i) : depth + parentheses text s start mid + parentheses text s mid i =
      depth + parentheses text s start i := by
    rw [add_assoc, parentheses_add hle hi]
  refine ⟨hle.trans h.le, ?_, fun i hi hstart hcomma => ?_⟩
  · rw [← hsum stop h.le]
    exact h.ends
  · rcases Nat.lt_or_ge i mid with hlt | hge
    · exact hinside i hlt hstart hcomma
    · rw [← hsum i hge]
      exact h.inside i hi hge hcomma

theorem unique {other : Nat} (h : EndsValue text s depth start stop)
    (hother : EndsValue text s depth start other) : other = stop := by
  have hnot {a b : Nat} (ha : EndsValue text s depth start a) (hb : EndsValue text s depth start b) :
      ¬ a < b := by
    intro hlt
    rcases ha.ends with rfl | ⟨hcomma, hdepth⟩
    · exact absurd hb.le_stop (by omega)
    · exact absurd (hb.inside a hlt ha.le hcomma) (by omega)
  have := hnot h hother
  have := hnot hother h
  omega

end EndsValue

/-! ### Segments of values -/

/-- How a segment changes the depth of parentheses. -/
def turn : Segment → Int
  | .code c => if c = '(' then 1 else if c = ')' then -1 else 0
  | _ => 0

theorem valueText_cons (depth : Int) (seg : Segment) (rest : List Segment) : valueText depth (seg :: rest) =
    if seg = .code ',' ∧ depth ≤ 0 then [] else seg.text ++ valueText (depth + turn seg) rest := by
  cases seg with
  | code c =>
    have hturn : depth + turn (.code c) =
        if c = '(' then depth + 1 else if c = ')' then depth - 1 else depth := by
      simp only [turn]
      split_ifs <;> omega
    rw [valueText, hturn]
    simp [Segment.text]
  | string | regex | lineComment | blockComment =>
    rw [if_neg (by simp), turn, add_zero, valueText]
    all_goals
      intro c heq
      cases heq

/-- The depth of parentheses changes within a segment of a span as the segment tells. -/
theorem parentheses_segment {seg : Segment} {rest : List Segment} (hbegins : Begins text i)
    (hsegments : segmentsAt text i = seg :: rest)
    (howns : ∀ j, i ≤ j → j < i + seg.text.length → s.Owns j) :
    parentheses text s i (i + seg.text.length) = turn seg := by
  have hpos := length_pos_of_segmentsAt hsegments
  have hcode {j : Nat} (hle : i ≤ j) (hlt : j < i + seg.text.length) (c : Char) :
      OwnsCode text s j c ↔ j = i ∧ seg = .code c := by
    rw [OwnsCode, mem_codeOf_within_iff hbegins hsegments hle hlt]
    exact and_iff_left (howns j hle hlt)
  rw [parentheses, Finset.sum_eq_single i]
  · simp only [parenthesisAt, hcode le_rfl (Nat.lt_add_of_pos_right hpos), true_and]
    cases seg <;> simp [turn]
  · intro j hj hne
    obtain ⟨hle, hlt⟩ := Finset.mem_Ico.mp hj
    simp only [parenthesisAt, hcode hle hlt, hne, false_and, if_false]
  · intro hnot
    exact absurd (Finset.mem_Ico.mpr ⟨le_rfl, Nat.lt_add_of_pos_right hpos⟩) hnot

namespace EndsValue

/-- A span inside another neither ends a value nor changes the depth of parentheses. -/
theorem inner {child : Span} (hchild : child ∈ s.children) (hle : child.start ≤ child.stop + 1)
    (h : EndsValue text s depth (child.stop + 1) stop) : EndsValue text s depth child.start stop := by
  have hnone : ∀ i, child.start ≤ i → i < child.stop + 1 → ∀ c, ¬ OwnsCode text s i c := by
    rintro i hle hlt c ⟨-, howns⟩
    have := (owns_iff.mp howns).2.2 child hchild
    omega
  refine .of_behind hle (fun i hi hle hcomma => absurd hcomma (hnone i hle hi _)) ?_
  rwa [parentheses_eq_zero hnone, add_zero]

/-- A segment of a span that is no comma outside of parentheses does not end a value. -/
theorem segment {seg : Segment} {rest : List Segment} (hbegins : Begins text i)
    (hsegments : segmentsAt text i = seg :: rest) (howns : ∀ j, i ≤ j → j < i + seg.text.length → s.Owns j)
    (hcomma : ¬ (seg = .code ',' ∧ depth ≤ 0))
    (h : EndsValue text s (depth + turn seg) (i + seg.text.length) stop) : EndsValue text s depth i stop := by
  refine .of_behind (Nat.le_add_right i seg.text.length) (fun j hj hle hown => ?_) ?_
  · obtain ⟨rfl, rfl⟩ := (mem_codeOf_within_iff hbegins hsegments hle hj).mp hown.1
    rw [parentheses_self, add_zero]
    exact not_le.mp fun hdepth => hcomma ⟨rfl, hdepth⟩
  · rwa [parentheses_segment hbegins hsegments howns]

end EndsValue

/-! ### Reading a value -/

/-- Whether a slash of a span behind a bracket is read as in its own text, at each place between two offsets
where one begins a segment. -/
def SlashesKept (text : List Char) (s : Span) (start stop : Nat) : Prop :=
  ∀ i < stop, start ≤ i → s.Owns i → Begins text i → text[i]? = some '/' →
    FollowsBracket (text.take i).reverse →
      opensRegex (text.take i).reverse = opensRegex ((s.ownText text).take (s.place i)).reverse

theorem SlashesKept.behind (h : SlashesKept text s start stop) (hle : start ≤ mid) :
    SlashesKept text s mid stop := fun i hi hstart => h i hi (hle.trans hstart)

theorem take_of_standsAt {x : List Char} (h : StandsAt x own i) (hle : x.length ≤ stop) :
    (own.drop i).take stop = x ++ (own.drop (i + x.length)).take (stop - x.length) := by
  rw [h.split.1, List.take_append, List.take_of_length_le hle]

/-- Blanks are part of a value and do not change how it goes on. -/
theorem valueText_blanks {x : List Char} (h : StandsAt x own i) (hblank : ∀ c ∈ x, isBlank c = true) :
    valueText depth (segmentsAt own i) = x ++ valueText depth (segmentsAt own (i + x.length)) := by
  have hplain : ∀ c ∈ x, IsCode c ∧ c ≠ ',' ∧ c ≠ '(' ∧ c ≠ ')' := by
    intro c hc
    have hc := hblank c hc
    refine ⟨isCode_of_isBlank hc, ?_, ?_, ?_⟩
    all_goals
      rintro rfl
      exact absurd hc (by decide)
  obtain ⟨hdrop, htake⟩ := h.split
  rw [segmentsAt, hdrop, Continues.plain hplain, segmentsAt, htake, List.reverse_append]

/-- A value that is read from the text of a span has an end, and the reading of the own text ends there. -/
theorem exists_endsValue (hspans : spans text = .ok roots) (hs : s ∈ allOf roots) (h : s.Reads text i)
    (depth : Int) : ∃ stop, EndsValue text s depth i stop ∧ (SlashesKept text s i stop →
      valueText depth (segmentsAt (s.ownText text) (s.place i)) =
        ((s.ownText text).drop (s.place i)).take (stop - i)) := by
  induction h generalizing depth with
  | stop =>
    refine ⟨s.stop, ⟨le_rfl, .inl rfl, fun i hi hle => absurd hi (by omega)⟩, fun _ => ?_⟩
    have hlength := (isWellFormed_of_mem hspans hs).length_ownText
    have hdrop : (s.ownText text).drop (s.place s.stop) = [] := by
      rw [List.drop_eq_nil_iff, hlength, Span.place]
      omega
    rw [segmentsAt, hdrop, segmentsFrom, valueText, List.take_nil]
  | @inner child hchild h ih =>
    obtain ⟨inner, hlength, -, hblank⟩ := exists_covered hspans hs hchild
    have hparts := (parts_child hspans hs hchild).1
    generalize child.kind.opening :: (inner ++ [child.kind.closing]) = covered at hlength hblank
    obtain ⟨stop, hends, htext⟩ := ih depth
    refine ⟨stop, hends.inner hchild (by omega), fun hkept => ?_⟩
    have hle := hends.le
    have hplace : s.place child.start + (covered.map blankOut).length = s.place (child.stop + 1) := by
      rw [List.length_map, ← hlength, hparts.place_add]
    have hblanks : ∀ c ∈ covered.map blankOut, isBlank c = true := by
      intro c hc
      obtain ⟨d, -, rfl⟩ := List.mem_map.mp hc
      exact isBlank_blankOut d
    rw [valueText_blanks hblank hblanks, hplace, htext (hkept.behind (by omega)),
      take_of_standsAt hblank (by rw [List.length_map]; omega), hplace, List.length_map, Nat.sub_sub,
      hlength]
  | @segment i seg rest hbegins hsegments howns h ih =>
    have hpos := length_pos_of_segmentsAt hsegments
    have hown := howns i le_rfl (Nat.lt_add_of_pos_right hpos)
    have hread := segmentsAt_ownText hspans hs hsegments howns hown.parts (h.parts hspans hs)
    by_cases hcomma : seg = .code ',' ∧ depth ≤ 0
    · obtain ⟨rfl, hdepth⟩ := hcomma
      have hmem : (i, ',') ∈ codeOf text := by rw [mem_codeOf_iff hbegins, hsegments, List.head?_cons]
      have hends : EndsValue text s depth i i :=
        ⟨le_rfl, .inr ⟨⟨hmem, hown⟩, by simpa using hdepth⟩, fun j hj hle => absurd hj (by omega)⟩
      refine ⟨i, hends, fun _ => ?_⟩
      rw [(hread (by simp [Segment.isSlash])).2, valueText_cons, if_pos ⟨rfl, hdepth⟩, Nat.sub_self,
        List.take_zero]
    · obtain ⟨stop, hends, htext⟩ := ih (depth + turn seg)
      refine ⟨stop, hends.segment hbegins hsegments howns hcomma, fun hkept => ?_⟩
      have hle := hends.le
      have hslash (h : seg.isSlash = true) :=
        hkept i (by omega) le_rfl hown hbegins (getElem?_of_isSlash hsegments h)
      obtain ⟨hstands, hsegs⟩ := hread hslash
      rw [hsegs, valueText_cons, if_neg hcomma, htext (hkept.behind (by omega)),
        take_of_standsAt hstands (by omega), hown.parts.place_add, Nat.sub_sub]

end RouteInventory.Routing
