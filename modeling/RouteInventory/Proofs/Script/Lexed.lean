import RouteInventory.Proofs.Script.Forest
import RouteInventory.Proofs.Script.Segment

/-!
# What stands at an offset

Where a segment ends the next one begins (`Begins`), and the character there tells what it is. No
character of code lies within a literal.
-/

namespace RouteInventory.Script

/-- The characters of code of a text without comments, with their offsets. -/
def codeOf (text : List Char) : List (Nat × Char) := codeChars 0 (segments .bare text)

/-- The string literals among segments, with their offsets. -/
def stringsFrom (offset : Nat) : List Segment → List (Nat × List Char)
  | [] => []
  | .string text :: rest => (offset, text) :: stringsFrom (offset + text.length) rest
  | s :: rest => stringsFrom (offset + s.text.length) rest

/-- The string literals of a text without comments, with their offsets. -/
def stringsOf (text : List Char) : List (Nat × List Char) := stringsFrom 0 (segments .bare text)

/-- Whether a segment begins at an offset, or the text ends there. -/
def Begins (text : List Char) (offset : Nat) : Prop :=
  ∃ front back, segments .bare text = front ++ back ∧ offset = (front.flatMap Segment.text).length

/-- Whether a text stands at an offset of another. -/
def StandsAt (x text : List Char) (offset : Nat) : Prop := x <+: text.drop offset

variable {text body : List Char} {offset start i : Nat} {c : Char}

theorem standsAt_iff {x : List Char} :
    StandsAt x text offset ↔ ∀ i < x.length, text[offset + i]? = x[i]? := by
  rw [StandsAt, List.prefix_iff_getElem?]
  refine forall_congr' fun i => forall_congr' fun hi => ?_
  rw [List.getElem?_drop, List.getElem?_eq_getElem hi]

theorem standsAt_append {x y : List Char} : StandsAt (x ++ y) text offset ↔
    StandsAt x text offset ∧ StandsAt y text (offset + x.length) := by
  rw [StandsAt, StandsAt, StandsAt, ← List.drop_drop]
  constructor
  · rintro ⟨back, hback⟩
    rw [← hback, List.append_assoc]
    exact ⟨List.prefix_append .., by rw [List.drop_left]; exact List.prefix_append ..⟩
  · rintro ⟨⟨back, hback⟩, hy⟩
    rw [← hback, List.drop_left] at hy
    rw [← hback]
    exact (List.prefix_append_right_inj x).mpr hy

theorem standsAt_cons {x : List Char} : StandsAt (c :: x) text offset ↔
    text[offset]? = some c ∧ StandsAt x text (offset + 1) := by
  rw [← List.singleton_append, standsAt_append, List.length_singleton, standsAt_iff]
  simp

theorem mem_codeChars_append (start : Nat) (front : List Segment) (c : Char) (back : List Segment) :
    (start + (front.flatMap Segment.text).length, c) ∈ codeChars start (front ++ .code c :: back) := by
  induction front generalizing start with
  | nil => exact List.mem_cons_self
  | cons s front ih =>
    have h := ih (start + s.text.length)
    rw [List.flatMap_cons, List.length_append, ← Nat.add_assoc, List.cons_append]
    cases s with
    | code d => exact List.mem_cons_of_mem _ h
    | string | regex | lineComment | blockComment => exact h

theorem mem_stringsFrom_append (start : Nat) (front : List Segment) (body : List Char)
    (back : List Segment) : (start + (front.flatMap Segment.text).length, body) ∈
      stringsFrom start (front ++ .string body :: back) := by
  induction front generalizing start with
  | nil => exact List.mem_cons_self
  | cons s front ih =>
    have h := ih (start + s.text.length)
    rw [List.flatMap_cons, List.length_append, ← Nat.add_assoc, List.cons_append]
    cases s with
    | string => exact List.mem_cons_of_mem _ h
    | code | regex | lineComment | blockComment => exact h

theorem exists_of_mem_stringsFrom {list : List Segment} (h : (offset, body) ∈ stringsFrom start list) :
    ∃ front back, list = front ++ .string body :: back ∧
      offset = start + (front.flatMap Segment.text).length := by
  fun_induction stringsFrom start list with
  | case1 => cases h
  | case2 start found rest ih =>
    obtain heq | hmem := List.mem_cons.mp h
    · obtain ⟨rfl, rfl⟩ := Prod.mk.inj heq
      exact ⟨[], rest, rfl, rfl⟩
    · obtain ⟨front, back, rfl, rfl⟩ := ih hmem
      refine ⟨.string found :: front, back, rfl, ?_⟩
      simp only [List.flatMap_cons, Segment.text, List.length_append]
      omega
  | case3 start s rest _ ih =>
    obtain ⟨front, back, rfl, rfl⟩ := ih h
    refine ⟨s :: front, back, rfl, ?_⟩
    simp only [List.flatMap_cons, List.length_append]
    omega

/-! ### Beginnings -/

/-- The segments of a text without comments from an offset on. -/
def segmentsAt (text : List Char) (offset : Nat) : List Segment :=
  segmentsFrom .bare (text.take offset).reverse (text.drop offset)

theorem segmentsFrom_tail {reading : Reading} {before text : List Char} {s : Segment} {rest : List Segment}
    (h : segmentsFrom reading before text = s :: rest) :
    rest = segmentsFrom reading (s.text.reverse ++ before) (text.drop s.text.length) := by
  obtain ⟨after, hrest⟩ : ∃ after, rest = segmentsFrom reading (s.text.reverse ++ before) after := by
    revert h
    fun_cases segmentsFrom reading before text <;> intro h
    · cases h
    all_goals
      obtain ⟨rfl, rfl⟩ := List.cons.inj h
      simp only [Segment.text, List.reverse_cons, List.reverse_nil, List.nil_append, List.append_assoc,
        List.cons_append]
      exact ⟨_, rfl⟩
  have htext := text_segmentsFrom reading before text
  rw [h, List.flatMap_cons, hrest, text_segmentsFrom] at htext
  rw [hrest, ← htext, List.drop_left]

/-- The segments behind some are those of the text behind them. -/
theorem segmentsFrom_drop {reading : Reading} {before text : List Char} {front back : List Segment}
    (h : segmentsFrom reading before text = front ++ back) :
    back = segmentsFrom reading ((front.flatMap Segment.text).reverse ++ before)
      (text.drop (front.flatMap Segment.text).length) := by
  induction front generalizing before text with
  | nil => exact h.symm
  | cons s front ih =>
    have hback := ih (segmentsFrom_tail h).symm
    rwa [List.drop_drop, ← List.length_append, ← List.append_assoc, ← List.reverse_append,
      ← List.flatMap_cons] at hback

/-- The segments behind some are those from the offset on at which they begin. -/
theorem segmentsAt_append {front back : List Segment} (h : segments .bare text = front ++ back) :
    segmentsAt text (front.flatMap Segment.text).length = back := by
  have htext := text_segments .bare text
  rw [h, List.flatMap_append] at htext
  have hback := segmentsFrom_drop h
  rw [List.append_nil] at hback
  rw [segmentsAt, ← htext, List.take_left, htext, ← hback]

theorem Begins.exists_segments (h : Begins text offset) : ∃ front,
    segments .bare text = front ++ segmentsAt text offset ∧
      offset = (front.flatMap Segment.text).length := by
  obtain ⟨front, back, hsegments, rfl⟩ := h
  exact ⟨front, by rw [segmentsAt_append hsegments, hsegments], rfl⟩

theorem begins_of_mem_codeOf (h : (offset, c) ∈ codeOf text) :
    Begins text offset ∧ Begins text (offset + 1) := by
  obtain ⟨front, back, hsegments, rfl⟩ := exists_of_mem_codeChars h
  refine ⟨⟨front, _, hsegments, by omega⟩, front ++ [.code c], back, by simpa using hsegments, ?_⟩
  simp [Segment.text]

theorem begins_of_mem_stringsOf (h : (offset, body) ∈ stringsOf text) :
    Begins text (offset + body.length) := by
  obtain ⟨front, back, hsegments, rfl⟩ := exists_of_mem_stringsFrom h
  refine ⟨front ++ [.string body], back, by simpa using hsegments, ?_⟩
  simp [Segment.text]

theorem drop_of_getElem? (h : text[offset]? = some c) : ∃ rest, text.drop offset = c :: rest := by
  obtain ⟨hlt, rfl⟩ := List.getElem?_eq_some_iff.mp h
  exact ⟨_, List.drop_eq_getElem_cons hlt⟩

theorem mem_codeOf_iff (h : Begins text offset) :
    (offset, c) ∈ codeOf text ↔ (segmentsAt text offset).head? = some (.code c) := by
  constructor
  · intro hmem
    obtain ⟨front, back, hsegments, rfl⟩ := exists_of_mem_codeChars hmem
    rw [Nat.zero_add, segmentsAt_append hsegments]
    rfl
  · intro hhead
    obtain ⟨front, hsegments, rfl⟩ := h.exists_segments
    obtain ⟨rest, hrest⟩ := List.head?_eq_some_iff.mp hhead
    rw [codeOf, hsegments, hrest]
    simpa using mem_codeChars_append 0 front c rest

theorem mem_codeOf_of_begins (h : Begins text offset) (hc : text[offset]? = some c) (hcode : IsCode c) :
    (offset, c) ∈ codeOf text := by
  obtain ⟨rest, hrest⟩ := drop_of_getElem? hc
  rw [mem_codeOf_iff h, segmentsAt, hrest, segmentsFrom_code hcode]
  rfl

theorem begins_of_standsAt {x : List Char} (h : Begins text offset) (hx : StandsAt x text offset)
    (hcode : ∀ c ∈ x, IsCode c) : Begins text (offset + x.length) ∧
      ∀ i, ∀ c ∈ x[i]?, (offset + i, c) ∈ codeOf text := by
  induction x generalizing offset with
  | nil => exact ⟨h, fun i c hc => by simp at hc⟩
  | cons c x ih =>
    obtain ⟨hc, hx⟩ := standsAt_cons.mp hx
    obtain ⟨hcodec, hcode⟩ := List.forall_mem_cons.mp hcode
    have hmem := mem_codeOf_of_begins h hc hcodec
    obtain ⟨hbegins, hrest⟩ := ih (begins_of_mem_codeOf hmem).2 hx hcode
    refine ⟨?_, fun i d hd => ?_⟩
    · rwa [List.length_cons, Nat.add_comm x.length, ← Nat.add_assoc]
    · cases i with
      | zero =>
        obtain rfl : c = d := Option.some.inj hd
        exact hmem
      | succ i =>
        rw [Nat.add_comm i, ← Nat.add_assoc]
        exact hrest i d hd

theorem mem_stringsOf_of_begins (h : Begins text offset) (hc : text[offset]? = some c)
    (hquote : isQuote c = true) : ∃ rest, (offset, c :: rest) ∈ stringsOf text := by
  obtain ⟨front, hsegments, hoffset⟩ := h.exists_segments
  obtain ⟨rest, hrest⟩ := drop_of_getElem? hc
  rw [segmentsAt, hrest, segmentsFrom, if_pos hquote] at hsegments
  dsimp only at hsegments
  have hmem := mem_stringsFrom_append 0 front (c :: (splitString c rest).1)
    (segmentsFrom .bare ((splitString c rest).1.reverse ++ c :: (text.take offset).reverse)
      (splitString c rest).2)
  rw [← hsegments, Nat.zero_add, ← hoffset] at hmem
  exact ⟨_, hmem⟩

/-! ### Literals -/

theorem standsAt_of_mem_stringsOf (h : (offset, body) ∈ stringsOf text) : StandsAt body text offset := by
  obtain ⟨front, back, hsegments, rfl⟩ := exists_of_mem_stringsFrom h
  rw [StandsAt, ← text_segments .bare text, hsegments, List.flatMap_append, List.flatMap_cons,
    Nat.zero_add, List.drop_left]
  exact List.prefix_append ..

theorem codeChars_outside {list : List Segment} (hc : (i, c) ∈ codeChars start list)
    (h : (offset, body) ∈ stringsFrom start list) : i < offset ∨ offset + body.length ≤ i := by
  fun_induction codeChars start list with
  | case1 => cases hc
  | case2 start d rest ih =>
    rw [stringsFrom] at h
    · rcases List.mem_cons.mp hc with heq | hc
      · obtain ⟨rfl, rfl⟩ := Prod.mk.inj heq
        obtain ⟨front, back, -, rfl⟩ := exists_of_mem_stringsFrom h
        simp only [Segment.text, List.length_singleton]
        omega
      · exact ih hc h
    · simp
  | case3 start s rest hs ih =>
    cases s with
    | code d => exact absurd rfl (hs d)
    | string found =>
      rw [stringsFrom] at h
      rcases List.mem_cons.mp h with heq | h
      · obtain ⟨rfl, rfl⟩ := Prod.mk.inj heq
        exact .inr (le_of_mem_codeChars hc)
      · exact ih hc h
    | regex | lineComment | blockComment => exact ih hc h

/-- No character of code lies within a literal. -/
theorem codeOf_outside (hc : (i, c) ∈ codeOf text) (h : (offset, body) ∈ stringsOf text) :
    i < offset ∨ offset + body.length ≤ i := codeChars_outside hc h

end RouteInventory.Script
