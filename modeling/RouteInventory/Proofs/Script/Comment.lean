import Mathlib.Data.List.Forall2
import RouteInventory.Proofs.Script.Segment

/-!
# Reading a text whose comments are blanked

Blanking comments keeps every other character and every line feed where it was (`BlankedTo`). A
literal is read the same when what stands behind it is blanked, so the only thing that can be read
otherwise in the stripped text is a slash: what stands before it says whether it opens a regular
expression. `SlashesAgree` says that no slash is read otherwise. Then the segments of the stripped
text are those of the text itself, with blanks in the places of the comments (`segments_stripComments`).
-/

namespace RouteInventory.Script

open Text

/-! ### Blanked texts -/

/-- Whether a character stays, or is made a space and was no line feed. -/
def IsBlankedTo (c d : Char) : Prop := d = c ∨ (c ≠ '\n' ∧ d = ' ')

/-- Whether one text is another with some characters, but no line feeds, made spaces. -/
def BlankedTo (text blanked : List Char) : Prop := List.Forall₂ IsBlankedTo text blanked

namespace BlankedTo

theorem refl (text : List Char) : BlankedTo text text := List.forall₂_same.mpr fun _ _ => .inl rfl

theorem append {a a' b b' : List Char} (ha : BlankedTo a a') (hb : BlankedTo b b') :
    BlankedTo (a ++ b) (a' ++ b') := List.rel_append ha hb

theorem map_blankOut (text : List Char) : BlankedTo text (text.map blankOut) := by
  refine List.forall₂_map_right_iff.mpr (List.forall₂_same.mpr fun c _ => ?_)
  unfold IsBlankedTo blankOut
  split
  · rename_i h
    exact .inl h.symm
  · rename_i h
    exact .inr ⟨h, rfl⟩

theorem eq_nil {text : List Char} (h : BlankedTo [] text) : text = [] := by
  cases h
  rfl

theorem head_line {rest text : List Char} (h : BlankedTo ('\n' :: rest) text) :
    ∃ rest', text = '\n' :: rest' := by
  cases h with
  | cons hd _ =>
    rcases hd with rfl | ⟨hne, -⟩
    · exact ⟨_, rfl⟩
    · exact absurd rfl hne

/-- A text does not begin with a character of a class that has no space in it because it was blanked. -/
theorem head_any {text blanked : List Char} (h : BlankedTo text blanked) {p : Char → Bool}
    (hspace : p ' ' = false) (htext : text.head?.any p = false) : blanked.head?.any p = false := by
  cases h with
  | nil => rfl
  | cons hd _ =>
    rcases hd with rfl | ⟨-, rfl⟩
    · exact htext
    · exact hspace

/-- Blanking keeps the number of line feeds before every offset. -/
theorem count_take {text blanked : List Char} (h : BlankedTo text blanked) (offset : Nat) :
    (blanked.take offset).count '\n' = (text.take offset).count '\n' := by
  induction h generalizing offset with
  | nil => rfl
  | @cons c d rest rest' hd _ ih =>
    cases offset with
    | zero => rfl
    | succ offset =>
      rw [List.take_succ_cons, List.take_succ_cons, List.count_cons, List.count_cons, ih]
      rcases hd with rfl | ⟨hne, rfl⟩
      · rfl
      · simp [hne]

theorem lineOf_eq {text blanked : List Char} (h : BlankedTo text blanked) (offset : Nat) :
    lineOf blanked offset = lineOf text offset := by rw [lineOf, lineOf, h.count_take]

theorem getElem?_of_ne {text blanked : List Char} (h : BlankedTo text blanked) {offset : Nat}
    {c : Char} (hc : c ≠ ' ') (hat : blanked[offset]? = some c) : text[offset]? = some c := by
  induction h generalizing offset with
  | nil => exact hat
  | cons hd _ ih =>
    cases offset with
    | zero =>
      rcases hd with rfl | ⟨-, rfl⟩
      · exact hat
      · exact absurd (Option.some.inj hat).symm hc
    | succ offset => exact ih hat

end BlankedTo

theorem Segment.blankedTo_stripped (s : Segment) : BlankedTo s.text s.stripped := by
  unfold Segment.stripped
  split
  · exact .map_blankOut s.text
  · exact .refl s.text

theorem blankedTo_flatMap_stripped (segments : List Segment) :
    BlankedTo (segments.flatMap Segment.text) (segments.flatMap Segment.stripped) := by
  induction segments with
  | nil => exact .refl []
  | cons s rest ih => exact s.blankedTo_stripped.append ih

theorem blankedTo_segmentsFrom (reading : Reading) (before text : List Char) :
    BlankedTo text ((segmentsFrom reading before text).flatMap Segment.stripped) := by
  have h := blankedTo_flatMap_stripped (segmentsFrom reading before text)
  rwa [text_segmentsFrom] at h

theorem blankedTo_stripComments (text : List Char) : BlankedTo text (stripComments text) :=
  blankedTo_segmentsFrom .commented [] text

/-! ### Literals before blanked text -/

/-- A backslash that ends a text still does so when what is behind its literal is blanked. -/
theorem no_escape_of_blankedTo {c : Char} {text body after rest : List Char}
    (h : ∀ d tail, c = '\\' → text = d :: tail → False) (htext : body ++ after = text)
    (hrest : BlankedTo after rest) : ∀ d tail, c = '\\' → body ++ rest = d :: tail → False := by
  intro d tail hc heq
  cases text with
  | nil =>
    obtain ⟨rfl, rfl⟩ := List.append_eq_nil_iff.mp htext
    rw [hrest.eq_nil] at heq
    cases heq
  | cons e text => exact h e text hc rfl

/-- A string literal ends where it ended when the text behind it is blanked. -/
theorem splitString_of_blankedTo {quote : Char} {text rest : List Char}
    (h : BlankedTo (splitString quote text).2 rest) :
    splitString quote ((splitString quote text).1 ++ rest) = ((splitString quote text).1, rest) := by
  fun_induction splitString quote text with
  | case1 =>
    rw [h.eq_nil]
    rfl
  | case2 c text body after hsplit ih =>
    rw [hsplit] at ih
    dsimp only [List.cons_append]
    rw [splitString, ih h]
  | case3 text hescape =>
    dsimp only [List.singleton_append]
    rw [splitString, if_pos rfl]
    exact no_escape_of_blankedTo hescape (List.nil_append text) h
  | case4 c text _ hquote hline =>
    obtain ⟨rfl, -⟩ : c = '\n' ∧ quote ≠ backquote := by simpa using hline
    obtain ⟨rest', rfl⟩ := h.head_line
    dsimp only [List.nil_append]
    rw [splitString, if_neg hquote, if_pos hline]
    simp
  | case5 c text hescape hquote hline body after hsplit ih =>
    have htext : body ++ after = text := by rw [← splitString_append quote text, hsplit]
    rw [hsplit] at ih
    dsimp only [List.cons_append]
    rw [splitString, if_neg hquote, if_neg hline, ih h]
    exact no_escape_of_blankedTo hescape htext h

theorem head_dropWhile (p : Char → Bool) (text : List Char) : (text.dropWhile p).head?.any p = false := by
  have h := List.head?_dropWhile_not p text
  split at h
  · rename_i heq
    rw [heq]
    exact h
  · rename_i heq
    rw [heq]
    rfl

theorem takeWhile_of_head {p : Char → Bool} {text : List Char} (h : text.head?.any p = false) :
    text.takeWhile p = [] ∧ text.dropWhile p = text := by
  cases text with
  | nil => exact ⟨rfl, rfl⟩
  | cons c text =>
    have hc : ¬ p c = true := by simpa using h
    exact ⟨List.takeWhile_cons_of_neg hc, List.dropWhile_cons_of_neg hc⟩

/-- A regular expression ends where it ended when the text behind it is blanked. -/
theorem splitRegex_of_blankedTo {inClass : Bool} {text rest : List Char}
    (h : BlankedTo (splitRegex inClass text).2 rest) :
    splitRegex inClass ((splitRegex inClass text).1 ++ rest) = ((splitRegex inClass text).1, rest) := by
  fun_induction splitRegex inClass text with
  | case1 =>
    rw [h.eq_nil]
    rfl
  | case2 inClass c text body after hsplit ih =>
    rw [hsplit] at ih
    dsimp only [List.cons_append]
    rw [splitRegex, ih h]
  | case3 inClass text _ =>
    obtain ⟨rest', rfl⟩ := h.head_line
    dsimp only [List.nil_append]
    rw [splitRegex, if_pos rfl]
    exact nofun
  | case4 c text hescape hline body after hsplit ih =>
    have htext : body ++ after = text := by rw [← splitRegex_append (c != ']') text, hsplit]
    rw [hsplit] at ih
    dsimp only [List.cons_append]
    rw [splitRegex, if_neg hline, if_pos rfl, ih h]
    exact no_escape_of_blankedTo hescape htext h
  | case5 inClass text hclass hescape hline =>
    have hflags : ∀ c ∈ text.takeWhile isWord, isWord c = true := List.all_eq_true.mp List.all_takeWhile
    have hend := takeWhile_of_head (h.head_any (by decide) (head_dropWhile isWord text))
    dsimp only [List.cons_append]
    rw [splitRegex, if_neg hline, if_neg hclass, if_pos rfl, List.takeWhile_append_of_pos hflags,
      List.dropWhile_append_of_pos hflags, hend.1, hend.2, List.append_nil]
    exact nofun
  | case6 inClass c text hescape hline hclass hslash body after hsplit ih =>
    have htext : body ++ after = text := by rw [← splitRegex_append (c = '[') text, hsplit]
    rw [hsplit] at ih
    dsimp only [List.cons_append]
    rw [splitRegex, if_neg hline, if_neg hclass, if_neg hslash, ih h]
    exact no_escape_of_blankedTo hescape htext h

/-! ### Segments of the stripped text -/

/-- What a segment is in the stripped text: a comment is blanks in code, everything else is itself. -/
def Segment.residue (s : Segment) : List Segment := if s.isComment then s.stripped.map .code else [s]

/-- Whether a segment begins with a slash that is read by what stands before it. -/
def Segment.isSlash : Segment → Bool
  | code c => c = '/'
  | regex _ => true
  | _ => false

/-- Whether the slashes of some segments open regular expressions alike behind two texts, both read
backwards: the one before the segments, and that one with its comments blanked. -/
def AgreeFrom (before shown : List Char) : List Segment → Prop
  | [] => True
  | s :: rest => (s.isSlash = true → opensRegex before = opensRegex shown) ∧
      AgreeFrom (s.text.reverse ++ before) (s.stripped.reverse ++ shown) rest

instance AgreeFrom.decidable : (before shown : List Char) → (segments : List Segment) →
    Decidable (AgreeFrom before shown segments)
  | _, _, [] => .isTrue trivial
  | before, shown, s :: rest =>
    have := decidable (s.text.reverse ++ before) (s.stripped.reverse ++ shown) rest
    inferInstanceAs (Decidable (_ ∧ _))

/-- Whether every slash of a text opens a regular expression in the stripped text just if it does so in
the text. A slash can be at odds only where a comment is all that stands between it and what decides. -/
def SlashesAgree (text : List Char) : Prop := AgreeFrom [] [] (segments .commented text)

instance SlashesAgree.decidable (text : List Char) : Decidable (SlashesAgree text) :=
  AgreeFrom.decidable [] [] (segments .commented text)

theorem isCode_blankOut (c : Char) : IsCode (blankOut c) := by
  unfold blankOut
  split <;> decide

theorem segmentsFrom_word {reading : Reading} {text : List Char} (h : ∀ c ∈ text, IsCode c)
    (before rest : List Char) : segmentsFrom reading before (text ++ rest) =
      text.map .code ++ segmentsFrom reading (text.reverse ++ before) rest := by
  induction text generalizing before with
  | nil => rfl
  | cons c text ih =>
    obtain ⟨hc, htext⟩ := List.forall_mem_cons.mp h
    rw [List.cons_append, segmentsFrom_code hc, ih htext]
    simp

/-- A comment is passed over as blanks in the stripped text. -/
theorem segmentsFrom_comment {reading : Reading} {s : Segment} (h : s.isComment = true)
    (shown rest : List Char) : segmentsFrom reading shown (s.stripped ++ rest) =
      s.residue ++ segmentsFrom reading (s.stripped.reverse ++ shown) rest := by
  have hblank : ∀ c ∈ s.stripped, IsCode c := by
    rw [Segment.stripped, if_pos h]
    intro c hc
    obtain ⟨d, -, rfl⟩ := List.mem_map.mp hc
    exact isCode_blankOut d
  rw [segmentsFrom_word hblank, Segment.residue, if_pos h]

/-- A slash that begins no comment begins none when the text behind it is blanked. -/
theorem head_ne_of_blankedTo {reading : Reading} {text blanked : List Char} {c : Char}
    (h : BlankedTo text blanked) (hc : c ≠ ' ')
    (hhead : ¬(Reading.commented = .commented ∧ text.head? = some c)) :
    ¬(reading = .commented ∧ blanked.head? = some c) := by
  have hany (d : Option Char) : d.any (· = c) = false ↔ d ≠ some c := by cases d <;> simp
  rintro ⟨-, heq⟩
  have htext : text.head? ≠ some c := fun hne => hhead ⟨rfl, hne⟩
  exact (hany _).mp (h.head_any (by simpa using Ne.symm hc) ((hany _).mpr htext)) heq

theorem Segment.stripped_of_not_comment {s : Segment} (h : s.isComment = false) :
    s.stripped = s.text ∧ s.residue = [s] := by simp [stripped, residue, h]

/-- Where no slash is read otherwise, the stripped text has the segments of the text itself, with the
comments blank, whether or not comments are looked for. -/
theorem segmentsFrom_stripped (reading : Reading) (before text : List Char) : ∀ shown : List Char,
    AgreeFrom before shown (segmentsFrom .commented before text) →
    segmentsFrom reading shown ((segmentsFrom .commented before text).flatMap Segment.stripped) =
      (segmentsFrom .commented before text).flatMap Segment.residue := by
  fun_induction segmentsFrom .commented before text with
  | case1 =>
    intro shown _
    rw [List.flatMap_nil, List.flatMap_nil, segmentsFrom]
  | case2 before c rest hquote parts ih =>
    intro shown h
    have hrest := blankedTo_segmentsFrom .commented (parts.1.reverse ++ c :: before) parts.2
    obtain ⟨hstripped, hresidue⟩ := Segment.stripped_of_not_comment (s := .string (c :: parts.1)) rfl
    have htail := ih _ (by simpa [Segment.text, hstripped] using h.2)
    rw [List.flatMap_cons, List.flatMap_cons, hstripped, hresidue, Segment.text, List.cons_append,
      segmentsFrom, if_pos hquote, splitString_of_blankedTo hrest, ← htail]
    rfl
  | case3 before rest _ body _ ih =>
    intro shown h
    rw [List.flatMap_cons, List.flatMap_cons, segmentsFrom_comment rfl, ih]
    simpa [Segment.text] using h.2
  | case4 before rest _ _ parts _ ih =>
    intro shown h
    rw [List.flatMap_cons, List.flatMap_cons, segmentsFrom_comment rfl, ih]
    simpa [Segment.text] using h.2
  | case5 before rest hline hblock hopens parts hquote ih =>
    intro shown h
    have hrest := blankedTo_segmentsFrom .commented (parts.1.reverse ++ '/' :: before) parts.2
    have hbody := (BlankedTo.refl parts.1).append hrest
    rw [splitRegex_append] at hbody
    obtain ⟨hstripped, hresidue⟩ := Segment.stripped_of_not_comment (s := .regex ('/' :: parts.1)) rfl
    have htail := ih _ (by simpa [Segment.text, hstripped] using h.2)
    rw [List.flatMap_cons, List.flatMap_cons, hstripped, hresidue, Segment.text, List.cons_append,
      segmentsFrom, if_neg hquote, if_pos rfl, if_neg (head_ne_of_blankedTo hbody (by decide) hline),
      if_neg (head_ne_of_blankedTo hbody (by decide) hblock), if_pos (h.1 rfl ▸ hopens),
      splitRegex_of_blankedTo hrest, ← htail]
    rfl
  | case6 before rest hline hblock hopens hquote ih =>
    intro shown h
    have hrest := blankedTo_segmentsFrom .commented ('/' :: before) rest
    obtain ⟨hstripped, hresidue⟩ := Segment.stripped_of_not_comment (s := .code '/') rfl
    rw [List.flatMap_cons, List.flatMap_cons, hstripped, hresidue, Segment.text, List.singleton_append,
      segmentsFrom, if_neg hquote, if_pos rfl, if_neg (head_ne_of_blankedTo hrest (by decide) hline),
      if_neg (head_ne_of_blankedTo hrest (by decide) hblock), if_neg (h.1 rfl ▸ hopens), ← ih _ h.2]
    rfl
  | case7 before c rest hquote hslash ih =>
    intro shown h
    obtain ⟨hstripped, hresidue⟩ := Segment.stripped_of_not_comment (s := .code c) rfl
    rw [List.flatMap_cons, List.flatMap_cons, hstripped, hresidue, Segment.text, List.singleton_append,
      segmentsFrom, if_neg hquote, if_neg hslash, ← ih _ h.2]
    rfl

theorem segments_stripComments (reading : Reading) {text : List Char} (h : SlashesAgree text) :
    segments reading (stripComments text) = (segments .commented text).flatMap Segment.residue :=
  segmentsFrom_stripped reading [] text [] h

theorem Segment.stripped_residue (s : Segment) : s.residue.flatMap stripped = s.stripped := by
  unfold residue
  split
  · rw [List.flatMap_map]
    exact List.flatMap_singleton' s.stripped
  · exact List.flatMap_singleton stripped s

/-- Comments that are blanked leave none behind. -/
theorem stripComments_of_slashesAgree {text : List Char} (h : SlashesAgree text) :
    stripComments (stripComments text) = stripComments text := by
  rw [stripComments, segments_stripComments .commented h, List.flatMap_assoc]
  exact List.flatMap_congr fun s _ => s.stripped_residue

end RouteInventory.Script
