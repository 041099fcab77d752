import RouteInventory.Proofs.Script.Comment

/-!
# The division of a script

A script is divided into segments by what each of them begins with, by where it ends, and, for slashes, by
what stands before it (`Segment.Fits`). The rules leave no choice: every text has one division (`Divides`), and
that is the one `segments` finds (`divides_iff`). Stripping blanks the comments of the division and keeps every
other character, so every line feed and every offset, where it is.
-/

namespace RouteInventory.Script

open Text

/-! ### Literals and comments -/

/-- How a string literal goes on behind its opening quote, and what stands behind the literal. It ends with the
first quote of its kind that no backslash keeps in it, before a line feed unless it is in backquotes, or with the
text; a backslash that ends the text keeps nothing. -/
inductive StringRest (quote : Char) : (body after : List Char) → Prop
  | ended : StringRest quote [] []
  | closed (after : List Char) : StringRest quote [quote] after
  | broken (hquote : quote ≠ backquote) (rest : List Char) : StringRest quote [] ('\n' :: rest)
  | escaped (c : Char) {body after : List Char} (h : StringRest quote body after) :
      StringRest quote ('\\' :: c :: body) after
  | plain {c : Char} {body after : List Char} (hquote : c ≠ quote) (hline : c = '\n' → quote = backquote)
      (hescape : c = '\\' → body ++ after = []) (h : StringRest quote body after) :
      StringRest quote (c :: body) after

/-- How a regular expression goes on, inside a class of characters or not, and what stands behind it. It ends with
the first slash that neither a class nor a backslash keeps in it and the word characters behind that, before a line
feed, or with the text. -/
inductive RegexRest : (inClass : Bool) → (body after : List Char) → Prop
  | ended (inClass : Bool) : RegexRest inClass [] []
  | broken (inClass : Bool) (rest : List Char) : RegexRest inClass [] ('\n' :: rest)
  | closed {flags after : List Char} (hflags : ∀ c ∈ flags, isWord c = true)
      (hafter : ∀ c ∈ after.head?, isWord c = false) : RegexRest false ('/' :: flags) after
  | escaped {inClass : Bool} (c : Char) {body after : List Char} (h : RegexRest inClass body after) :
      RegexRest inClass ('\\' :: c :: body) after
  | classed {c : Char} {body after : List Char} (hline : c ≠ '\n')
      (hescape : c = '\\' → body ++ after = []) (h : RegexRest (c != ']') body after) :
      RegexRest true (c :: body) after
  | plain {c : Char} {body after : List Char} (hline : c ≠ '\n') (hslash : c ≠ '/')
      (hescape : c = '\\' → body ++ after = []) (h : RegexRest (c = '[') body after) :
      RegexRest false (c :: body) after

/-- How a block comment goes on behind its opening: through the first end of a comment, or to the end of the text
if there is none. -/
inductive BlockRest : (body after : List Char) → Prop
  | closed {inner : List Char} (after : List Char) (h : ¬ ['*', '/'] <:+: inner) :
      BlockRest (inner ++ ['*', '/']) after
  | ended {body : List Char} (h : ¬ ['*', '/'] <:+: body) : BlockRest body []

variable {quote : Char} {inClass : Bool} {before body after text : List Char}

theorem eq_nil_of_no_escape {c : Char} (h : ∀ d rest, c = '\\' → text = d :: rest → False)
    (hc : c = '\\') : text = [] := by
  cases text with
  | nil => rfl
  | cons d rest => exact (h d rest hc rfl).elim

theorem no_escape_of_eq_nil {c : Char} (h : c = '\\' → text = []) (d : Char) (rest : List Char)
    (hc : c = '\\') (htext : text = d :: rest) : False := by
  rw [h hc] at htext
  cases htext

theorem takeWhile_of_forall_head {p : Char → Bool} (h : ∀ c ∈ text.head?, p c = false) :
    text.takeWhile p = [] ∧ text.dropWhile p = text :=
  takeWhile_of_head ((Option.any_eq_false p text.head?).mpr h)

theorem stringRest_splitString (quote : Char) (text : List Char) :
    StringRest quote (splitString quote text).1 (splitString quote text).2 := by
  fun_induction splitString quote text with
  | case1 => exact .ended
  | case2 c text body after hsplit ih =>
    rw [hsplit] at ih
    exact .escaped c ih
  | case3 text _ => exact .closed text
  | case4 c text _ _ hline =>
    obtain ⟨rfl, hquote⟩ : c = '\n' ∧ quote ≠ backquote := by simpa using hline
    exact .broken hquote text
  | case5 c text hescape hquote hline body after hsplit ih =>
    have htext : body ++ after = text := by rw [← splitString_append quote text, hsplit]
    rw [hsplit] at ih
    refine .plain hquote (fun hc => ?_) (fun hc => htext ▸ eq_nil_of_no_escape hescape hc) ih
    simpa [hc] using hline

theorem splitString_of_rest (hquote : isQuote quote = true) (h : StringRest quote body after) :
    splitString quote (body ++ after) = (body, after) := by
  have hne : quote ≠ '\\' ∧ quote ≠ '\n' := by
    constructor
    · rintro rfl
      revert hquote
      decide
    · rintro rfl
      revert hquote
      decide
  induction h with
  | ended => rfl
  | closed after =>
    rw [List.singleton_append, splitString, if_pos rfl]
    exact fun _ _ heq _ => hne.1 heq
  | broken hbackquote rest =>
    rw [List.nil_append, splitString, if_neg (Ne.symm hne.2), if_pos (by simpa using hbackquote)]
    exact fun _ _ hc _ => absurd hc (by decide)
  | escaped c _ ih => rw [List.cons_append, List.cons_append, splitString, ih]
  | plain hother hline hescape _ ih =>
    rw [List.cons_append, splitString, if_neg hother, if_neg (by simpa using hline), ih]
    exact no_escape_of_eq_nil hescape

theorem regexRest_splitRegex (inClass : Bool) (text : List Char) :
    RegexRest inClass (splitRegex inClass text).1 (splitRegex inClass text).2 := by
  fun_induction splitRegex inClass text with
  | case1 inClass => exact .ended inClass
  | case2 inClass c text body after hsplit ih =>
    rw [hsplit] at ih
    exact .escaped c ih
  | case3 inClass text _ => exact .broken inClass text
  | case4 c text hescape hline body after hsplit ih =>
    have htext : body ++ after = text := by rw [← splitRegex_append (c != ']') text, hsplit]
    rw [hsplit] at ih
    exact .classed hline (fun hc => htext ▸ eq_nil_of_no_escape hescape hc) ih
  | case5 inClass text hclass _ _ =>
    obtain rfl : inClass = false := Bool.eq_false_iff.mpr hclass
    refine .closed (List.all_eq_true.mp List.all_takeWhile) fun c hc => ?_
    have hhead := head_dropWhile isWord text
    rw [show (text.dropWhile isWord).head? = some c from hc] at hhead
    exact hhead
  | case6 inClass c text hescape hline hclass hslash body after hsplit ih =>
    obtain rfl : inClass = false := Bool.eq_false_iff.mpr hclass
    have htext : body ++ after = text := by rw [← splitRegex_append (c = '[') text, hsplit]
    rw [hsplit] at ih
    exact .plain hline hslash (fun hc => htext ▸ eq_nil_of_no_escape hescape hc) ih

theorem splitRegex_of_rest (h : RegexRest inClass body after) :
    splitRegex inClass (body ++ after) = (body, after) := by
  induction h with
  | ended => rfl
  | broken inClass rest =>
    rw [List.nil_append, splitRegex, if_pos rfl]
    exact fun _ _ hc _ => absurd hc (by decide)
  | closed hflags hafter =>
    rename_i after
    have hend := takeWhile_of_forall_head hafter
    rw [List.cons_append, splitRegex, if_neg (by decide), if_neg Bool.false_ne_true, if_pos rfl,
      List.takeWhile_append_of_pos hflags, List.dropWhile_append_of_pos hflags, hend.1, hend.2, List.append_nil]
    exact fun _ _ hc _ => absurd hc (by decide)
  | escaped c _ ih => rw [List.cons_append, List.cons_append, splitRegex, ih]
  | classed hline hescape _ ih =>
    rw [List.cons_append, splitRegex, if_neg hline, if_pos rfl, ih]
    exact no_escape_of_eq_nil hescape
  | plain hline hslash hescape _ ih =>
    rw [List.cons_append, splitRegex, if_neg hline, if_neg Bool.false_ne_true, if_neg hslash, ih]
    exact no_escape_of_eq_nil hescape

theorem splitBlock_of_not_infix (h : ¬ ['*', '/'] <:+: body) : splitBlock body = (body, []) := by
  induction body with
  | nil => rfl
  | cons c body ih =>
    rw [splitBlock, ih fun hbody => h (List.infix_cons hbody)]
    rintro rest rfl rfl
    exact h ⟨[], rest, rfl⟩

theorem splitBlock_of_rest (h : BlockRest body after) : splitBlock (body ++ after) = (body, after) := by
  cases h with
  | closed after h =>
    rw [List.append_assoc]
    exact splitBlock_body h after
  | ended h => rw [List.append_nil, splitBlock_of_not_infix h]

theorem not_infix_cons {c : Char} (h : ∀ rest, c = '*' → text = '/' :: rest → False)
    (hbody : body <+: text) (hend : ¬ ['*', '/'] <:+: body) : ¬ ['*', '/'] <:+: c :: body := by
  rw [List.infix_cons_iff, not_or]
  refine ⟨fun hprefix => ?_, hend⟩
  obtain ⟨rest, heq⟩ := hprefix.trans ((List.prefix_cons_inj c).mpr hbody)
  obtain ⟨rfl, rfl⟩ := List.cons.inj heq
  exact h rest rfl rfl

theorem blockRest_splitBlock (text : List Char) : BlockRest (splitBlock text).1 (splitBlock text).2 := by
  fun_induction splitBlock text with
  | case1 => exact .ended (by decide)
  | case2 rest => exact @BlockRest.closed [] rest (by decide)
  | case3 c text hend body after hsplit ih =>
    have htext : body ++ after = text := by rw [← splitBlock_append text, hsplit]
    rw [hsplit] at ih
    cases ih with
    | @closed inner after h =>
      have hprefix : inner <+: text := ⟨['*', '/'] ++ after, by rw [← htext]; simp⟩
      exact .closed after (not_infix_cons hend hprefix h)
    | ended h => exact .ended (not_infix_cons hend ⟨[], htext⟩ h)

/-! ### Divisions -/

/-- Whether a segment can stand between a text, read backwards, and another one. -/
def Segment.Fits (before : List Char) (s : Segment) (after : List Char) : Prop :=
  match s with
  | code c => isQuote c = false ∧
      (c = '/' → opensRegex before = false ∧ after.head? ≠ some '/' ∧ after.head? ≠ some '*')
  | string text => ∃ quote body, text = quote :: body ∧ isQuote quote = true ∧ StringRest quote body after
  | regex text => ∃ body, text = '/' :: body ∧ opensRegex before = true ∧
      (body ++ after).head? ≠ some '/' ∧ (body ++ after).head? ≠ some '*' ∧ RegexRest false body after
  | lineComment text => ∃ body, text = '/' :: '/' :: body ∧ '\n' ∉ body ∧ ∀ c ∈ after.head?, c = '\n'
  | blockComment text => ∃ body, text = '/' :: '*' :: body ∧ BlockRest body after

/-- Whether a text that stands behind another one, read backwards, consists of some segments, each of which fits
between what stands before it and what stands behind it. -/
inductive Divides : (before text : List Char) → List Segment → Prop
  | nil (before : List Char) : Divides before [] []
  | cons {before after : List Char} {s : Segment} {rest : List Segment} (hs : s.Fits before after)
      (hrest : Divides (s.text.reverse ++ before) after rest) : Divides before (s.text ++ after) (s :: rest)

/-- A segment that fits is the first one found. -/
theorem segmentsFrom_of_fits {s : Segment} (h : s.Fits before after) :
    segmentsFrom .commented before (s.text ++ after) =
      s :: segmentsFrom .commented (s.text.reverse ++ before) after := by
  cases s with
  | code c =>
    obtain ⟨hquote, hslash⟩ := h
    by_cases hc : c = '/'
    · obtain ⟨hopens, hline, hblock⟩ := hslash hc
      subst hc
      rw [Segment.text, List.singleton_append, segmentsFrom, if_neg (by decide), if_pos rfl,
        if_neg fun hhead => hline hhead.2, if_neg fun hhead => hblock hhead.2,
        if_neg (Bool.eq_false_iff.mp hopens)]
      rfl
    · exact segmentsFrom_code ⟨hquote, hc⟩
  | string text =>
    obtain ⟨quote, body, rfl, hquote, hrest⟩ := h
    rw [Segment.text, List.cons_append, segmentsFrom, if_pos hquote, splitString_of_rest hquote hrest]
    simp
  | regex text =>
    obtain ⟨body, rfl, hopens, hline, hblock, hrest⟩ := h
    rw [Segment.text, List.cons_append, segmentsFrom, if_neg (by decide), if_pos rfl,
      if_neg fun hhead => hline hhead.2, if_neg fun hhead => hblock hhead.2, if_pos hopens,
      splitRegex_of_rest hrest]
    simp
  | lineComment text =>
    obtain ⟨body, rfl, hbody, hafter⟩ := h
    have hkept : ∀ c ∈ '/' :: body, (c != '\n') = true := by
      intro c hc
      rw [bne_iff_ne]
      rintro rfl
      rcases List.mem_cons.mp hc with heq | hc
      · exact absurd heq (by decide)
      · exact hbody hc
    have hend := takeWhile_of_forall_head (p := (· != '\n')) fun c hc => by simpa using hafter c hc
    rw [Segment.text, List.cons_append, List.cons_append, segmentsFrom, if_neg (by decide), if_pos rfl,
      if_pos ⟨rfl, rfl⟩, ← List.cons_append, List.takeWhile_append_of_pos hkept,
      List.dropWhile_append_of_pos hkept, hend.1, hend.2]
    simp
  | blockComment text =>
    obtain ⟨body, rfl, hrest⟩ := h
    rw [Segment.text, List.cons_append, List.cons_append, segmentsFrom, if_neg (by decide), if_pos rfl,
      if_neg (by simp), if_pos ⟨rfl, rfl⟩, List.drop_succ_cons, List.drop_zero, splitBlock_of_rest hrest]
    simp

theorem Divides.cons_of_eq {s : Segment} {rest : List Segment} {shown : List Char} (hs : s.Fits before after)
    (htext : s.text ++ after = text) (hshown : s.text.reverse ++ before = shown)
    (hrest : Divides shown after rest) : Divides before text (s :: rest) := by
  subst htext hshown
  exact .cons hs hrest

theorem divides_segmentsFrom (before text : List Char) :
    Divides before text (segmentsFrom .commented before text) := by
  fun_induction segmentsFrom .commented before text with
  | case1 before => exact .nil before
  | case2 before c rest hquote parts ih =>
    refine .cons_of_eq ⟨c, parts.1, rfl, hquote, stringRest_splitString c rest⟩ ?_ ?_ ih
    · exact congrArg (c :: ·) (splitString_append c rest)
    · simp [Segment.text]
  | case3 before rest hline body _ ih =>
    obtain ⟨tail, rfl⟩ := List.head?_eq_some_iff.mp hline.2
    refine .cons_of_eq ⟨tail.takeWhile (· != '\n'), ?_, ?_, ?_⟩ ?_ ?_ ih
    · simp [body]
    · exact fun hmem => by simpa using List.all_eq_true.mp List.all_takeWhile _ hmem
    · intro c hc
      have hhead := head_dropWhile (· != '\n') ('/' :: tail)
      rw [show List.head? _ = some c from hc] at hhead
      simpa using hhead
    · simp [Segment.text, body]
    · simp [Segment.text, body]
  | case4 before rest _ hblock parts _ ih =>
    obtain ⟨tail, rfl⟩ := List.head?_eq_some_iff.mp hblock.2
    refine .cons_of_eq ⟨parts.1, rfl, blockRest_splitBlock tail⟩ ?_ ?_ ih
    · exact congrArg ('/' :: '*' :: ·) (splitBlock_append tail)
    · simp [Segment.text]
  | case5 before rest hline hblock hopens parts _ ih =>
    have htext := splitRegex_append false rest
    refine .cons_of_eq ⟨parts.1, rfl, hopens, ?_, ?_, regexRest_splitRegex false rest⟩ ?_ ?_ ih
    · exact fun hhead => hline ⟨rfl, htext ▸ hhead⟩
    · exact fun hhead => hblock ⟨rfl, htext ▸ hhead⟩
    · exact congrArg ('/' :: ·) htext
    · simp [Segment.text]
  | case6 before rest hline hblock hopens _ ih =>
    refine .cons_of_eq ⟨by decide, fun _ => ⟨Bool.eq_false_iff.mpr hopens, ?_, ?_⟩⟩ rfl rfl ih
    · exact fun hhead => hline ⟨rfl, hhead⟩
    · exact fun hhead => hblock ⟨rfl, hhead⟩
  | case7 before c rest hquote hslash ih =>
    exact .cons_of_eq ⟨Bool.eq_false_iff.mpr hquote, fun hc => absurd hc hslash⟩ rfl rfl ih

/-- A text is divided in one way. -/
theorem divides_iff {division : List Segment} :
    Divides before text division ↔ segmentsFrom .commented before text = division := by
  constructor
  · intro h
    induction h with
    | nil => rw [segmentsFrom]
    | cons hs _ ih => rw [segmentsFrom_of_fits hs, ih]
  · rintro rfl
    exact divides_segmentsFrom before text

/-! ### Stripped texts -/

/-- Whether an offset lies in a comment of a division. -/
def InComment (division : List Segment) (offset : Nat) : Prop :=
  ∃ front s back, division = front ++ s :: back ∧ s.isComment = true ∧
    (front.flatMap Segment.text).length ≤ offset ∧
      offset < (front.flatMap Segment.text).length + s.text.length

theorem inComment_cons {s : Segment} {rest : List Segment} {offset : Nat} :
    InComment (s :: rest) offset ↔ s.isComment = true ∧ offset < s.text.length ∨
      s.text.length ≤ offset ∧ InComment rest (offset - s.text.length) := by
  constructor
  · rintro ⟨front, comment, back, hsplit, hcomment, hle, hlt⟩
    cases front with
    | nil =>
      obtain ⟨rfl, rfl⟩ := List.cons.inj hsplit
      refine .inl ⟨hcomment, ?_⟩
      simpa using hlt
    | cons first front =>
      obtain ⟨rfl, rfl⟩ := List.cons.inj hsplit
      rw [List.flatMap_cons, List.length_append] at hle hlt
      exact .inr ⟨by omega, front, comment, back, rfl, hcomment, by omega, by omega⟩
  · rintro (⟨hcomment, hlt⟩ | ⟨hle, front, comment, back, rfl, hcomment, hle', hlt⟩)
    · exact ⟨[], s, rest, rfl, hcomment, Nat.zero_le _, by simpa using hlt⟩
    · refine ⟨s :: front, comment, back, rfl, hcomment, ?_, ?_⟩
      · rw [List.flatMap_cons, List.length_append]
        omega
      · rw [List.flatMap_cons, List.length_append]
        omega

theorem Segment.getElem?_stripped (s : Segment) (offset : Nat) :
    s.stripped[offset]? = if s.isComment then s.text[offset]?.map blankOut else s.text[offset]? := by
  unfold Segment.stripped
  split
  · exact List.getElem?_map
  · rfl

open Classical in
theorem getElem?_flatMap_stripped (division : List Segment) (offset : Nat) :
    (division.flatMap Segment.stripped)[offset]? =
      if InComment division offset then (division.flatMap Segment.text)[offset]?.map blankOut
      else (division.flatMap Segment.text)[offset]? := by
  induction division generalizing offset with
  | nil => simp
  | cons s rest ih =>
    rw [List.flatMap_cons, List.flatMap_cons]
    by_cases hlt : offset < s.text.length
    · have hin : InComment (s :: rest) offset ↔ s.isComment = true := by
        rw [inComment_cons]
        constructor
        · rintro (h | h)
          · exact h.1
          · omega
        · exact fun h => .inl ⟨h, hlt⟩
      rw [List.getElem?_append_left hlt, List.getElem?_append_left (s.length_stripped ▸ hlt),
        s.getElem?_stripped]
      exact if_congr hin.symm rfl rfl
    · have hin : InComment (s :: rest) offset ↔ InComment rest (offset - s.text.length) := by
        rw [inComment_cons]
        constructor
        · rintro (h | h)
          · exact absurd h.2 hlt
          · exact h.2
        · exact fun h => .inr ⟨Nat.le_of_not_lt hlt, h⟩
      rw [List.getElem?_append_right (Nat.le_of_not_lt hlt),
        List.getElem?_append_right (s.length_stripped.symm ▸ Nat.le_of_not_lt hlt), s.length_stripped, ih]
      exact if_congr hin.symm rfl rfl

theorem BlankedTo.getElem?_line_iff {blanked : List Char} (h : BlankedTo text blanked) (offset : Nat) :
    blanked[offset]? = some '\n' ↔ text[offset]? = some '\n' := by
  refine ⟨h.getElem?_of_ne (by decide), fun hat => ?_⟩
  induction h generalizing offset with
  | nil => exact hat
  | cons hd _ ih =>
    cases offset with
    | zero =>
      obtain rfl := Option.some.inj hat
      rcases hd with rfl | ⟨hne, -⟩
      · rfl
      · exact absurd rfl hne
    | succ offset => exact ih offset hat

/-- A text has one division into segments. Stripping comments keeps the length of the text and the places of its
line feeds; outside the comments of the division every character stays, and in them every other one becomes a
space. So a text without comments stays as it is. -/
theorem stripComments_division (text : List Char) :
    ∃ division : List Segment, (∀ other, Divides [] text other ↔ other = division) ∧
      division.flatMap Segment.text = text ∧
      (stripComments text).length = text.length ∧
      (∀ offset : Nat, (stripComments text)[offset]? = some '\n' ↔ text[offset]? = some '\n') ∧
      (∀ offset : Nat, ¬ InComment division offset → (stripComments text)[offset]? = text[offset]?) ∧
      (∀ (offset : Nat) (c : Char), InComment division offset → text[offset]? = some c → c ≠ '\n' →
        (stripComments text)[offset]? = some ' ') ∧
      ((∀ s ∈ division, s.isComment = false) → stripComments text = text) := by
  have htext := text_segments .commented text
  have hstripped := getElem?_flatMap_stripped (segments .commented text)
  rw [htext] at hstripped
  refine ⟨segments .commented text, fun other => divides_iff.trans eq_comm, htext,
    length_stripComments text, (blankedTo_stripComments text).getElem?_line_iff, fun offset hout => ?_,
    fun offset c hin hc hline => ?_, fun hcode => ?_⟩
  · exact (hstripped offset).trans (if_neg hout)
  · rw [stripComments, hstripped, if_pos hin, hc, Option.map_some, blankOut, if_neg hline]
  · refine List.ext_getElem? fun offset => (hstripped offset).trans (if_neg ?_)
    rintro ⟨front, s, back, hsplit, hcomment, -⟩
    have hs := hcode s (by rw [hsplit]; simp)
    rw [hcomment] at hs
    cases hs

/-- The star that opens a comment does not end it. -/
example : Divides [] "/*/ a */b".toList [.blockComment "/*/ a */".toList, .code 'b'] :=
  divides_iff.mpr (by decide +kernel)

end RouteInventory.Script
