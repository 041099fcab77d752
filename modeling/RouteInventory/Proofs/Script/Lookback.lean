import RouteInventory.Proofs.Script.Division
import RouteInventory.Proofs.Script.Tree

/-!
# Segments before and behind blanked spans

Where spans are blanked, the segments of a text that stand outside of them stay segments
(`Segment.FitsBare.blanked`): a literal ends where it ended, since no literal ends because of what a bracket is,
and a slash is read as it was read (`LooksBack.opensRegex_eq`), unless it stands right behind a bracket, which
is no longer seen.
-/

namespace RouteInventory.Script

open Text

/-! ### What a slash is read by -/

/-- The characters that are passed over in the search for what a slash is read by. -/
def isGap (c : Char) : Bool := c = ' ' || c = '\t' || c = '\r' || c = '\n'

variable {before shown after text : List Char} {c : Char}

theorem opensRegex_eq (before : List Char) : opensRegex before =
    match before.dropWhile isGap with
    | [] => true
    | c :: rest => operandFollows c || (c = '>' && rest.head? == some '=') || endsInReturn (c :: rest) := rfl

theorem opensRegex_of_gap (h : isGap c = true) : opensRegex (c :: before) = opensRegex before := by
  rw [opensRegex_eq, opensRegex_eq, List.dropWhile_cons_of_pos h]

theorem opensRegex_cons (h : isGap c = false) : opensRegex (c :: before) =
    (operandFollows c || (c = '>' && before.head? == some '=') || endsInReturn (c :: before)) := by
  rw [opensRegex_eq, List.dropWhile_cons_of_neg (by simp [h])]

theorem endsInReturn_iff : endsInReturn before = true ↔
    ∃ rest, before = "nruter".toList ++ rest ∧ rest.head?.any isIdentifier = false := by
  rw [endsInReturn, Bool.and_eq_true, beq_iff_eq, Bool.not_eq_true']
  constructor
  · rintro ⟨htake, hhead⟩
    exact ⟨before.drop 6, by rw [← htake, List.take_append_drop], hhead⟩
  · rintro ⟨rest, rfl, hhead⟩
    exact ⟨rfl, hhead⟩

/-- Whether a text, read backwards, begins with a closing bracket, gaps aside. -/
def FollowsBracket (before : List Char) : Prop :=
  ∃ kind : Bracket, (before.dropWhile isGap).head? = some kind.closing

instance (before : List Char) : Decidable (FollowsBracket before) :=
  decidable_of_iff (∃ kind ∈ [Bracket.brace, Bracket.square],
      (before.dropWhile isGap).head? = some kind.closing)
    ⟨fun ⟨kind, _, h⟩ => ⟨kind, h⟩, fun ⟨kind, h⟩ => ⟨kind, by cases kind <;> simp, h⟩⟩

/-- Whether a text is shown as another, both read backwards, when spans in it are blanked: the text between
the opening bracket of the span that is shown and an offset. -/
inductive LooksBack : (before shown : List Char) → Prop
  | opening (kind : Bracket) (rest : List Char) : LooksBack (kind.opening :: rest) []
  | own (c : Char) {before shown : List Char} (h : LooksBack before shown) :
      LooksBack (c :: before) (c :: shown)
  | closing (kind : Bracket) (inner : List Char) {blanks before shown : List Char}
      (hblanks : ∀ c ∈ blanks, isGap c = true) (h : LooksBack before shown) :
      LooksBack (kind.closing :: (inner ++ before)) (' ' :: (blanks ++ shown))

theorem mem_bracketChars (kind : Bracket) : kind.opening ∈ bracketChars ∧ kind.closing ∈ bracketChars := by
  cases kind <;> decide

namespace LooksBack

/-- A class of characters without brackets and the space is met in both texts or in none. -/
theorem any_head? {p : Char → Bool} (h : LooksBack before shown) (hbrackets : ∀ c ∈ bracketChars, p c = false)
    (hspace : p ' ' = false) : before.head?.any p = shown.head?.any p := by
  cases h with
  | opening kind rest => exact hbrackets _ (mem_bracketChars kind).1
  | own c _ => rfl
  | closing kind inner _ _ => exact (hbrackets _ (mem_bracketChars kind).2).trans hspace.symm

theorem of_append {word : List Char} (h : LooksBack (word ++ before) shown)
    (hword : ∀ c ∈ word, c ∉ bracketChars) : ∃ shown', shown = word ++ shown' ∧ LooksBack before shown' := by
  induction word generalizing shown with
  | nil => exact ⟨shown, rfl, h⟩
  | cons c word ih =>
    obtain ⟨hc, hword⟩ := List.forall_mem_cons.mp hword
    generalize hall : c :: word ++ before = all at h
    cases h with
    | opening kind _ =>
      obtain ⟨rfl, -⟩ := List.cons.inj hall
      exact absurd (mem_bracketChars kind).1 hc
    | own d hrest =>
      obtain ⟨rfl, rfl⟩ := List.cons.inj hall
      obtain ⟨shown', rfl, hbefore⟩ := ih hrest hword
      exact ⟨shown', rfl, hbefore⟩
    | closing kind _ _ _ =>
      obtain ⟨rfl, -⟩ := List.cons.inj hall
      exact absurd (mem_bracketChars kind).2 hc

theorem of_append_shown {word : List Char} (h : LooksBack before (word ++ shown))
    (hword : ∀ c ∈ word, isGap c = false) : ∃ before', before = word ++ before' ∧ LooksBack before' shown := by
  induction word generalizing before with
  | nil => exact ⟨before, rfl, h⟩
  | cons c word ih =>
    obtain ⟨hc, hword⟩ := List.forall_mem_cons.mp hword
    generalize hall : c :: word ++ shown = all at h
    cases h with
    | opening kind _ => cases hall
    | own d hrest =>
      obtain ⟨rfl, rfl⟩ := List.cons.inj hall
      obtain ⟨before', rfl, hshown⟩ := ih hrest hword
      exact ⟨before', rfl, hshown⟩
    | closing kind _ _ _ =>
      obtain ⟨rfl, -⟩ := List.cons.inj hall
      cases hc

theorem endsInReturn_eq (h : LooksBack before shown) : endsInReturn before = endsInReturn shown := by
  have hidentifier : ∀ c ∈ bracketChars, isIdentifier c = false := by decide
  rw [Bool.eq_iff_iff, endsInReturn_iff, endsInReturn_iff]
  constructor
  · rintro ⟨rest, rfl, hhead⟩
    obtain ⟨shown', rfl, hrest⟩ := h.of_append (by decide)
    exact ⟨shown', rfl, hrest.any_head? hidentifier (by decide) ▸ hhead⟩
  · rintro ⟨rest, rfl, hhead⟩
    obtain ⟨before', rfl, hrest⟩ := h.of_append_shown (by decide)
    exact ⟨before', rfl, (hrest.any_head? hidentifier (by decide)).trans hhead⟩

/-- A slash is read alike in the text and as it is shown, unless a bracket stands right before it. -/
theorem opensRegex_eq (h : LooksBack before shown) :
    opensRegex before = opensRegex shown ∨ FollowsBracket before := by
  induction h with
  | opening kind rest =>
    refine .inl ?_
    cases kind <;> rfl
  | @own c before shown h ih =>
    cases hgap : isGap c with
    | true =>
      rw [opensRegex_of_gap hgap, opensRegex_of_gap hgap, FollowsBracket, List.dropWhile_cons_of_pos hgap]
      exact ih
    | false =>
      have harrow := h.any_head? (p := (· == '=')) (by decide) (by decide)
      have hhead (head : Option Char) : (head == some '=') = head.any (· == '=') := by cases head <;> rfl
      refine .inl ?_
      rw [opensRegex_cons hgap, opensRegex_cons hgap, hhead, hhead, harrow, (h.own c).endsInReturn_eq]
  | closing kind inner _ _ _ =>
    refine .inr ⟨kind, ?_⟩
    cases kind <;> rfl

end LooksBack

/-! ### Where literals end -/

/-- Whether a text and what is shown in its place begin alike, or one with a bracket and the other with a space
or not at all. -/
def BeginsAlike (after shown : List Char) : Prop :=
  ∃ c, after.head? = some c ∧ (shown.head? = some c ∨ c ∈ bracketChars ∧ ∀ d ∈ shown.head?, d = ' ')

theorem BeginsAlike.ne_nil (h : BeginsAlike after shown) : after ≠ [] := by
  rintro rfl
  obtain ⟨c, hc, -⟩ := h
  cases hc

theorem BeginsAlike.any_head? {p : Char → Bool} (h : BeginsAlike after shown)
    (hbrackets : ∀ c ∈ bracketChars, p c = false) (hspace : p ' ' = false) :
    after.head?.any p = shown.head?.any p := by
  obtain ⟨c, hc, heq | ⟨hbracket, hblank⟩⟩ := h
  · rw [hc, heq]
  · rw [hc, Option.any_some, hbrackets c hbracket]
    cases hd : shown.head? with
    | none => rfl
    | some d =>
      rw [hblank d hd]
      exact hspace.symm

theorem BeginsAlike.exists_line {rest : List Char} (h : BeginsAlike ('\n' :: rest) shown) :
    ∃ rest', shown = '\n' :: rest' := by
  obtain ⟨c, hc, heq | ⟨hbracket, -⟩⟩ := h
  · exact List.head?_eq_some_iff.mp (heq.trans hc.symm)
  · obtain rfl : '\n' = c := Option.some.inj hc
    exact absurd hbracket (by decide)

theorem StringRest.blanked {quote : Char} {body : List Char} (h : StringRest quote body after)
    (hafter : BeginsAlike after shown) : StringRest quote body shown := by
  induction h with
  | ended => exact absurd rfl hafter.ne_nil
  | closed after => exact .closed shown
  | broken hquote rest =>
    obtain ⟨rest', rfl⟩ := hafter.exists_line
    exact .broken hquote rest'
  | escaped c _ ih => exact .escaped c (ih hafter)
  | plain hquote hline hescape _ ih =>
    refine .plain hquote hline (fun hc => absurd (hescape hc) ?_) (ih hafter)
    exact List.append_ne_nil_of_right_ne_nil _ hafter.ne_nil

theorem RegexRest.blanked {inClass : Bool} {body : List Char} (h : RegexRest inClass body after)
    (hafter : BeginsAlike after shown) : RegexRest inClass body shown := by
  induction h with
  | ended => exact absurd rfl hafter.ne_nil
  | broken inClass rest =>
    obtain ⟨rest', rfl⟩ := hafter.exists_line
    exact .broken inClass rest'
  | closed hflags hend =>
    refine .closed hflags ((Option.any_eq_false _ _).mp ?_)
    rw [← hafter.any_head? (by decide) (by decide)]
    exact (Option.any_eq_false _ _).mpr hend
  | escaped c _ ih => exact .escaped c (ih hafter)
  | classed hline hescape _ ih =>
    refine .classed hline (fun hc => absurd (hescape hc) ?_) (ih hafter)
    exact List.append_ne_nil_of_right_ne_nil _ hafter.ne_nil
  | plain hline hslash hescape _ ih =>
    refine .plain hline hslash (fun hc => absurd (hescape hc) ?_) (ih hafter)
    exact List.append_ne_nil_of_right_ne_nil _ hafter.ne_nil

/-! ### Segments of texts without comments -/

/-- Whether a segment can stand between a text, read backwards, and another one where comments are not looked
for. -/
def Segment.FitsBare (before : List Char) (s : Segment) (after : List Char) : Prop :=
  match s with
  | code c => isQuote c = false ∧ (c = '/' → opensRegex before = false)
  | string text => ∃ quote body, text = quote :: body ∧ isQuote quote = true ∧ StringRest quote body after
  | regex text => ∃ body, text = '/' :: body ∧ opensRegex before = true ∧ RegexRest false body after
  | lineComment _ => False
  | blockComment _ => False

theorem segmentsFrom_of_fitsBare {s : Segment} (h : s.FitsBare before after) :
    segmentsFrom .bare before (s.text ++ after) =
      s :: segmentsFrom .bare (s.text.reverse ++ before) after := by
  cases s with
  | code c =>
    obtain ⟨hquote, hslash⟩ := h
    by_cases hc : c = '/'
    · have hopens := hslash hc
      subst hc
      rw [Segment.text, List.singleton_append, segmentsFrom, if_neg (by decide), if_pos rfl,
        if_neg (by simp), if_neg (by simp), if_neg (Bool.eq_false_iff.mp hopens)]
      rfl
    · exact segmentsFrom_code ⟨hquote, hc⟩
  | string text =>
    obtain ⟨quote, body, rfl, hquote, hrest⟩ := h
    rw [Segment.text, List.cons_append, segmentsFrom, if_pos hquote, splitString_of_rest hquote hrest]
    simp
  | regex text =>
    obtain ⟨body, rfl, hopens, hrest⟩ := h
    rw [Segment.text, List.cons_append, segmentsFrom, if_neg (by decide), if_pos rfl, if_neg (by simp),
      if_neg (by simp), if_pos hopens, splitRegex_of_rest hrest]
    simp
  | lineComment text => exact h.elim
  | blockComment text => exact h.elim

theorem exists_fitsBare {s : Segment} {rest : List Segment} (h : segmentsFrom .bare before text = s :: rest) :
    ∃ after, text = s.text ++ after ∧ s.FitsBare before after := by
  revert h
  fun_cases segmentsFrom .bare before text <;> intro h
  · cases h
  · rename_i c rest hquote parts
    obtain ⟨rfl, -⟩ := List.cons.inj h
    exact ⟨parts.2, congrArg (c :: ·) (splitString_append c rest).symm, c, parts.1, rfl, hquote,
      stringRest_splitString c rest⟩
  · rename_i hline _ _
    cases hline.1
  · rename_i hblock _ _
    cases hblock.1
  · rename_i rest _ _ hopens parts _
    obtain ⟨rfl, -⟩ := List.cons.inj h
    exact ⟨parts.2, congrArg ('/' :: ·) (splitRegex_append false rest).symm, parts.1, rfl, hopens,
      regexRest_splitRegex false rest⟩
  · rename_i rest _ _ hopens _
    obtain ⟨rfl, -⟩ := List.cons.inj h
    exact ⟨rest, rfl, by decide, fun _ => Bool.eq_false_iff.mpr hopens⟩
  · rename_i c rest hquote hslash
    obtain ⟨rfl, -⟩ := List.cons.inj h
    exact ⟨rest, rfl, Bool.eq_false_iff.mpr hquote, fun hc => absurd hc hslash⟩

/-- A segment still fits as the text around it is shown, unless it is a slash right behind a bracket that is
read in another way there. -/
theorem Segment.FitsBare.blanked {s : Segment} {shownBefore shownAfter : List Char} (h : s.FitsBare before after)
    (hbefore : LooksBack before shownBefore) (hafter : BeginsAlike after shownAfter)
    (hslash : s.isSlash = true → FollowsBracket before → opensRegex before = opensRegex shownBefore) :
    s.FitsBare shownBefore shownAfter := by
  have hread (hs : s.isSlash = true) : opensRegex before = opensRegex shownBefore :=
    hbefore.opensRegex_eq.elim id (hslash hs)
  cases s with
  | code c =>
    obtain ⟨hquote, hdivides⟩ := h
    exact ⟨hquote, fun hc => hread (by simp [isSlash, hc]) ▸ hdivides hc⟩
  | string text =>
    obtain ⟨quote, body, rfl, hquote, hrest⟩ := h
    exact ⟨quote, body, rfl, hquote, hrest.blanked hafter⟩
  | regex text =>
    obtain ⟨body, rfl, hopens, hrest⟩ := h
    exact ⟨body, rfl, hread rfl ▸ hopens, hrest.blanked hafter⟩
  | lineComment text => exact h
  | blockComment text => exact h

end RouteInventory.Script
