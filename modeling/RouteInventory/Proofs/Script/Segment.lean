import Mathlib
import RouteInventory.Script.Segment

/-!
# Texts that are divided on their own

A word of code, a string literal and a comment are made into the same segments wherever they stand in
a script. `StripsTo` says so of a text with its comments blanked; texts put together from such texts
are such texts again.
-/

namespace RouteInventory.Script

open Text

/-- A property of all characters of a text is decided by going through the text. The weight of the
instance keeps it before one that goes through all characters there are. -/
instance (priority := 1100) decidableForallMem (p : Char → Prop) [DecidablePred p]
    (text : List Char) : Decidable (∀ c ∈ text, p c) := List.decidableBAll p text

/-- Whether a character is a segment of its own, outside literals. -/
def IsCode (c : Char) : Prop := isQuote c = false ∧ c ≠ '/'

instance (c : Char) : Decidable (IsCode c) := inferInstanceAs (Decidable (_ ∧ _))

theorem segmentsFrom_code {reading : Reading} {before rest : List Char} {c : Char} (h : IsCode c) :
    segmentsFrom reading before (c :: rest) = .code c :: segmentsFrom reading (c :: before) rest := by
  rw [segmentsFrom, if_neg (by simp [h.1]), if_neg h.2]

/-! ### Literals -/

/-- Whether a text can stand between single quotes as it is. -/
def IsLiteral (body : List Char) : Prop := '\'' ∉ body ∧ '\\' ∉ body ∧ '\n' ∉ body

instance (body : List Char) : Decidable (IsLiteral body) := inferInstanceAs (Decidable (_ ∧ _))

/-- A text between single quotes. -/
def literal (body : List Char) : List Char := '\'' :: (body ++ ['\''])

theorem splitString_literal {body : List Char} (h : IsLiteral body) (rest : List Char) :
    splitString '\'' (body ++ '\'' :: rest) = (body ++ ['\''], rest) := by
  induction body with
  | nil =>
    rw [List.nil_append, splitString, if_pos rfl]
    · rfl
    · exact nofun
  | cons c body ih =>
    simp only [IsLiteral, List.mem_cons, not_or] at h
    obtain ⟨⟨hquote, hq⟩, ⟨hslash, hs⟩, hline, hl⟩ := h
    rw [List.cons_append, splitString, if_neg (Ne.symm hquote), if_neg (by simp [Ne.symm hline]),
      ih ⟨hq, hs, hl⟩]
    · rfl
    · exact fun _ _ heq _ => hslash heq.symm

theorem segmentsFrom_literal {reading : Reading} {before body : List Char} (h : IsLiteral body)
    (rest : List Char) : segmentsFrom reading before (literal body ++ rest) =
      .string (literal body) :: segmentsFrom reading ((literal body).reverse ++ before) rest := by
  rw [literal, List.cons_append, segmentsFrom, if_pos (by decide), List.append_assoc,
    List.singleton_append, splitString_literal h]
  simp

/-! ### Comments -/

theorem takeWhile_line {body : List Char} (h : '\n' ∉ body) (rest : List Char) :
    (body ++ '\n' :: rest).takeWhile (· != '\n') = body ∧
      (body ++ '\n' :: rest).dropWhile (· != '\n') = '\n' :: rest := by
  have hall : ∀ c ∈ body, (c != '\n') = true := fun c hc => by
    simpa using fun heq : c = '\n' => h (heq ▸ hc)
  constructor
  · rw [List.takeWhile_append_of_pos hall]
    simp
  · rw [List.dropWhile_append_of_pos hall]
    simp

/-- A block comment ends where its body has been read if the body has no end in itself. -/
theorem splitBlock_body {body : List Char} (h : ¬ ['*', '/'] <:+: body) (rest : List Char) :
    splitBlock (body ++ '*' :: '/' :: rest) = (body ++ ['*', '/'], rest) := by
  induction body with
  | nil => rw [List.nil_append, splitBlock, List.nil_append]
  | cons c body ih =>
    have hbody : ¬ ['*', '/'] <:+: body := fun hi => h (List.infix_cons hi)
    rw [List.cons_append, splitBlock, ih hbody]
    · rfl
    · rintro tail rfl heq
      cases body with
      | nil => exact absurd (List.cons.inj heq).1 (by decide)
      | cons d body =>
        obtain rfl := (List.cons.inj heq).1
        exact h ⟨[], body, rfl⟩

/-! ### Stripping -/

/-- Whether a text, wherever it stands, becomes another when comments are blanked. -/
def StripsTo (text stripped : List Char) : Prop :=
  ∀ before rest, (segmentsFrom .commented before (text ++ rest)).flatMap Segment.stripped =
    stripped ++ (segmentsFrom .commented (text.reverse ++ before) rest).flatMap Segment.stripped

namespace StripsTo

theorem nil : StripsTo [] [] := fun _ _ => rfl

theorem append {a a' b b' : List Char} (ha : StripsTo a a') (hb : StripsTo b b') :
    StripsTo (a ++ b) (a' ++ b') := by
  intro before rest
  rw [List.append_assoc, ha, hb, List.reverse_append, List.append_assoc, List.append_assoc]

theorem code {c : Char} (h : IsCode c) : StripsTo [c] [c] := by
  intro before rest
  rw [List.singleton_append, segmentsFrom_code h]
  rfl

theorem word {text : List Char} (h : ∀ c ∈ text, IsCode c) : StripsTo text text := by
  induction text with
  | nil => exact nil
  | cons c text ih =>
    obtain ⟨hc, htext⟩ := List.forall_mem_cons.mp h
    exact (code hc).append (ih htext)

theorem literal {body : List Char} (h : IsLiteral body) :
    StripsTo (Script.literal body) (Script.literal body) := by
  intro before rest
  rw [segmentsFrom_literal h]
  rfl

theorem lineComment {body : List Char} (h : '\n' ∉ body) :
    StripsTo ('/' :: '/' :: (body ++ ['\n'])) (' ' :: ' ' :: (body.map blankOut ++ ['\n'])) := by
  intro before rest
  have hbody : '\n' ∉ '/' :: body := by simp [h]
  obtain ⟨htake, hdrop⟩ := takeWhile_line hbody rest
  have htext : '/' :: '/' :: (body ++ ['\n']) ++ rest = '/' :: ('/' :: body ++ '\n' :: rest) := by simp
  rw [htext, segmentsFrom, if_neg (by decide), if_pos rfl, if_pos ⟨rfl, rfl⟩, htake, hdrop]
  dsimp only
  rw [segmentsFrom_code (by decide)]
  simp [Segment.stripped, Segment.isComment, Segment.text, blankOut]

theorem blockComment {body : List Char} (h : ¬ ['*', '/'] <:+: body) :
    StripsTo ('/' :: '*' :: (body ++ ['*', '/']))
      (' ' :: ' ' :: (body.map blankOut ++ [' ', ' '])) := by
  intro before rest
  have htext : '/' :: '*' :: (body ++ ['*', '/']) ++ rest =
      '/' :: '*' :: (body ++ '*' :: '/' :: rest) := by simp
  rw [htext, segmentsFrom, if_neg (by decide), if_pos rfl, if_neg (by simp), if_pos ⟨rfl, rfl⟩,
    List.drop_succ_cons, List.drop_zero, splitBlock_body h]
  simp [Segment.stripped, Segment.isComment, Segment.text, blankOut]

end StripsTo

theorem count_map_blankOut (text : List Char) : (text.map blankOut).count '\n' = text.count '\n' := by
  induction text with
  | nil => rfl
  | cons c text ih =>
    rw [List.map_cons, List.count_cons, List.count_cons, ih, blankOut]
    split <;> simp_all

theorem Segment.count_stripped (s : Segment) : s.stripped.count '\n' = s.text.count '\n' := by
  rw [stripped]
  split
  · exact count_map_blankOut s.text
  · rfl

theorem count_stripComments (text : List Char) :
    (stripComments text).count '\n' = text.count '\n' := by
  have htext := congrArg (List.count '\n') (text_segments .commented text)
  rw [← htext, stripComments, List.count_flatMap, List.count_flatMap]
  congr 2
  exact funext Segment.count_stripped

theorem stripComments_of_stripsTo {text stripped : List Char} (h : StripsTo text stripped) :
    stripComments text = stripped := by
  have := h [] []
  rw [List.append_nil, segmentsFrom] at this
  simpa [stripComments, segments] using this

theorem StripsTo.count_line {text stripped : List Char} (h : StripsTo text stripped) :
    stripped.count '\n' = text.count '\n' := by
  rw [← stripComments_of_stripsTo h, count_stripComments]

end RouteInventory.Script
