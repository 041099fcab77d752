import RouteInventory.Script.Literal
import RouteInventory.Text.Blank

/-!
# Segments of script text

A script is a sequence of segments: single characters of code, string and regular-expression
literals, and comments. `segments` divides a text, `text_segments` says that nothing is lost.
`stripComments` is the text with the comment segments blanked, so that every offset keeps its
meaning; the bracket structure is read from the text so cleaned, in which no comments are left to
recognise (`Reading.bare`).
-/

namespace RouteInventory.Script

inductive Segment
  | code (c : Char)
  | string (text : List Char)
  | regex (text : List Char)
  | lineComment (text : List Char)
  | blockComment (text : List Char)
deriving DecidableEq, Repr

/-- Whether comments are recognised, or slashes only divide and open regular expressions. -/
inductive Reading
  | commented
  | bare
deriving DecidableEq, Repr

namespace Segment

def text : Segment → List Char
  | code c => [c]
  | string text => text
  | regex text => text
  | lineComment text => text
  | blockComment text => text

def isComment : Segment → Bool
  | lineComment _ => true
  | blockComment _ => true
  | _ => false

/-- The segment with a comment's characters blanked, line feeds apart. -/
def stripped (s : Segment) : List Char := if s.isComment then s.text.map Text.blankOut else s.text

theorem length_stripped (s : Segment) : s.stripped.length = s.text.length := by
  unfold stripped
  split <;> simp

end Segment

/-- The text through the first end of a block comment, and the text after it. -/
def splitBlock : List Char → List Char × List Char
  | [] => ([], [])
  | '*' :: '/' :: rest => (['*', '/'], rest)
  | c :: rest =>
    let (body, after) := splitBlock rest
    (c :: body, after)

theorem splitBlock_append (text : List Char) : (splitBlock text).1 ++ (splitBlock text).2 = text := by
  fun_induction splitBlock text <;> simp_all

theorem length_splitBlock_le (text : List Char) : (splitBlock text).2.length ≤ text.length := by
  have h := congrArg List.length (splitBlock_append text)
  rw [List.length_append] at h
  omega

/-- The segments of a text, given the text before it read backwards. -/
def segmentsFrom (reading : Reading) (before : List Char) : (text : List Char) → List Segment
  | [] => []
  | c :: rest =>
    if isQuote c then
      let parts := splitString c rest
      .string (c :: parts.1) :: segmentsFrom reading (parts.1.reverse ++ c :: before) parts.2
    else if c = '/' then
      if reading = .commented ∧ rest.head? = some '/' then
        let body := rest.takeWhile (· != '\n')
        .lineComment (c :: body) ::
          segmentsFrom reading (body.reverse ++ c :: before) (rest.dropWhile (· != '\n'))
      else if reading = .commented ∧ rest.head? = some '*' then
        let parts := splitBlock (rest.drop 1)
        .blockComment (c :: '*' :: parts.1) ::
          segmentsFrom reading (parts.1.reverse ++ '*' :: c :: before) parts.2
      -- a slash that begins no comment divides, if what stands before it can be divided
      else if opensRegex before then
        let parts := splitRegex false rest
        .regex (c :: parts.1) :: segmentsFrom reading (parts.1.reverse ++ c :: before) parts.2
      else .code c :: segmentsFrom reading (c :: before) rest
    else .code c :: segmentsFrom reading (c :: before) rest
termination_by text => text.length
decreasing_by
  · have := length_splitString_le c rest
    simp only [List.length_cons]; omega
  · have := (List.dropWhile_sublist (l := rest) (· != '\n')).length_le
    simp only [List.length_cons]; omega
  · have := length_splitBlock_le (rest.drop 1)
    simp only [List.length_cons, List.length_drop] at *; omega
  · have := length_splitRegex_le false rest
    simp only [List.length_cons]; omega
  · simp
  · simp

def segments (reading : Reading) (text : List Char) : List Segment := segmentsFrom reading [] text

/-- The text with every comment blanked. -/
def stripComments (text : List Char) : List Char :=
  (segments .commented text).flatMap Segment.stripped

theorem text_segmentsFrom (reading : Reading) (before text : List Char) :
    (segmentsFrom reading before text).flatMap Segment.text = text := by
  fun_induction segmentsFrom reading before text with
  | case1 => rfl
  | case2 before c rest h parts ih =>
    simp only [List.flatMap_cons, Segment.text, ih, List.cons_append, parts, splitString_append]
  | case3 before rest h body hq ih =>
    simp only [List.flatMap_cons, Segment.text, ih, List.cons_append, body,
      List.takeWhile_append_dropWhile]
  | case4 before rest h1 h2 parts hq ih =>
    obtain ⟨tail, rfl⟩ : ∃ tail, rest = '*' :: tail := by
      cases rest with
      | nil => simp at h2
      | cons d tail => exact ⟨tail, by simpa using h2.2⟩
    simp only [List.flatMap_cons, Segment.text, ih, List.cons_append]
    simpa [parts] using splitBlock_append tail
  | case5 before rest h1 h2 h3 parts hq ih =>
    simp only [List.flatMap_cons, Segment.text, ih, List.cons_append, parts, splitRegex_append]
  | case6 before rest h1 h2 h3 hq ih =>
    simp only [List.flatMap_cons, Segment.text, ih, List.singleton_append]
  | case7 before c rest h1 h2 ih =>
    simp only [List.flatMap_cons, Segment.text, ih, List.singleton_append]

theorem text_segments (reading : Reading) (text : List Char) :
    (segments reading text).flatMap Segment.text = text := text_segmentsFrom reading [] text

theorem length_stripComments (text : List Char) : (stripComments text).length = text.length := by
  have h := congrArg List.length (text_segments .commented text)
  rw [List.length_flatMap] at h
  simp only [stripComments, List.length_flatMap, Segment.length_stripped, h]

end RouteInventory.Script
