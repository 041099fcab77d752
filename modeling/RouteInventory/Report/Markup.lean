import RouteInventory.Report.Style

/-!
# Markup

Text with style tags in square brackets, as in `[bold]x[/bold]`. Styles leave no trace in plain text,
so a tag shows as nothing; but a tag that closes a style needs an open one. A backslash in front of a
tag makes it show as it is written; `escape` puts one there.
-/

namespace RouteInventory.Report.Markup

open Text

/-- The first character of a tag's content. -/
def opensTag (c : Char) : Bool := ('a' ≤ c && c ≤ 'z') || c = '#' || c = '/' || c = '@'

/-- A tag at the beginning of a text, brackets included, and the text behind it. -/
def tag? (text : List Char) : Option (List Char × List Char) :=
  match text with
  | '[' :: c :: rest =>
    if opensTag c then
      (bodyUpTo ']' (· = '[') rest).map fun (body, after) =>
        ('[' :: c :: body ++ [']'], after)
    else none
  | _ => none

theorem length_of_bodyUpTo {mark : Char} {barred : Char → Bool} {text body after : List Char}
    (h : bodyUpTo mark barred text = some (body, after)) : after.length < text.length := by
  induction text generalizing body with
  | nil => simp [bodyUpTo] at h
  | cons c rest ih =>
    rw [bodyUpTo] at h
    split at h
    · simp only [Option.some.injEq, Prod.mk.injEq] at h
      simp [← h.2]
    · split at h
      · simp at h
      · obtain ⟨⟨b, a⟩, hb, hab⟩ := Option.map_eq_some_iff.mp h
        simp only [Prod.mk.injEq] at hab
        obtain ⟨-, rfl⟩ := hab
        exact Nat.lt_succ_of_lt (ih hb)

theorem length_of_tag? {text tag after : List Char} (h : tag? text = some (tag, after)) :
    after.length < text.length := by
  unfold tag? at h
  split at h
  · split at h
    · obtain ⟨⟨b, a⟩, hb, hab⟩ := Option.map_eq_some_iff.mp h
      simp only [Prod.mk.injEq] at hab
      obtain ⟨-, rfl⟩ := hab
      have := length_of_bodyUpTo hb
      simp only [List.length_cons]
      omega
    · simp at h
  · simp at h

theorem length_of_tag?_drop {text tag after : List Char} {n : Nat}
    (h : tag? (text.drop n) = some (tag, after)) : after.length < text.length := by
  have := length_of_tag? h
  simp only [List.length_drop] at this
  omega

/-- The number of backslashes at the beginning of a text. -/
def slashes (text : List Char) : Nat := (text.takeWhile (· = '\\')).length

/-- A text with a backslash in front of each tag, and backslashes in front of that one doubled. -/
def escapeTags (text : List Char) : List Char :=
  match text with
  | [] => []
  | c :: rest =>
    let n := slashes (c :: rest)
    match h : tag? ((c :: rest).drop n) with
    | some (tag, after) =>
      have : after.length < (c :: rest).length := length_of_tag?_drop h
      List.replicate (2 * n + 1) '\\' ++ tag ++ escapeTags after
    | none => c :: escapeTags rest
termination_by text.length
decreasing_by
  · exact this
  · exact Nat.lt_succ_self _

/-- The markup that shows as the given text. A backslash at the end is doubled, lest it escape what
is put behind it. -/
def escape (text : List Char) : List Char :=
  let markup := escapeTags text
  if slashes markup.reverse = 1 then markup ++ ['\\'] else markup

/-- A text without the backslashes in front of opening brackets. -/
def dropBracketEscapes : List Char → List Char
  | [] => []
  | '\\' :: '[' :: rest => '[' :: dropBracketEscapes rest
  | c :: rest => c :: dropBracketEscapes rest

/-- What markup consists of: text that is shown, and tags with their places, without brackets. -/
inductive Piece
  | text (chars : List Char)
  | tag (position : Nat) (content : List Char)
deriving DecidableEq, Repr

/-- The pieces of markup, after the text in front of the next tag, from a place on. -/
def piecesFrom (plain : List Char) (position : Nat) (markup : List Char) : List Piece :=
  match markup with
  | [] => [.text (dropBracketEscapes plain)]
  | c :: rest =>
    let n := slashes (c :: rest)
    match h : tag? ((c :: rest).drop n) with
    | some (tag, after) =>
      have : after.length < (c :: rest).length := length_of_tag?_drop h
      -- backslashes stand for half as many, and the one left over escapes the tag
      let piece := if n % 2 = 1 then .text tag else .tag (position + n) (tag.drop 1).dropLast
      .text (dropBracketEscapes plain ++ List.replicate (n / 2) '\\') :: piece ::
        piecesFrom [] (position + n + tag.length) after
    | none => piecesFrom (plain ++ [c]) (position + 1) rest
termination_by markup.length
decreasing_by
  · exact this
  · exact Nat.lt_succ_self _

def pieces (markup : List Char) : List Piece := piecesFrom [] 0 markup

/-- Why markup shows nothing: a tag closes a style that is not open, or a style has a color of which
a part is missing. -/
inductive Fault
  | unmatched (content : List Char) (position : Nat)
  | nothingOpen (position : Nat)
  | missingPart
deriving DecidableEq, Repr

namespace Fault

def message : Fault → String
  | unmatched content position =>
    s!"closing tag '[{String.ofList content}]' at position {position} doesn't match any open tag"
  | nothingOpen position => s!"closing tag '[/]' at position {position} has nothing to close"
  | missingPart => "invalid literal for int() with base 10: ''"

end Fault

/-- The usual name of the style that a tag names. -/
def styleName (name : List Char) : Except Fault String :=
  (Style.usualName name).mapError fun _ => .missingPart

/-- The styles that are open behind a tag, the latest first. `[/]` closes the latest one, `[/name]` the
latest of that name; what stands behind `=` in a tag is no part of the name. -/
def afterTag (opened : List String) (position : Nat) (content : List Char) :
    Except Fault (List String) :=
  match content.takeWhile (· != '=') with
  | '/' :: name =>
    if (strip name).isEmpty then
      match opened with
      | [] => .error (.nothingOpen position)
      | _ :: opened => .ok opened
    else
      match styleName (strip name) with
      | .error fault => .error fault
      | .ok style =>
        if opened.contains style then .ok (opened.erase style)
        else .error (.unmatched content position)
  | name => (styleName name).map (· :: opened)

/-- What pieces show, with some styles open. -/
def shown (opened : List String) : List Piece → Except Fault (List Char)
  | [] => .ok []
  | .text chars :: rest => (shown opened rest).map (chars ++ ·)
  | .tag position content :: rest =>
    match afterTag opened position content with
    | .error fault => .error fault
    | .ok opened => shown opened rest

/-- What markup shows. -/
def plainText (markup : List Char) : Except Fault (List Char) := shown [] (pieces markup)

end RouteInventory.Report.Markup
