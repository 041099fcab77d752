import RouteInventory.Text.Word

/-!
# Literals of script text

Where a string or regular-expression literal ends, given the text after its opening character. Both
functions divide that text: the two parts always join to it again. A backslash keeps the character
after it inside the literal. A quoted literal ends before an unescaped line feed, unless a backquote
opened it; a regular expression always does.
-/

namespace RouteInventory.Script

def backquote : Char := Char.ofNat 96

def isQuote (c : Char) : Bool := c = '\'' || c = '"' || c = backquote

/-- The rest of a string literal and the text after it. -/
def splitString (quote : Char) : List Char → List Char × List Char
  | [] => ([], [])
  | '\\' :: c :: rest =>
    let (body, after) := splitString quote rest
    ('\\' :: c :: body, after)
  | c :: rest =>
    if c = quote then ([c], rest)
    else if c = '\n' && quote != backquote then ([], c :: rest)
    else
      let (body, after) := splitString quote rest
      (c :: body, after)

/-- The rest of a regular-expression literal with its flags, and the text after it. -/
def splitRegex (inClass : Bool) : List Char → List Char × List Char
  | [] => ([], [])
  | '\\' :: c :: rest =>
    let (body, after) := splitRegex inClass rest
    ('\\' :: c :: body, after)
  | c :: rest =>
    -- a literal that is not closed ends with its line
    if c = '\n' then ([], c :: rest)
    -- in a class a slash does not close the literal
    else if inClass then
      let (body, after) := splitRegex (c != ']') rest
      (c :: body, after)
    else if c = '/' then (c :: rest.takeWhile Text.isWord, rest.dropWhile Text.isWord)
    else
      let (body, after) := splitRegex (c = '[') rest
      (c :: body, after)

theorem splitString_append (quote : Char) (text : List Char) :
    (splitString quote text).1 ++ (splitString quote text).2 = text := by
  fun_induction splitString quote text <;> simp_all

theorem splitRegex_append (inClass : Bool) (text : List Char) :
    (splitRegex inClass text).1 ++ (splitRegex inClass text).2 = text := by
  fun_induction splitRegex inClass text <;> simp_all [List.takeWhile_append_dropWhile]

theorem length_splitString_le (quote : Char) (text : List Char) :
    (splitString quote text).2.length ≤ text.length := by
  have h := congrArg List.length (splitString_append quote text)
  rw [List.length_append] at h
  omega

theorem length_splitRegex_le (inClass : Bool) (text : List Char) :
    (splitRegex inClass text).2.length ≤ text.length := by
  have h := congrArg List.length (splitRegex_append inClass text)
  rw [List.length_append] at h
  omega

/-- Characters after which an operand is expected, so that a slash opens a regular expression. -/
def operandFollows (c : Char) : Bool := "(,=:[!&|?\x7b\x7d;".toList.contains c

def isIdentifier (c : Char) : Bool := Text.isWord c || c = '$'

/-- Whether a text read backwards begins with the word `return` standing alone. -/
def endsInReturn (before : List Char) : Bool :=
  before.take 6 == "nruter".toList && !(before.drop 6).head?.any isIdentifier

/-- Whether a slash opens a regular expression after the given text, which is read backwards. It
does at the beginning, after punctuation that expects an operand, after an arrow and after `return`;
elsewhere it divides. -/
def opensRegex (before : List Char) : Bool :=
  match before.dropWhile fun c => c = ' ' || c = '\t' || c = '\r' || c = '\n' with
  | [] => true
  | c :: rest => operandFollows c || (c = '>' && rest.head? == some '=') || endsInReturn (c :: rest)

end RouteInventory.Script
