import RouteInventory.Text.Blank

/-!
# Searching text

A pattern is tried at one place of a text: it sees the character before the place and the text from
the place on, and answers what it captured together with the text after the match. `firstMatch`
takes the leftmost place, `allMatches` every place in turn, each search starting where the match
before it ended.
-/

namespace RouteInventory.Text

/-- What follows a word at the beginning of a text. -/
def after? : (word text : List Char) → Option (List Char)
  | [], text => some text
  | _ :: _, [] => none
  | w :: word, c :: text => if w = c then after? word text else none

theorem after?_eq_some_iff {word text rest : List Char} :
    after? word text = some rest ↔ text = word ++ rest := by
  induction word generalizing text with
  | nil => simp [after?, eq_comm]
  | cons w word ih =>
    cases text with
    | nil => simp [after?]
    | cons c text =>
      by_cases h : w = c
      · simp [after?, h, ih]
      · simp [after?, h, Ne.symm h]

theorem after?_isSome_iff {word text : List Char} : (after? word text).isSome = true ↔ word <+: text := by
  rw [Option.isSome_iff_exists]
  exact exists_congr fun _ => after?_eq_some_iff.trans eq_comm

/-- Whether a word occurs somewhere in a text. -/
def occurs (word : List Char) : List Char → Bool
  | [] => word.isEmpty
  | c :: rest => (after? word (c :: rest)).isSome || occurs word rest

theorem occurs_iff {word text : List Char} : occurs word text = true ↔ word <:+: text := by
  induction text with
  | nil => simp [occurs, List.isEmpty_iff]
  | cons c rest ih =>
    rw [occurs, Bool.or_eq_true, ih, after?_isSome_iff, List.infix_cons_iff]

/-- The text up to a closing mark and the text after it, unless a barred character comes first. -/
def bodyUpTo (mark : Char) (barred : Char → Bool) : List Char → Option (List Char × List Char)
  | [] => none
  | c :: rest =>
    if c = mark then some ([], rest)
    else if barred c then none
    else (bodyUpTo mark barred rest).map fun (body, after) => (c :: body, after)

abbrev Pattern (α : Type) := (before : Option Char) → (text : List Char) → Option (α × List Char)

/-- The leftmost match at or after a place. -/
def firstMatch {α : Type} (pattern : Pattern α) :
    (before : Option Char) → (text : List Char) → Option (α × List Char)
  | before, [] => pattern before []
  | before, c :: rest =>
    (pattern before (c :: rest)).orElse fun _ => firstMatch pattern (some c) rest

/-- A capture and the line on which its match begins. -/
structure Match (α : Type) where
  captured : α
  line : Nat
deriving Repr

/-- The line after a character on the given line. -/
def lineAfter (c : Char) (line : Nat) : Nat := if c = '\n' then line + 1 else line

/-- The matches from a place on, after `skip` more characters of the match before. -/
def matchesFrom {α : Type} (pattern : Pattern α) :
    (skip : Nat) → (before : Option Char) → (line : Nat) → (text : List Char) → List (Match α)
  | _, _, _, [] => []
  | skip + 1, _, line, c :: rest => matchesFrom pattern skip (some c) (lineAfter c line) rest
  | 0, before, line, c :: rest =>
    match pattern before (c :: rest) with
    | some (captured, after) =>
      ⟨captured, line⟩ ::
        matchesFrom pattern (rest.length - after.length) (some c) (lineAfter c line) rest
    | none => matchesFrom pattern 0 (some c) (lineAfter c line) rest

/-- Every match in a text, from left to right and without overlap. -/
def allMatches {α : Type} (pattern : Pattern α) (text : List Char) : List (Match α) :=
  matchesFrom pattern 0 none 1 text

end RouteInventory.Text
