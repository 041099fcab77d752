import RouteInventory.CommandLine.Misuse
import RouteInventory.Text.Digit
import RouteInventory.Text.Search

/-!
# Words of the command line

Each word has a role in a grammar before any of them is taken: it is an option, in full or cut short
to a beginning that no other option has, or the separator behind which there are only operands, or an
operand, or unknown.
-/

namespace RouteInventory.CommandLine

open Text

/-- A value in the same word as its option: behind an equals sign, or right behind a letter. -/
inductive Attached
  | equals (value : List Char)
  | joined (value : List Char)
deriving DecidableEq, Repr

inductive Role
  | separator
  | operand
  | option (spelling : String) (flag : Flag) (attached : Option Attached)
  | unknown
deriving DecidableEq, Repr

structure Word where
  text : String
  role : Role
deriving DecidableEq, Repr

/-- Whether a word is a negative number, perhaps with a line feed behind it. -/
def isNegativeNumber (word : List Char) : Bool :=
  match word with
  | '-' :: rest =>
    let digits := if rest.getLast? = some '\n' then rest.dropLast else rest
    match digits.dropWhile isAnyDigit with
    | [] => !digits.isEmpty
    | '.' :: fraction => !fraction.isEmpty && fraction.all isAnyDigit
    | _ => false
  | _ => false

/-- The part of a word before its first equals sign and the part behind it, if it has one. -/
def splitEquals (word : List Char) : List Char × Option (List Char) :=
  match bodyUpTo '=' (fun _ => false) word with
  | some (name, value) => (name, some value)
  | none => (word, none)

namespace Grammar

/-- The option that a word names in full in front of an equals sign. -/
def assigned? (g : Grammar) (word : List Char) : Option Role :=
  match splitEquals word with
  | (name, some value) =>
    (g.flag? (String.ofList name)).map fun f => .option (String.ofList name) f (some (.equals value))
  | (_, none) => none

/-- The options that a word with one dash or two may stand for, each with its spelling. -/
def candidates (g : Grammar) (word : List Char) : List (String × Flag × Option Attached) :=
  match word with
  | '-' :: '-' :: _ =>
    let (name, value) := splitEquals word
    (g.spellings.filter fun (s, _) => name.isPrefixOf s.toList).map fun (s, f) =>
      (s, f, value.map .equals)
  | dash :: letter :: rest =>
    (g.spellings.filter fun (s, _) => s.toList = [dash, letter]).map fun (s, f) =>
      (s, f, some (.joined rest))
  | _ => []

/-- The role of a word that is not the separator. -/
def role (g : Grammar) (word : String) : Except Misuse Role :=
  match word.toList with
  | '-' :: c :: rest =>
    match (g.flag? word).map (.option word · none) <|> g.assigned? ('-' :: c :: rest) with
    | some role => .ok role
    | none =>
      match g.candidates ('-' :: c :: rest) with
      | [] =>
        -- what is no option is an operand after all if it is a number or has a space in it
        .ok (if isNegativeNumber ('-' :: c :: rest) || (c :: rest).contains ' ' then .operand
          else .unknown)
      | [(spelling, flag, attached)] => .ok (.option spelling flag attached)
      | several => .error (.ambiguous word (several.map (·.1)))
  | _ => .ok .operand

/-- The words with their roles. -/
def words (g : Grammar) : List String → Except Misuse (List Word)
  | [] => .ok []
  | text :: rest =>
    if text = "--" then .ok (⟨text, .separator⟩ :: rest.map (⟨·, .operand⟩))
    else
      match g.role text with
      | .error misuse => .error misuse
      | .ok role => (g.words rest).map (⟨text, role⟩ :: ·)

end Grammar

end RouteInventory.CommandLine
