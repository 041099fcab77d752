import RouteInventory.CommandLine.Grammar
import RouteInventory.Text.Quoted

/-!
# Misuse of the command line

Why a command line is refused.
-/

namespace RouteInventory.CommandLine

inductive Misuse
  | ambiguous (word : String) (candidates : List String)
  | valueExpected (flag : Flag)
  | valueUnused (flag : Flag) (value : List Char)
  | operandMissing (name : String)
  | unknownChoice (name word : String) (choices : List String)
  | unrecognized (words : List String)
deriving DecidableEq, Repr

namespace Misuse

def quote (s : List Char) : String := String.ofList (Text.quoted s)

def message : Misuse → String
  | ambiguous word candidates =>
    s!"ambiguous option: {word} could match " ++ String.intercalate ", " candidates
  | valueExpected flag => s!"argument {flag.label}: expected one argument"
  | valueUnused flag value => s!"argument {flag.label}: ignored explicit argument {quote value}"
  | operandMissing name => s!"the following arguments are required: {name}"
  | unknownChoice name word choices =>
    s!"argument {name}: invalid choice: {quote word.toList} (choose from " ++
      String.intercalate ", " (choices.map fun c => quote c.toList) ++ ")"
  | unrecognized words => "unrecognized arguments: " ++ String.intercalate " " words

end Misuse

/-- Why a command line asks for nothing to be done: it asks for help or the version, or it is
misused by the grammar that read it. -/
inductive Stop
  | help (grammar : Grammar)
  | version
  | misuse (grammar : Grammar) (misuse : Misuse)
deriving DecidableEq, Repr

end RouteInventory.CommandLine
