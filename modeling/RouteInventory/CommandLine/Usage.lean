import RouteInventory.CommandLine.Misuse
import RouteInventory.Number.Digits

/-!
# Usage and help

The usage of a grammar in one line if it fits, and its help: a list of its operands and one of its
options, each with what it means in a column of its own.
-/

namespace RouteInventory.CommandLine

/-- The width that help is laid out for. -/
def helpWidth : Nat := 98

/-- Where the second column of help begins at most. -/
def maxHelpColumn : Nat := 24

def spaces (n : Nat) : String := String.ofList (List.replicate n ' ')

/-- The text followed by spaces up to a width. -/
def padTo (width : Nat) (s : String) : String := s ++ spaces (width - s.length)

/-- Puts words on lines of a width, behind the line begun. -/
def fillFrom (width : Nat) (line : String) : List String → List String
  | [] => [line]
  | word :: rest =>
    if line.length + 1 + word.length ≤ width then fillFrom width (line ++ " " ++ word) rest
    else line :: fillFrom width word rest

/-- Puts words on lines of a width, as many on each as fit. -/
def fill (width : Nat) : List String → List String
  | [] => []
  | word :: rest => fillFrom width word rest

namespace Flag

/-- The option as it stands in the usage. -/
def usageWord (f : Flag) : String :=
  let name := f.names.headD ""
  match f.value with
  | some value => s!"[{name} {value}]"
  | none => s!"[{name}]"

/-- The option as it stands in the help. -/
def invocation (f : Flag) : String :=
  String.intercalate ", " <| f.names.map fun name =>
    match f.value with
    | some value => s!"{name} {value}"
    | none => name

end Flag

namespace Operand

def choiceList (choices : List (String × String)) : String :=
  "\x7b" ++ String.intercalate "," (choices.map (·.1)) ++ "\x7d"

def usageWords : Operand → List String
  | optional name _ => [s!"[{name}]"]
  | required name _ => [name]
  | command _ choices => [choiceList choices, "..."]

end Operand

/-- A line of the help: how far it is indented, what it tells of, and what that means. -/
structure HelpItem where
  indent : Nat
  invocation : String
  help : String
deriving DecidableEq, Repr

namespace HelpItem

/-- What the item means stands in the given column, on a line of its own if there is no room. -/
def text (column : Nat) (i : HelpItem) : String :=
  let invocation := spaces i.indent ++ i.invocation
  if i.help.isEmpty then invocation ++ "\n"
  else if invocation.length + 2 ≤ column then padTo column invocation ++ i.help ++ "\n"
  else invocation ++ "\n" ++ spaces column ++ i.help ++ "\n"

end HelpItem

namespace Operand

def helpItems : Operand → List HelpItem
  | optional name help | required name help => [⟨2, name, help⟩]
  | command _ choices =>
    ⟨2, choiceList choices, ""⟩ :: choices.map fun (name, help) => ⟨4, name, help⟩

end Operand

namespace Grammar

/-- The usage, with operands on lines of their own if it takes more than one line. -/
def usage (g : Grammar) : String :=
  let start := s!"usage: {g.program} "
  let flags := g.flags.map Flag.usageWord
  let line := start ++ String.intercalate " " (flags ++ g.operand.usageWords)
  if line.length ≤ helpWidth then line ++ "\n"
  else
    let room := helpWidth - start.length
    let lines := fill room flags ++ fill room g.operand.usageWords
    start ++ String.intercalate ("\n" ++ spaces start.length) lines ++ "\n"

def flagItems (g : Grammar) : List HelpItem := g.flags.map fun f => ⟨2, f.invocation, f.help⟩

/-- The column in which the help says what things mean. -/
def helpColumn (g : Grammar) : Nat :=
  let widths := (g.operand.helpItems ++ g.flagItems).map fun i => i.invocation.length
  min (widths.foldl max 0 + 4) maxHelpColumn

def help (g : Grammar) : String :=
  let block (items : List HelpItem) := String.join (items.map (·.text g.helpColumn))
  g.usage ++ "\n" ++ (if g.description.isEmpty then "" else g.description ++ "\n\n") ++
    "positional arguments:\n" ++ block g.operand.helpItems ++ "\noptions:\n" ++ block g.flagItems

/-- What is said of a misuse. -/
def complaint (g : Grammar) (m : Misuse) : String :=
  g.usage ++ s!"{g.program}: error: {m.message}\n"

/-- The program's name and version. -/
def versionLine : String := s!"{programName} {version}\n"

end Grammar

end RouteInventory.CommandLine
