import RouteInventory.CommandLine.Reading
import RouteInventory.Config.Basic

/-!
# Requests

What a command line asks for. A line with a command among its words is read by `Grammar.commands` and
the command's grammar, any other line by `Grammar.inventory`; the value of an option that is spelled in
full is never taken for a command.
-/

namespace RouteInventory.CommandLine

/-- A project, the configuration file that is asked for, and the settings that replace its own. -/
structure Target where
  project : Path
  configFile : Option Path
  overrides : Overrides
deriving DecidableEq, Repr

inductive Task
  | extract (target : Target) (quiet : Bool)
  | modules (target : Target) (asJson : Bool)
  | validate (file : Path)
deriving DecidableEq, Repr

/-- A task, and whether its log is shown. -/
structure Request where
  task : Task
  verbose : Bool
deriving DecidableEq, Repr

namespace Reading

def path? (r : Reading) (key : Key) : Option Path := (r.value? key).map .ofString

/-- The operand as a path. -/
def path (r : Reading) : Path := .ofString (r.operands.headD ".")

def target (r : Reading) : Target where
  project := r.path
  configFile := r.path? .config
  overrides :=
    { appRoot := r.path? .appRoot
      rootModule := r.path? .rootModule
      outDir := r.path? .outDir
      deterministic := if r.has .deterministic then some true else none }

def task (r : Reading) : Command → Task
  | .extract => .extract r.target (r.has .quiet)
  | .modules => .modules r.target (r.has .json)
  | .validate => .validate r.path

end Reading

/-- The options that the next word is the value of. -/
def valueOptions : List String :=
  (Grammar.extractFlags.filter (·.value.isSome)).flatMap (·.names)

/-- The first word that is neither an option nor the value of one that is spelled in full. -/
def firstOperand? : List String → Option String
  | [] => none
  | word :: rest =>
    if word ∈ valueOptions then
      match rest with
      | [] => none
      | _ :: rest => firstOperand? rest
    else if word.startsWith "-" then firstOperand? rest
    else some word

/-- Whether a line is read as one with a command. -/
def hasCommand (line : List String) : Bool :=
  ((firstOperand? line).bind Command.ofName?).isSome || line.contains "--version"

namespace Request

/-- Reads a line without a command. -/
def ofPlainLine (line : List String) : Except Stop Request :=
  match Grammar.inventory.read line with
  | .error stop => .error stop
  | .ok r =>
    match Grammar.inventory.refuse r.extras with
    | .error stop => .error stop
    | .ok () => .ok ⟨r.task .extract, r.has .verbose⟩

/-- Reads the words of a command, behind what was read before it. -/
def ofCommand (c : Command) (front : Reading) (words : List String) : Except Stop Request :=
  match (Grammar.ofCommand c).read words with
  | .error stop => .error stop
  | .ok r =>
    match Grammar.commands.refuse (front.extras ++ r.extras) with
    | .error stop => .error stop
    | .ok () => .ok ⟨r.task c, front.has .verbose || r.has .verbose⟩

/-- Reads a line with a command. -/
def ofCommandLine (line : List String) : Except Stop Request :=
  match Grammar.commands.read line with
  | .error stop => .error stop
  | .ok front =>
    match front.operands with
    | [] => .error (.misuse .commands (.operandMissing "command"))
    | name :: words =>
      match Command.ofName? name with
      | none =>
        .error (.misuse .commands (.unknownChoice "command" name (Command.all.map (·.name))))
      | some c => ofCommand c front words

def ofLine (line : List String) : Except Stop Request :=
  if hasCommand line then ofCommandLine line else ofPlainLine line

end Request

end RouteInventory.CommandLine
