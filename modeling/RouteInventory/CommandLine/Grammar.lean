/-!
# Grammars of the command line

A grammar lists the options that a command line may hold and says what else it consists of. The
words before a command are read by `Grammar.commands` and those after it by the command's own
grammar; without a command, `Grammar.inventory` reads them all.
-/

namespace RouteInventory.CommandLine

inductive Key
  | help
  | version
  | config
  | outDir
  | appRoot
  | rootModule
  | deterministic
  | quiet
  | json
  | verbose
deriving DecidableEq, Repr

/-- An option: its spellings, and the name of its value if it takes one. Only long spellings lead to a
value. -/
structure Flag where
  key : Key
  names : List String
  value : Option String := none
  help : String := ""
deriving DecidableEq, Repr

namespace Flag

/-- The name of an option in a complaint. -/
def label (f : Flag) : String := String.intercalate "/" f.names

def helpFlag : Flag where
  key := .help
  names := ["-h", "--help"]
  help := "show this help message and exit"

def versionFlag : Flag where
  key := .version
  names := ["--version"]
  help := "show program's version number and exit"

def configFlag : Flag where
  key := .config
  names := ["--config"]
  value := some "CONFIG"
  help := "YAML config file (default: <root>/.route-audit.yaml when present)."

def outDirFlag : Flag where
  key := .outDir
  names := ["--out"]
  value := some "OUT_DIR"
  help := "Directory for routes*.json artifacts (default: project root)."

def appRootFlag : Flag where
  key := .appRoot
  names := ["--app-root"]
  value := some "APP_ROOT"
  help := "Application source root, relative to the project (default: src/app)."

def rootModuleFlag : Flag where
  key := .rootModule
  names := ["--routing-file"]
  value := some "ROOT_ROUTING_FILE"
  help := "Root routing module (default: src/app/app-routing.module.ts)."

def deterministicFlag : Flag where
  key := .deterministic
  names := ["--ci", "--deterministic"]
  help := "Fix the generatedAt timestamp so artifacts are byte-identical."

def quietFlag : Flag where
  key := .quiet
  names := ["-q", "--quiet"]
  help := "Suppress the console report."

def jsonFlag : Flag where
  key := .json
  names := ["--json"]
  help := "Print the list as JSON to stdout."

def verboseFlag : Flag where
  key := .verbose
  names := ["-v", "--verbose"]
  help := "Log traversal details to stderr."

end Flag

/-- What a command line holds beside options: at most one word, exactly one, or one of some commands
with all the words after it. -/
inductive Operand
  | optional (name help : String)
  | required (name help : String)
  | command (name : String) (choices : List (String × String))
deriving DecidableEq, Repr

structure Grammar where
  program : String
  description : String := ""
  operand : Operand
  flags : List Flag
deriving DecidableEq, Repr

inductive Command
  | extract
  | modules
  | validate
deriving DecidableEq, Repr

namespace Command

def all : List Command := [extract, modules, validate]

theorem mem_all (c : Command) : c ∈ all := by cases c <;> decide

def name : Command → String
  | extract => "extract"
  | modules => "modules"
  | validate => "validate"

def help : Command → String
  | extract => "Extract routes and write routes*.json artifacts."
  | modules => "List every routing module file under the app root."
  | validate => "Validate a routes-complete.json artifact against the bundled schema."

def ofName? (name : String) : Option Command := all.find? (·.name = name)

end Command

namespace Grammar

def programName : String := "route-audit"

def version : String := "0.1.0"

def summary : String := "Static route inventory for single-page applications."

/-- The options of an extraction. -/
def extractFlags : List Flag :=
  [.helpFlag, .configFlag, .outDirFlag, .appRootFlag, .rootModuleFlag, .deterministicFlag,
    .quietFlag, .verboseFlag]

def projectOperand : Operand := .optional "path" "Project root (default: current directory)."

/-- The grammar of a command line without a command. -/
def inventory : Grammar where
  program := programName
  description := summary
  operand := projectOperand
  flags := extractFlags

/-- The grammar of a command line up to its command. -/
def commands : Grammar where
  program := programName
  description := summary
  operand := .command "command" (Command.all.map fun c => (c.name, c.help))
  flags := [.helpFlag, .versionFlag, .verboseFlag]

/-- The operand of a command. -/
def operandOf : Command → Operand
  | .extract => projectOperand
  | .modules => .optional "path" ""
  | .validate => .required "instance" "Path to routes-complete.json."

/-- The options of a command. -/
def flagsOf : Command → List Flag
  | .extract => extractFlags
  | .modules =>
    [.helpFlag, { Flag.configFlag with help := "" }, { Flag.appRootFlag with help := "" }, .jsonFlag,
      .verboseFlag]
  | .validate => [.helpFlag, .verboseFlag]

/-- The grammar of the words after a command. -/
def ofCommand (c : Command) : Grammar where
  program := programName ++ " " ++ c.name
  operand := operandOf c
  flags := flagsOf c

/-- The spellings of the options, in the order in which they are tried. -/
def spellings (g : Grammar) : List (String × Flag) :=
  g.flags.flatMap fun f => f.names.map fun name => (name, f)

/-- The option with a spelling. -/
def flag? (g : Grammar) (name : String) : Option Flag := g.spellings.lookup name

end Grammar

end RouteInventory.CommandLine
