import RouteInventory.CommandLine.Request
import RouteInventory.CommandLine.Usage
import RouteInventory.Config.File
import RouteInventory.Inventory.Extraction
import RouteInventory.Report.Sections

/-!
# Outcomes

What becomes of a request on a file system: the file system after it, what is printed, what is
logged, and what is complained of. Nothing is printed of a request that failed.
-/

namespace RouteInventory.CommandLine

/-- What a run ends with that was not misused. -/
inductive ExitCode
  | success
  | error
deriving DecidableEq, Repr

namespace ExitCode

def number : ExitCode → Nat
  | success => 0
  | error => 1

def name : ExitCode → String
  | success => "SUCCESS"
  | error => "ERROR"

def value (c : ExitCode) : Value := .member ⟨"ExitCode", c.name, .number c.number⟩

end ExitCode

/-- Why a request or a command line fails. -/
inductive Complaint
  | fault (message : String)
  | invalid (message : String)
  | unread (message : String)
  | misuse (grammar : Grammar) (misuse : Misuse)
deriving DecidableEq, Repr

namespace Complaint

def text : Complaint → String
  | fault message => s!"\n❌ ERROR: {message}\n"
  | invalid message => s!"FAIL: {message}\n"
  | unread message => s!"ERROR: {message}\n"
  | misuse grammar m => grammar.complaint m

def status : Complaint → Nat
  | fault _ | invalid _ | unread _ => ExitCode.error.number
  | misuse _ _ => 2

end Complaint

structure Outcome where
  fs : FileSystem
  output : String := ""
  log : List LogEntry := []
  complaint : Option Complaint := none

namespace Outcome

/-- The number that the run ends with. -/
def status (o : Outcome) : Nat :=
  match o.complaint with
  | some c => c.status
  | none => ExitCode.success.number

/-- The log and the complaint. -/
def errors (o : Outcome) : String :=
  String.join (o.log.map (·.line)) ++ ((o.complaint.map Complaint.text).getD "")

end Outcome

/-- The width of the console that reports are laid out for. -/
def consoleCells : Nat := 100

/-- What a report looks like on the console. -/
def printed (parts : List Report.Part) : Except Report.Markup.Fault String :=
  (Report.lines consoleCells parts).map fun lines => String.join (lines.map (· ++ "\n"))

/-- The configuration of a project: from the file that is asked for, or else its own. -/
def Target.config (t : Target) (fs : FileSystem) : Except ConfigFileFault Config :=
  let found := match t.configFile with
    | some file => Config.ofFile fs t.project file
    | none => Config.ofProject fs t.project
  found.map (·.override t.overrides)

/-- The report that a configuration asks for. -/
def reportFor (c : Config) : Report where
  sampleSize := c.sampleSize
  lookups := c.exampleLookups

namespace Task

/-- Prints a report. -/
def report (fs : FileSystem) (log : List LogEntry) (parts : List Report.Part) : Outcome :=
  match printed parts with
  | .error fault => { fs, log, complaint := some (.fault fault.message) }
  | .ok output => { fs, log, output }

/-- Writes the artifacts of an inventory that was extracted, and reports it. -/
def write (fs : FileSystem) (c : Config) (quiet : Bool) (log : List LogEntry) (i : Inventory) :
    Outcome :=
  match fs.writeArtifacts i c.outPath with
  | (fs, .error fault) => { fs, log, complaint := some (.fault fault.message) }
  | (fs, .ok written) =>
    if quiet then { fs, log } else report fs log ((reportFor c).render i written)

def extractOutcome (fs : FileSystem) (now : String) (c : Config) (quiet : Bool) : Outcome :=
  let run := c.extract fs now
  let log := run.events.map Event.entry
  match run.outcome with
  | .error fault => { fs, log, complaint := some (.fault fault.message) }
  | .ok i => write fs c quiet log i

def modulesOutcome (fs : FileSystem) (c : Config) (asJson : Bool) : Outcome :=
  let files := c.routingFiles fs
  let log := (c.searchEvents fs).map Event.entry
  if asJson then { fs, log, output := (Json.strings files).stableText (some 2) }
  else report fs log (Report.routingFiles files)

def validateOutcome (fs : FileSystem) (file : Path) : Outcome :=
  match Schema.validateFile fs Schema.recordSchemaName file with
  | .ok () => { fs, output := "OK\n" }
  | .error (.invalid violation) => { fs, complaint := some (.invalid violation.message) }
  | .error fault => { fs, complaint := some (.unread fault.message) }

/-- Carries out a task at the given time. -/
def run (t : Task) (fs : FileSystem) (now : String) : Outcome :=
  match t with
  | extract target quiet =>
    match target.config fs with
    | .error fault => { fs, complaint := some (.fault fault.message) }
    | .ok c => extractOutcome fs now c quiet
  | modules target asJson =>
    match target.config fs with
    | .error fault => { fs, complaint := some (.fault fault.message) }
    | .ok c => modulesOutcome fs c asJson
  | validate file => validateOutcome fs file

end Task

/-- Carries out a request; its log is kept if it is to be shown. -/
def Request.run (r : Request) (fs : FileSystem) (now : String) : Outcome :=
  let o := r.task.run fs now
  { o with log := if r.verbose then o.log else [] }

/-- What a line that asks for nothing to be done leads to. -/
def Stop.outcome (s : Stop) (fs : FileSystem) : Outcome :=
  match s with
  | help grammar => { fs, output := grammar.help }
  | version => { fs, output := Grammar.versionLine }
  | misuse grammar m => { fs, complaint := some (.misuse grammar m) }

/-- Carries out a command line on a file system at the given time. -/
def run (line : List String) (fs : FileSystem) (now : String) : Outcome :=
  match Request.ofLine line with
  | .error stop => stop.outcome fs
  | .ok request => request.run fs now

end RouteInventory.CommandLine
