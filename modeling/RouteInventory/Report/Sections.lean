import RouteInventory.Inventory.Artifacts
import RouteInventory.Number.Digits
import RouteInventory.Report.Markup
import RouteInventory.Report.Table

/-!
# The report

What is printed of an inventory: the routing mode, a section for each step of the extraction, the
counts, and a summary with sample routes and examples. A report is a list of parts; `Report.lines`
lays them out.
-/

namespace RouteInventory

open Text

/-- How many sample routes a report shows, none or all but some if the number is negative, and the
words for which it shows example routes. -/
structure Report where
  sampleSize : Int := 20
  lookups : List String := []
deriving DecidableEq, Repr

namespace Report

/-- A part of a report: text, or a heading in the middle of a line, both with markup; or a table. -/
inductive Part
  | text (markup : String)
  | heading (markup : String)
  | table (table : Table)
deriving DecidableEq, Repr

/-- The lines of a part on so many cells. Without a cell nothing can be shown. -/
def Part.lines (cells : Nat) (p : Part) : Except Markup.Fault (List (List Char)) :=
  let onCells (lines : List (List Char)) := if cells = 0 then [] else lines
  match p with
  | text markup => (Markup.plainText markup.toList).map fun s => onCells (paragraph cells s)
  | heading markup => (Markup.plainText markup.toList).map fun s => onCells [rule cells s]
  | table t => .ok (onCells (t.lines cells))

/-- The lines of the parts of a report. -/
def lines (cells : Nat) (parts : List Part) : Except Markup.Fault (List String) :=
  (parts.mapM (Part.lines cells)).map fun lines => lines.flatten.map String.ofList

/-- The number of routing files that are shown. -/
def shownFiles : Nat := 10

/-- The number of examples that are shown for a word. -/
def shownExamples : Nat := 3

/-- The markup that shows as the given text. -/
def literal (s : String) : String := String.ofList (Markup.escape s.toList)

/-- A number with a blank in front if it has one digit. -/
def ordinal (n : Nat) : String := if n < 10 then s!" {n}" else s!"{n}"

def modeLabel : RoutingMode → String
  | .hash => "Hash Routing (#/)"
  | .html5 => "HTML5 Mode"

def header (mode : RoutingMode) : List Part :=
  [.heading "🔍 COMPREHENSIVE ROUTE EXTRACTION", .text s!"📌 Routing Mode: {modeLabel mode}\n"]

def step (number : Int) (title : String) : Part := .heading s!"STEP {number}: {literal title}"

def trace (lines : List String) : List Part := lines.map fun line => .text (literal line)

def routingFiles (files : List String) : List Part :=
  .text s!"   Found {files.length} routing module files:" ::
    (files.take shownFiles).map (fun name => .text s!"     - {literal name}") ++
    (if files.length > shownFiles then
      [.text s!"     ... and {files.length - shownFiles} more"]
    else [])

def scanCount (what : String) (count : Int) : Part := .text s!"   Found {count} routes in {what}"

/-- The counts by kind of evidence. -/
def countsTable (s : Statistics) : Table where
  title := "Route sources"
  columns := [⟨"Source", .left⟩, ⟨"Routes", .right⟩]
  rows := [
    ["From routing modules", toString s.routingModules],
    ["From HTML files", toString s.htmlFiles],
    ["From TypeScript files", toString s.tsFiles],
    ["Total unique routes", toString s.unique],
    ["Valid routes (filtered)", toString s.total]]

def counts (s : Statistics) : Part := .table (countsTable s)

/-- The routes that contain a word, a few of them. -/
def exampleRoutes (i : Inventory) (word : String) : List Part :=
  let found := i.routes.filter fun route => occurs word.toList route.toList
  if found.isEmpty then []
  else
    .text s!"\n  {literal word}:" ::
      (found.take shownExamples).map
        (fun route => .text s!"    → {literal (i.urlPrefix ++ route)}") ++
      (if found.length > shownExamples then
        [.text s!"    ... and {found.length - shownExamples} more"]
      else [])

def examples (r : Report) (i : Inventory) : List Part :=
  if r.lookups.isEmpty then []
  else .text "\n🔍 Example Routes Found:" :: r.lookups.flatMap (exampleRoutes i)

/-- The artifacts that were written. -/
def outputFiles (written : List Path) : List Part :=
  if written.isEmpty then []
  else
    .text "\n📁 Output Files Created:" ::
      written.map fun p => .text s!"  ✓ {literal p.name} - {Artifact.description p.name}"

/-- The first so many of some items; a negative number leaves out so many at the end. -/
def firstItems {α : Type} (n : Int) (items : List α) : List α :=
  items.take (if 0 ≤ n then n else items.length + n).toNat

def samples (r : Report) (i : Inventory) : List Part :=
  (firstItems r.sampleSize i.fullUrls).zipIdx.map (fun (url, k) =>
      .text s!"  {ordinal (k + 1)}. {literal url}") ++
    (if i.routes.length > r.sampleSize then
      [.text s!"      ... and {i.routes.length - r.sampleSize} more routes"]
    else [])

def summary (r : Report) (i : Inventory) (written : List Path) : List Part :=
  [.heading "✓ EXTRACTION COMPLETE", .text s!"📊 Total Routes Found: {i.routes.length}\n",
    .text s!"📄 Sample Routes (with {i.urlPrefix} prefix):\n"] ++
    r.samples i ++ outputFiles written ++ r.examples i

/-- The whole report of an inventory. -/
def render (r : Report) (i : Inventory) (written : List Path) : List Part :=
  header i.routingMode ++
    step 1 "Extracting routes from routing modules (hierarchy)" :: trace i.trace ++
    step 2 "Finding all routing module files" :: routingFiles i.routingFiles ++
    [step 3 "Scanning HTML templates", scanCount "HTML files" i.statistics.htmlFiles,
      step 4 "Scanning TypeScript files", scanCount "TypeScript files" i.statistics.tsFiles,
      step 5 "Combining and deduplicating routes", counts i.statistics] ++
    r.summary i written

end Report

end RouteInventory
