import RouteInventory.CommandLine.Grammar
import RouteInventory.CommandLine.Misuse
import RouteInventory.CommandLine.Outcome
import RouteInventory.CommandLine.Reading
import RouteInventory.CommandLine.Request
import RouteInventory.CommandLine.Usage
import RouteInventory.CommandLine.Word
import RouteInventory.Config.Basic
import RouteInventory.Config.File
import RouteInventory.FileSystem.Basic
import RouteInventory.FileSystem.Canonical
import RouteInventory.FileSystem.Discovery
import RouteInventory.FileSystem.Edit
import RouteInventory.FileSystem.Reading
import RouteInventory.FileSystem.Unvisited
import RouteInventory.Inventory.Artifacts
import RouteInventory.Inventory.Clock
import RouteInventory.Inventory.Event
import RouteInventory.Inventory.Extraction
import RouteInventory.Inventory.Reconciliation
import RouteInventory.Inventory.Record
import RouteInventory.Inventory.RoutingFiles
import RouteInventory.Json.Basic
import RouteInventory.Json.Reader
import RouteInventory.Json.Writer
import RouteInventory.Main
import RouteInventory.Number.Arithmetic
import RouteInventory.Number.Binary64
import RouteInventory.Number.Digits
import RouteInventory.Number.Shortest
import RouteInventory.Number.Written
import RouteInventory.Path.Basic
import RouteInventory.Proofs.FileSystem.Locate
import RouteInventory.Proofs.FileSystem.Write
import RouteInventory.Proofs.Inventory.Reconciliation
import RouteInventory.Proofs.Inventory.Record
import RouteInventory.Proofs.Inventory.Validity
import RouteInventory.Proofs.Json.Fields
import RouteInventory.Proofs.Json.RoundTrip
import RouteInventory.Proofs.Number.Digits
import RouteInventory.Proofs.Routing.Cycle
import RouteInventory.Proofs.Routing.Parent
import RouteInventory.Proofs.Routing.Visit
import RouteInventory.Proofs.Schema.Acceptance
import RouteInventory.Proofs.Text.Utf8
import RouteInventory.Reference.Normal
import RouteInventory.Reference.Scan
import RouteInventory.Reference.Scanner
import RouteInventory.Report.Layout
import RouteInventory.Report.Markup
import RouteInventory.Report.Sections
import RouteInventory.Report.Style
import RouteInventory.Report.Table
import RouteInventory.Routing.Cache
import RouteInventory.Routing.Declaration
import RouteInventory.Routing.Module
import RouteInventory.Routing.Property
import RouteInventory.Routing.Resolver
import RouteInventory.Routing.Tree
import RouteInventory.Schema.Basic
import RouteInventory.Schema.Message
import RouteInventory.Schema.Record
import RouteInventory.Script.Literal
import RouteInventory.Script.Segment
import RouteInventory.Script.Span
import RouteInventory.Text.Base64
import RouteInventory.Text.Blank
import RouteInventory.Text.Case
import RouteInventory.Text.Cells
import RouteInventory.Text.Digit
import RouteInventory.Text.Printable
import RouteInventory.Text.Quoted
import RouteInventory.Text.Ranges
import RouteInventory.Text.Search
import RouteInventory.Text.Utf8
import RouteInventory.Text.Word
import RouteInventory.Value.Basic
import RouteInventory.Value.Literal
import RouteInventory.Value.Moment
import RouteInventory.Value.Order
import RouteInventory.Value.Plain
import RouteInventory.Value.Slots
import RouteInventory.Yaml.Cursor
import RouteInventory.Yaml.Denotation
import RouteInventory.Yaml.Document
import RouteInventory.Yaml.Fault
import RouteInventory.Yaml.Graph
import RouteInventory.Yaml.Merge
import RouteInventory.Yaml.Scalar
import RouteInventory.Yaml.Structure
import RouteInventory.Yaml.Tag
import RouteInventory.Yaml.Timestamp
import RouteInventory.Yaml.Token
import RouteInventory.Proofs.Script.Segment
import RouteInventory.Proofs.Script.Span
import RouteInventory.Proofs.Routing.Printed
import RouteInventory.Proofs.Routing.OwnText
import RouteInventory.Proofs.Routing.Spans
import RouteInventory.Proofs.Routing.Parse
import RouteInventory.Proofs.Script.Comment
import RouteInventory.Proofs.CommandLine.Frame
import RouteInventory.Proofs.Routing.Cleaned
import RouteInventory.Proofs.Routing.Agreement
import RouteInventory.Proofs.Routing.Run
import RouteInventory.Proofs.Routing.Builder
import RouteInventory.Proofs.Path.Names
import RouteInventory.Proofs.FileSystem.Straight
import RouteInventory.Proofs.FileSystem.Extended
import RouteInventory.Proofs.FileSystem.Discovered
import RouteInventory.Proofs.Routing.Candidates
import RouteInventory.Proofs.Routing.Nesting
import RouteInventory.Proofs.Config.Spelled
import RouteInventory.Proofs.Inventory.Unaffected
import RouteInventory.Proofs.CommandLine.Again
import RouteInventory.Proofs.CommandLine.Spelled
import RouteInventory.Proofs.Value.Meaning
import RouteInventory.Proofs.Routing.Listed
import RouteInventory.Proofs.Routing.OwnPath
import RouteInventory.Proofs.FileSystem.Budget
import RouteInventory.Proofs.Path.Relative
import RouteInventory.Proofs.FileSystem.Denoted
import RouteInventory.Proofs.Config.Respelled
import RouteInventory.Proofs.Inventory.Respelled
import RouteInventory.Proofs.Routing.Remembered
import RouteInventory.Proofs.Routing.Yield
import RouteInventory.Proofs.Routing.Chain
import RouteInventory.Proofs.Routing.Reached
import RouteInventory.Proofs.Text.Trim
import RouteInventory.Proofs.Routing.Boundary
import RouteInventory.Proofs.Path.Cancel
import RouteInventory.Proofs.Routing.Probing
import RouteInventory.Proofs.FileSystem.Sought
import RouteInventory.Proofs.Text.Matches
import RouteInventory.Proofs.Reference.Links
import RouteInventory.Proofs.Reference.Calls
import RouteInventory.Proofs.Reference.Canonical
import RouteInventory.Proofs.Config.Accepted
import RouteInventory.Proofs.Script.Division
import RouteInventory.Proofs.Schema.Record
import RouteInventory.Proofs.Reference.Markers
import RouteInventory.Proofs.CommandLine.Values
import RouteInventory.Proofs.Script.Tree
import RouteInventory.Proofs.Script.Lookback
import RouteInventory.Proofs.Script.Reread
import RouteInventory.Proofs.Routing.OwnReference
