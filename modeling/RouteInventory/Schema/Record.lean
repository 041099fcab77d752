import RouteInventory.FileSystem.Reading
import RouteInventory.Json.Reader
import RouteInventory.Schema.Message

/-!
# The schema of the complete record

The rules for the record of an inventory, and the validation of a value or of a file by a schema that
is known by name. The patterns in the rules are given by what they look for: a text anywhere, or one of
some texts at the start.
-/

namespace RouteInventory.Schema

/-- A whole number that is not negative. -/
def count : Schema := all [kind .integer, minimum 0]

/-- An object with exactly the given fields. -/
def exactly (fields : List (String × Schema)) : Schema :=
  let names := fields.map (·.1)
  all [kind .object, closed names, required names, properties fields]

/-- A list of different items that all obey the given rules. -/
def listOf (rules : List Schema) : Schema := all [kind .array, distinct, items (all rules)]

/-- A route: a text without parameters and wildcards. -/
def routeRules : List Schema :=
  [kind .string, minLength 1,
    never (anyOf [shaped (.contains ":"), shaped (.contains "**")])]

/-- An address: a route behind the start that its routing mode gives it. -/
def urlRules : List Schema := [kind .string, shaped (.startsWith ["#/", "/"])]

def statisticsSchema : Schema :=
  exactly [("routingModules", count), ("htmlFiles", count), ("tsFiles", count), ("total", count)]

def metadataSchema : Schema :=
  exactly [("totalRoutes", count), ("routingMode", oneOf ["Hash", "HTML5"]),
    ("generatedAt", all [kind .string, minLength 1]), ("stats", statisticsSchema)]

/-- The schema of the complete record. -/
def recordSchema : Schema :=
  exactly [("metadata", metadataSchema), ("routes", listOf routeRules),
    ("fullUrls", listOf urlRules)]

def recordSchemaName : String := "routes_complete.schema.json"

/-- The place of the schema of the complete record: its directories and its name. -/
def recordSchemaPlace : List String := ["data", "schemas", recordSchemaName]

/-- Where names lead from a place on the way to the schema. A double dot leads back from a directory;
off the way there is nothing. -/
def walk (place : List String) : List String → Option (List String)
  | [] => some place
  | name :: rest =>
    if place = recordSchemaPlace then none
    else if name = ".." then if place = [] then none else walk place.dropLast rest
    else
      let next := place ++ [name]
      if next.isPrefixOf recordSchemaPlace then walk next rest else none

/-- The schema with a name, which is a path from the directory of the schemas. -/
def named? (name : String) : Option Schema :=
  let p := Path.ofString name
  if !p.isAbsolute && walk recordSchemaPlace.dropLast p.names = some recordSchemaPlace then
    some recordSchema
  else none

theorem named?_recordSchemaName : named? recordSchemaName = some recordSchema := by
  rw [named?, if_pos]
  decide +kernel

/-- Why a value or a file is not valid. -/
inductive Fault
  | unreadable (fault : ReadFault)
  | malformed (fault : Json.SyntaxFault)
  | unknownSchema (name : String)
  | invalid (violation : Violation)

namespace Fault

def message : Fault → String
  | unreadable fault => fault.message
  | malformed fault => fault.message
  | unknownSchema name => s!"schema not found: {name}"
  | invalid violation => violation.message

end Fault

/-- Validates a value by the schema with a name. -/
def validateBy (name : String) (x : Json) : Except Fault Unit :=
  match named? name with
  | none => .error (.unknownSchema name)
  | some s =>
    match s.validate x with
    | .ok () => .ok ()
    | .error violation => .error (.invalid violation)

/-- Validates the value that a file holds. -/
def validateFile (fs : FileSystem) (name : String) (p : Path) : Except Fault Unit :=
  match fs.readText p with
  | .error fault => .error (.unreadable fault)
  | .ok text =>
    match Json.read text with
    | .error fault => .error (.malformed fault)
    | .ok x => validateBy name x

end RouteInventory.Schema
