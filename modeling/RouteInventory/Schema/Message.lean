import RouteInventory.Schema.Basic

/-!
# Schema documents and messages

A rule as the document that states it, and a violation in words.
-/

namespace RouteInventory.Schema

/-- An object with the given fields as a value. -/
def fieldsValue (fields : List (String × Value)) : Value :=
  .mapping (fields.map fun (name, value) => (.text name, value))

def textsValue (items : List String) : Value := .list (items.map .text)

mutual

/-- The fields that state a rule. -/
def document : Schema → List (String × Value)
  | all rules => documentAll rules
  | kind k => [("type", .text k.name)]
  | closed _ => [("additionalProperties", .bool false)]
  | required names => [("required", textsValue names)]
  | properties rules => [("properties", fieldsValue (documentFields rules))]
  | minimum least => [("minimum", .int least)]
  | oneOf choices => [("enum", textsValue choices)]
  | minLength least => [("minLength", .int least)]
  | distinct => [("uniqueItems", .bool true)]
  | items rule => [("items", fieldsValue rule.document)]
  | shaped shape => [("pattern", .text shape.expression)]
  | never rule => [("not", fieldsValue rule.document)]
  | anyOf choices => [("anyOf", .list (documents choices))]

def documentAll : List Schema → List (String × Value)
  | [] => []
  | rule :: rest => rule.document ++ documentAll rest

def documentFields : List (String × Schema) → List (String × Value)
  | [] => []
  | (name, rule) :: rest => (name, fieldsValue rule.document) :: documentFields rest

def documents : List Schema → List Value
  | [] => []
  | rule :: rest => fieldsValue rule.document :: documents rest

end

/-- A rule's document on one line. -/
def documentText (s : Schema) : String := (fieldsValue s.document).literalText

namespace Cause

/-- The name of the field that states the broken rule. -/
def keyword : Cause → String
  | kind _ => "type"
  | closed _ => "additionalProperties"
  | required _ => "required"
  | minimum _ => "minimum"
  | oneOf _ => "enum"
  | minLength _ => "minLength"
  | distinct => "uniqueItems"
  | shaped _ => "pattern"
  | never _ => "not"
  | anyOf _ => "anyOf"

end Cause

def quotedName (name : String) : String := (Value.text name).literalText

/-- The complaint about fields that a closed object must not have. -/
def extraFieldsText (names : List String) : String :=
  let verb := if names.length = 1 then "was" else "were"
  let list := String.intercalate ", " (names.map quotedName)
  s!"Additional properties are not allowed ({list} {verb} unexpected)"

def shortTextComplaint (least : Nat) : String :=
  if least = 1 then "should be non-empty" else "is too short"

namespace Violation

def message (v : Violation) : String :=
  let value := (Value.ofJson v.value).literalText
  match v.cause with
  | .kind k => s!"{value} is not of type {quotedName k.name}"
  | .closed extra => extraFieldsText extra
  | .required name => s!"{quotedName name} is a required property"
  | .minimum least => s!"{value} is less than the minimum of {least}"
  | .oneOf choices => s!"{value} is not one of {(textsValue choices).literalText}"
  | .minLength least => s!"{value} {shortTextComplaint least}"
  | .distinct => s!"{value} has non-unique elements"
  | .shaped shape => s!"{value} does not match {quotedName shape.expression}"
  | .never rule => s!"{value} should not be valid under {rule.documentText}"
  | .anyOf _ => s!"{value} is not valid under any of the given schemas"

end Violation

end RouteInventory.Schema
