import RouteInventory.Proofs.Routing.Property
import RouteInventory.Routing.Declaration
import RouteInventory.Script.Span

/-!
# Printed routes

A routing module as it is commonly written: a list of route objects with a path each, and possibly a
module to be loaded, data, and children. Blanks and comments may stand in every gap: behind an opening
bracket, a comma or a colon, before a closing bracket, and around the argument of an import. The data
holds any list of printed routes, in brackets or braces.

`Items.declarations` is what such a list declares. The printer takes the text of a gap as a parameter,
since a module is parsed with its comments blanked.
-/

namespace RouteInventory.Routing.Printed

open Script Text

/-- A blank that may stand in a gap. -/
def IsSpace (c : Char) : Prop := c = ' ' ∨ c = '\t' ∨ c = '\n'

instance (c : Char) : Decidable (IsSpace c) := inferInstanceAs (Decidable (_ ∨ _))

/-- A blank or a comment. -/
inductive Filler
  | blank (c : Char) (h : IsSpace c)
  | lineComment (body : List Char) (h : '\n' ∉ body)
  | blockComment (body : List Char) (h : ¬ ['*', '/'] <:+: body)

namespace Filler

def text : Filler → List Char
  | blank c _ => [c]
  | lineComment body _ => '/' :: '/' :: (body ++ ['\n'])
  | blockComment body _ => '/' :: '*' :: (body ++ ['*', '/'])

/-- The text with a comment's characters blanked. -/
def blanked : Filler → List Char
  | blank c _ => [c]
  | lineComment body _ => ' ' :: ' ' :: (body.map blankOut ++ ['\n'])
  | blockComment body _ => ' ' :: ' ' :: (body.map blankOut ++ [' ', ' '])

end Filler

/-- What stands between two tokens. -/
structure Gap where
  fillers : List Filler

namespace Gap

def text (g : Gap) : List Char := g.fillers.flatMap Filler.text

def blanked (g : Gap) : List Char := g.fillers.flatMap Filler.blanked

end Gap

/-- Whether a text can be the argument of an import. -/
def IsModuleName (name : String) : Prop :=
  IsLiteral name.toList ∧ (∀ c ∈ name.toList, isQuote c = false) ∧ name ≠ ""

instance (name : String) : Decidable (IsModuleName name) := inferInstanceAs (Decidable (_ ∧ _))

/-- Whether a text can be a part of a reference in the old form. -/
def IsLegacyPart (part : String) : Prop := IsLiteral part.toList ∧ '"' ∉ part.toList

instance (part : String) : Decidable (IsLegacyPart part) := inferInstanceAs (Decidable (_ ∧ _))

/-- A reference to a module: a call of an import, or in the old form the name of the module and of a
symbol in it. -/
inductive Reference
  | call (name : String) (h : IsModuleName name) (before after : Gap)
  | legacy (name symbol : String) (h : IsLegacyPart name ∧ '#' ∉ name.toList)
      (hs : IsLegacyPart symbol)

namespace Reference

/-- The module that is referred to. -/
def name : Reference → String
  | call name _ _ _ => name
  | legacy name _ _ _ => name

/-- The text of a call up to its argument. -/
def callOpening : List Char := "() => import(".toList

def render (gap : Gap → List Char) : Reference → List Char
  | call name _ before after =>
    callOpening ++ gap before ++ literal name.toList ++ gap after ++ [')']
  | legacy name symbol _ _ => literal (name.toList ++ '#' :: symbol.toList)

end Reference

/-- The text of a property, behind the comma before it, up to its value. -/
def keyText (gap : Gap → List Char) (key : String) (comma colon : Gap) : List Char :=
  ',' :: (gap comma ++ key.toList ++ ':' :: gap colon)

/-- The property that loads a module. -/
structure Load where
  comma : Gap
  colon : Gap
  reference : Reference

def Load.render (gap : Gap → List Char) (l : Load) : List Char :=
  keyText gap "loadChildren" l.comma l.colon ++ l.reference.render gap

/-- What stands in a route object before its data and children. -/
structure Head where
  opening : Gap
  colon : Gap
  path : String
  isLiteral : IsLiteral path.toList
  load : Option Load

namespace Head

/-- The text behind the path. -/
def rest (gap : Gap → List Char) (h : Head) : List Char :=
  match h.load with
  | none => []
  | some l => l.render gap

def render (gap : Gap → List Char) (h : Head) : List Char :=
  gap h.opening ++ "path:".toList ++ gap h.colon ++ literal h.path.toList ++ h.rest gap

end Head

mutual

/-- A route object: its head, its data between brackets of a kind, its children, and the gap before
the closing brace. -/
inductive Route
  | mk (head : Head) (kind : Bracket) (data children : Block) (closing : Gap)

/-- A property that may be there, with a list as its value. -/
inductive Block
  | absent
  | present (comma colon : Gap) (items : Items) (closing : Gap)

/-- Routes, each behind a gap, with commas between them. -/
inductive Items
  | nil
  | cons (gap : Gap) (route : Route) (rest : Items)

end

/-- The comma in front of further items. -/
def Items.comma : Items → List Char
  | nil => []
  | cons _ _ _ => [',']

mutual

def Route.render (gap : Gap → List Char) : Route → List Char
  | .mk head kind data children closing =>
    '\x7b' :: (head.render gap ++ data.render gap "data" kind ++
      children.render gap "children" .square ++ gap closing ++ ['\x7d'])

def Block.render (gap : Gap → List Char) (key : String) (kind : Bracket) : Block → List Char
  | .absent => []
  | .present comma colon items closing =>
    keyText gap key comma colon ++
      kind.opening :: (items.render gap ++ gap closing ++ [kind.closing])

def Items.render (gap : Gap → List Char) : Items → List Char
  | .nil => []
  | .cons g route rest => gap g ++ route.render gap ++ rest.comma ++ rest.render gap

end

mutual

/-- What a route declares behind a text. Its line is that of its opening brace; its data declares
nothing. -/
def Route.declaration (before : List Char) : Route → Declaration
  | .mk head kind data children _ =>
    { path := head.path
      loadChildren := head.load.map (·.reference.name)
      line := before.count '\n' + 1
      children := children.declarations
        (before ++ '\x7b' :: (head.render Gap.text ++ data.render Gap.text "data" kind)) }

def Block.declarations (before : List Char) : Block → List Declaration
  | .absent => []
  | .present comma colon items _ =>
    items.declarations (before ++ keyText Gap.text "children" comma colon ++ ['['])

def Items.declarations (before : List Char) : Items → List Declaration
  | .nil => []
  | .cons g route rest =>
    route.declaration (before ++ g.text) ::
      rest.declarations (before ++ g.text ++ route.render Gap.text ++ rest.comma)

end

mutual

/-- Whether no path of a route, its data apart, holds a `loadChildren` key: such a key would be taken
for the route's own. -/
def Route.Clear : Route → Prop
  | .mk head _ _ children _ => ¬ HasKey "loadChildren" head.path.toList ∧ children.Clear

def Block.Clear : Block → Prop
  | .absent => True
  | .present _ _ items _ => items.Clear

def Items.Clear : Items → Prop
  | .nil => True
  | .cons _ route rest => route.Clear ∧ rest.Clear

end

/-- A routing module with a list of routes. -/
structure Module where
  items : Items
  closing : Gap

namespace Module

def declarator : List Char := "const routes = ".toList

/-- The text before the items of a module. -/
def opening : List Char := declarator ++ ['[']

def render (gap : Gap → List Char) (m : Module) : List Char :=
  opening ++ m.items.render gap ++ gap m.closing ++ [']', ';']

def text (m : Module) : List Char := m.render Gap.text

def declarations (m : Module) : List Declaration := m.items.declarations opening

end Module

end RouteInventory.Routing.Printed
