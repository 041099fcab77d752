import RouteInventory.Text.Blank

/-!
# Paths

A path as it is written: an anchor and the names below it. Empty names and single dots carry no
meaning and are dropped; a double dot is kept, since what it denotes depends on the files.
`normalize` removes double dots by the text alone. A `Location` is the place in a file system that a
path denotes: the names from the root down, none of them a dot or a double dot.
-/

namespace RouteInventory

/-- What a path starts from. Two leading slashes are an anchor of their own. -/
inductive Anchor
  | relative
  | slash
  | doubleSlash
deriving DecidableEq, Repr, Inhabited

namespace Anchor

def text : Anchor → String
  | relative => ""
  | slash => "/"
  | doubleSlash => "//"

/-- The anchor of a text; three or more slashes count as one. -/
def ofText : List Char → Anchor
  | '/' :: '/' :: '/' :: _ => slash
  | '/' :: '/' :: _ => doubleSlash
  | '/' :: _ => slash
  | _ => relative

end Anchor

structure Path where
  anchor : Anchor
  names : List String
deriving DecidableEq, Repr, Inhabited

namespace Path

/-- The path that a text spells. -/
def ofString (s : String) : Path :=
  let text := s.toList
  ⟨Anchor.ofText text,
    ((Text.fields '/' text).map String.ofList).filter fun name => name != "" && name != "."⟩

/-- The text of a path; the empty relative path is a dot. -/
def text (p : Path) : String :=
  if p.anchor = .relative ∧ p.names = [] then "."
  else p.anchor.text ++ String.intercalate "/" p.names

instance : ToString Path := ⟨text⟩

def isAbsolute (p : Path) : Bool := p.anchor != .relative

/-- One path below another; an absolute right side stands alone. -/
def join (p q : Path) : Path := if q.isAbsolute then q else { p with names := p.names ++ q.names }

def child (p : Path) (name : String) : Path := { p with names := p.names ++ [name] }

/-- The last name, empty if there is none. -/
def name (p : Path) : String := p.names.getLast?.getD ""

def parent (p : Path) : Path := { p with names := p.names.dropLast }

/-- The path with its last name replaced. -/
def withName (p : Path) (name : String) : Path := p.parent.child name

/-- The path with a text put behind its own. -/
def appendText (p : Path) (suffix : String) : Path := ofString (p.text ++ suffix)

/-- The names before a name, latest first, with the name added: a double dot takes the name before
it away, stays where there is none on a relative path, and does nothing at the root. -/
def pushName (absolute : Bool) (stack : List String) (name : String) : List String :=
  if name != ".." then name :: stack
  else match stack with
    | [] => if absolute then [] else [name]
    | top :: below => if top = ".." then name :: stack else below

/-- The path with its double dots removed as far as the text alone allows. -/
def normalize (p : Path) : Path :=
  { p with names := (p.names.foldl (pushName p.isAbsolute) []).reverse }

end Path

/-- A place in a file system: the names from the root down. -/
structure Location where
  names : List String
deriving DecidableEq, Repr, Inhabited

namespace Location

def root : Location := ⟨[]⟩

def child (l : Location) (name : String) : Location := ⟨l.names ++ [name]⟩

def parent (l : Location) : Location := ⟨l.names.dropLast⟩

def path (l : Location) : Path := ⟨.slash, l.names⟩

def text (l : Location) : String := l.path.text

instance : ToString Location := ⟨text⟩

end Location

namespace Path

/-- The place that a path spells below a working directory, by the text alone. -/
def lexical (workingDir : Location) (p : Path) : Location :=
  ⟨(workingDir.path.join p).normalize.names⟩

/-- What is left of two lists behind their common beginning. -/
def dropCommon : List String → List String → List String × List String
  | a :: as, b :: bs => if a = b then dropCommon as bs else (a :: as, b :: bs)
  | as, bs => (as, bs)

/-- The path that leads from a base to a place, both taken by their texts. -/
def relativeTo (workingDir : Location) (p base : Path) : Path :=
  let (up, down) := dropCommon (base.lexical workingDir).names (p.lexical workingDir).names
  ⟨.relative, up.map (fun _ => "..") ++ down⟩

end Path

end RouteInventory
