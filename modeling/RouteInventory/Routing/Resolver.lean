import RouteInventory.FileSystem.Canonical
import RouteInventory.Routing.Property

/-!
# Module references

Which routing file a module reference stands for. The reference gives a base path; the naming
conventions for routing files give candidates next to it in a fixed order, and the first candidate
that is a file is taken. A reference need not stand for any file.
-/

namespace RouteInventory.Routing

open Text

/-- Where references are looked up: paths from the project, and paths from the application's
sources. -/
structure Layout where
  projectRoot : Path
  appRoot : Path
deriving Repr

/-- What follows an application segment at the beginning of a reference. -/
def afterAppSegment? (text : List Char) : Option (List Char) :=
  (after? "app/".toList text).orElse fun _ => after? "@app/".toList text

/-- What follows the first application segment behind a slash, on the first line. -/
def afterInnerApp? : List Char → Option (List Char)
  | [] => none
  | c :: rest =>
    if c = '/' then (afterAppSegment? rest).orElse fun _ => afterInnerApp? rest
    else if c = '\n' then none
    else afterInnerApp? rest

/-- A reference without its application boundary and all in front of it. -/
def dropBoundary (text : List Char) : List Char :=
  ((afterInnerApp? text).orElse fun _ => afterAppSegment? text).getD text

/-- A reference without the symbol behind its hash and without blanks around it. -/
def referenceName (reference : String) : List Char :=
  strip (reference.toList.takeWhile (· != '#'))

namespace Layout

/-- The base path of a reference: below the declaring file's directory if it begins with a dot, below
the project for `src/`, else below the application's sources. -/
def basePath (layout : Layout) (name : List Char) (source : Path) : Path :=
  let path (text : List Char) := Path.ofString (String.ofList text)
  let base :=
    if name.head? == some '.' then source.parent.join (path name)
    else if (after? "src/".toList name).isSome then layout.projectRoot.join (path name)
    else layout.appRoot.join (path (dropBoundary name))
  base.normalize

end Layout

/-- The name with its first occurrence of a word replaced. -/
def replaceFirst (word replacement : List Char) : List Char → List Char
  | [] => if word.isEmpty then replacement else []
  | c :: rest =>
    match after? word (c :: rest) with
    | some after => replacement ++ after
    | none => c :: replaceFirst word replacement rest

/-- Whether a name, up to a final line feed, ends in a word. -/
def endsIn (word : String) (name : List Char) : Bool :=
  word.toList.isSuffixOf name ||
    (name.getLast? == some '\n' && word.toList.isSuffixOf name.dropLast)

/-- Whether a name is that of a routes file rather than of a module. -/
def namesRoutesFile (name : List Char) : Bool :=
  endsIn "-routing.module" name || endsIn ".routing.module" name || endsIn ".routes" name

/-- The candidates for a base path, in the order in which they are probed. -/
def candidatePaths (base : Path) : List Path :=
  let name := base.name.toList
  let module := ".module".toList
  [base.appendText "-routing.module.ts", base.appendText ".routing.module.ts",
    base.child "routing.module.ts"] ++
  (if occurs module name then
    [base.withName (String.ofList (replaceFirst module "-routing.module".toList name) ++ ".ts")]
  else []) ++
  (if ".ts".toList.isSuffixOf name then
    [base.withName (String.ofList (name.take (name.length - 3)) ++ "-routing.module.ts")]
  else []) ++
  (if namesRoutesFile name then [base.appendText ".ts"] else [])

/-- The outcome of looking a reference up. -/
inductive Resolution (fs : FileSystem)
  | empty
  | missing (name : String)
  | found (name : String) (path : Path) (file : Location) (h : file ∈ fs.files)

/-- The first of some paths that is a regular file, with the file's location. -/
def firstFile? (fs : FileSystem) : List Path → Option (Path × { l : Location // l ∈ fs.files })
  | [] => none
  | p :: rest =>
    match h : fs.regularFile? p with
    | some l => some (p, ⟨l, FileSystem.mem_files_of_regularFile? h⟩)
    | none => firstFile? fs rest

/-- Looks up a reference declared in a source file. -/
def Layout.resolve (layout : Layout) (fs : FileSystem) (reference : String) (source : Path) :
    Resolution fs :=
  let name := referenceName reference
  if name.isEmpty then .empty
  else
    match firstFile? fs (candidatePaths (layout.basePath name source)) with
    | some (path, ⟨file, h⟩) => .found (String.ofList name) path file h
    | none => .missing (String.ofList name)

/-- The path at which a reference was found. -/
def Resolution.path? {fs : FileSystem} : Resolution fs → Option Path
  | .found _ path _ _ => some path
  | _ => none

end RouteInventory.Routing
