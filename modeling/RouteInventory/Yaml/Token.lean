import RouteInventory.Text.Utf8
import RouteInventory.Yaml.Scalar

/-!
# Tokens

A YAML text as a sequence of tokens. Indentation shows as tokens of its own that open and close block
collections. Whether a token is the key of a mapping is known only at the colon behind it, so each
collection remembers where its latest possible key begins; a key has to lie on one line and within
1024 characters. A text with a fault has the tokens in front of the fault.
-/

namespace RouteInventory.Yaml

open Number

inductive Directive
  | version (major : Nat)
  | handle (name replacement : String)
  | reserved
deriving DecidableEq, Repr

inductive Token
  | directive (d : Directive)
  | documentStart
  | documentEnd
  | blockSequenceStart
  | blockMappingStart
  | blockEnd
  | flowSequenceStart
  | flowSequenceEnd
  | flowMappingStart
  | flowMappingEnd
  | key
  | value
  | blockEntry
  | flowEntry
  | alias (name : String)
  | anchor (name : String)
  | tag (handle : Option String) (suffix : String)
  | scalar (plain : Bool) (text : String)
deriving DecidableEq, Repr

/-- The tokens of a text up to its end or to a fault in it. -/
structure Tokens where
  list : List Token
  fault : Option Fault
deriving DecidableEq, Repr

/-- A character of the names of anchors, handles and directives. -/
def isNameChar (c : Char) : Bool := c.isAlphanum || c = '-' || c = '_'

/-- A character of a tag's address other than an escape. -/
def isAddressChar (c : Char) : Bool := c.isAlphanum || "-;/?:@&=+$,_.!~*'()[]".toList.contains c

namespace Cursor

/-- A name that is not empty. -/
def name? (c : Cursor) : Option (String × Cursor) :=
  let (name, c) := c.span isNameChar
  if name.isEmpty then none else some (String.ofList name, c)

/-- The bytes of the escapes at a place. -/
def escapedBytes? (c : Cursor) : Option (Text.Bytes × Cursor) :=
  if c.peek != some '%' then some ([], c)
  else
    let digits := c.next.rest.take 2
    if digits.length = 2 ∧ digits.all (fun d => (digit? d).isSome) then
      let c' := c.advance 3
      if c'.rest.length < c.rest.length then
        (escapedBytes? c').map fun (bytes, c) => (UInt8.ofNat (ofDigits 16 digits) :: bytes, c)
      else none
    else none
termination_by c.rest.length

/-- The address of a tag, escapes replaced. -/
def addressFrom? (c : Cursor) : Option (List Char × Cursor) :=
  let (run, atEscape) := c.span isAddressChar
  if atEscape.peek != some '%' then some (run, atEscape)
  else
    match escapedBytes? atEscape with
    | none => none
    | some (bytes, c') =>
      match Text.Utf8.decode bytes with
      | .error _ => none
      | .ok text =>
        if c'.rest.length < c.rest.length then
          (addressFrom? c').map fun (others, c) => (run ++ text ++ others, c)
        else none
termination_by c.rest.length

/-- An address with at least one character. -/
def address? (c : Cursor) : Option (String × Cursor) := do
  let (text, c') ← c.addressFrom?
  if c'.index = c.index then none else return (String.ofList text, c')

/-- A handle: a mark, or a name between two marks. -/
def handle? (c : Cursor) : Option (String × Cursor) :=
  if c.peek != some '!' then none
  else if c.ahead 1 = some ' ' then some ("!", c.next)
  else
    let (name, c) := c.next.span isNameChar
    if c.peek = some '!' then some ("!" ++ String.ofList name ++ "!", c.next) else none

/-- A token for the name behind an indicator, ended by a blank or an indicator. -/
def reference (token : String → Token) (c : Cursor) : Except Fault (Token × Cursor) := do
  let (name, c) ← orMalformed c.next.name?
  let closing (x : Char) : Bool :=
    "?:,]\x7d%@".toList.contains x || x.toNat = 96
  if endsWord c.peek || c.peek.any closing then return (token name, c) else .error .malformed

/-- Whether a mark occurs before the next space or line break. -/
def hasHandleMark (c : Cursor) : Bool :=
  (c.rest.takeWhile fun x => !endsField (some x)).contains '!'

/-- A tag's handle and suffix, from the place of its mark. -/
def tagParts? (c : Cursor) : Option (Option String × String × Cursor) :=
  if c.ahead 1 = some '<' then do
    let (suffix, c) ← (c.advance 2).address?
    if c.peek = some '>' then return (none, suffix, c.next) else none
  else if endsWord (c.ahead 1) then some (none, "!", c.next)
  else if c.next.hasHandleMark then do
    let (handle, c) ← c.handle?
    let (suffix, c) ← c.address?
    return (some handle, suffix, c)
  else do
    let (suffix, c) ← c.next.address?
    return (some "!", suffix, c)

def tag? (c : Cursor) : Option (Token × Cursor) := do
  let (handle, suffix, c) ← c.tagParts?
  if endsField c.peek then return (.tag handle suffix, c) else none

def number? (c : Cursor) : Option (Nat × Cursor) :=
  let (digits, c) := c.span isDigit
  if digits.isEmpty then none else some (ofDigits 10 digits, c)

/-- What a directive with a name says. -/
def directiveBody? (name : String) (c : Cursor) : Option (Directive × Cursor) :=
  if name = "YAML" then do
    let (major, c) ← c.skipSpaces.number?
    if c.peek != some '.' then none
    else
      let (_, c) ← c.next.number?
      if endsField c.peek then return (.version major, c) else none
  else if name = "TAG" then do
    let (handle, c) ← c.skipSpaces.handle?
    if c.peek != some ' ' then none
    else
      let (replacement, c) ← c.skipSpaces.address?
      if endsField c.peek then return (.handle handle replacement, c) else none
  else some (.reserved, c.skipLine)

/-- A directive, from the place of its mark. -/
def directive? (c : Cursor) : Option (Token × Cursor) := do
  let (name, c) ← c.next.name?
  if !endsField c.peek then none
  else
    let (d, c) ← c.directiveBody? name
    let c := c.skipComment
    if !endsLine c.peek then none
    else
      match c.lineBreak? with
      | some (_, c) => return (.directive d, c)
      | none => return (.directive d, c)

/-- Whether a plain scalar may begin at a place. -/
def startsPlain (c : Cursor) (inFlow : Bool) : Bool :=
  match c.peek with
  | none => false
  | some x =>
    let special := "-?:,[]\x7b\x7d#&*!|>'\"%@".toList.contains x || x.toNat = 96
    (!special && !endsWord (some x)) ||
      (!endsWord (c.ahead 1) && (x = '-' || (!inFlow && (x = '?' || x = ':'))))

end Cursor

/-- The beginning of a possible key: how many tokens came before it, where it is, and whether the
indentation demands that it be a key. -/
structure PossibleKey where
  token : Nat
  required : Bool
  index : Nat
  line : Nat
  column : Nat
deriving Repr

/-- A text that is read up to a place: the fault that cuts the text off, if any, the columns of the open
block collections, the possible keys of the open flow collections and of the block around them,
whether a key may begin here, and the tokens so far. The innermost collection comes first. -/
structure Reading where
  cursor : Cursor
  cutOff : Option Fault := none
  indents : List Nat := []
  key : Option PossibleKey := none
  outerKeys : List (Option PossibleKey) := []
  keyAllowed : Bool := true
  tokens : List Token := []

namespace Reading

def inFlow (r : Reading) : Bool := !r.outerKeys.isEmpty

/-- The least indentation of what lies inside the innermost block collection. -/
def innerIndent (r : Reading) : Nat :=
  match r.indents with
  | [] => 0
  | column :: _ => column + 1

def push (r : Reading) (t : Token) : Reading := { r with tokens := r.tokens ++ [t] }

def moveTo (r : Reading) (c : Cursor) : Reading := { r with cursor := c }

/-- Moves to the next token. Behind a line break in a block a key may begin. -/
def skipToToken (r : Reading) : Reading :=
  let c := r.cursor.skipComment
  match c.lineBreak? with
  | none => r.moveTo c
  | some (_, c') =>
    if c'.rest.length < r.cursor.rest.length then
      skipToToken { r with cursor := c', keyAllowed := r.keyAllowed || !r.inFlow }
    else r.moveTo c
termination_by r.cursor.rest.length

/-- The greatest length of a key. -/
def maxKeyLength : Nat := 1024

/-- Whether a possible key is on the line of a place and not too far in front of it. -/
def isNear (c : Cursor) (k : PossibleKey) : Bool :=
  k.line = c.line && c.index - k.index ≤ maxKeyLength

/-- A possible key that is still possible at a place; none if it had to be one. -/
def keepKey (c : Cursor) : Option PossibleKey → Except Fault (Option PossibleKey)
  | none => .ok none
  | some k =>
    if isNear c k then .ok (some k)
    else if k.required then .error .malformed
    else .ok none

/-- Forgets the possible keys that lie too far back. -/
def dropStaleKeys (r : Reading) : Except Fault Reading := do
  let key ← keepKey r.cursor r.key
  let outerKeys ← r.outerKeys.mapM (keepKey r.cursor)
  return { r with key, outerKeys }

/-- Forgets the possible key of the innermost collection. -/
def dropKey (r : Reading) : Except Fault Reading :=
  if r.key.any (·.required) then .error .malformed else .ok { r with key := none }

/-- Notes that the next token may be a key. -/
def noteKey (r : Reading) : Except Fault Reading := do
  if !r.keyAllowed then return r
  let r ← r.dropKey
  let c := r.cursor
  let required := !r.inFlow && r.indents.head? = some c.column
  return { r with key := some ⟨r.tokens.length, required, c.index, c.line, c.column⟩ }

/-- Closes block collections, innermost first, while a condition on their columns holds. -/
def closeWhile (close : Nat → Bool) (r : Reading) : Reading :=
  let closed := r.indents.takeWhile close
  { r with
    indents := r.indents.drop closed.length
    tokens := r.tokens ++ closed.map fun _ => .blockEnd }

/-- Closes the block collections that are indented deeper than the place. -/
def closeDeeper (r : Reading) : Reading :=
  if r.inFlow then r else r.closeWhile (r.cursor.column < ·)

/-- Closes all block collections. -/
def closeAll (r : Reading) : Reading := if r.inFlow then r else r.closeWhile fun _ => true

/-- Whether a column is deeper than the innermost block collection's. -/
def isDeeper (r : Reading) (column : Nat) : Bool := r.indents.head?.all (· < column)

/-- Opens a block collection at a column deeper than the innermost one's, its token at the given
position among the tokens. -/
def openBlock (r : Reading) (column : Nat) (position : Nat) (t : Token) : Reading :=
  if r.isDeeper column then
    { r with
      indents := column :: r.indents
      tokens := r.tokens.insertIdx position t }
  else r

/-- Reads a mark between documents, or what takes a line of its own. -/
def documentMark (r : Reading) (t : Token) (c : Cursor) : Except Fault Reading := do
  let r ← r.closeAll.dropKey
  return ({ r with keyAllowed := false }.push t).moveTo c

def flowStart (r : Reading) (t : Token) : Except Fault Reading := do
  let r ← r.noteKey
  let r := { r with key := none, outerKeys := r.key :: r.outerKeys, keyAllowed := true }
  return (r.push t).moveTo r.cursor.next

def flowEnd (r : Reading) (t : Token) : Except Fault Reading :=
  match r.outerKeys with
  | [] => .error .malformed
  | key :: outerKeys =>
    .ok (({ r with key, outerKeys, keyAllowed := false }.push t).moveTo r.cursor.next)

def flowEntry (r : Reading) : Except Fault Reading := do
  let r ← r.dropKey
  return ({ r with keyAllowed := true }.push .flowEntry).moveTo r.cursor.next

/-- Opens the collection of an entry or key at the place, where one may begin. -/
def openHere (r : Reading) (t : Token) : Except Fault Reading :=
  if r.inFlow then .ok r
  else if !r.keyAllowed then .error .malformed
  else .ok (r.openBlock r.cursor.column r.tokens.length t)

def blockEntry (r : Reading) : Except Fault Reading := do
  let r ← (← r.openHere .blockSequenceStart).dropKey
  return ({ r with keyAllowed := true }.push .blockEntry).moveTo r.cursor.next

def explicitKey (r : Reading) : Except Fault Reading := do
  let r ← (← r.openHere .blockMappingStart).dropKey
  return ({ r with keyAllowed := !r.inFlow }.push .key).moveTo r.cursor.next

/-- A colon makes the possible key a key, or else gives the value of an explicit one. -/
def valueMark (r : Reading) : Except Fault Reading :=
  match r.key with
  | some k =>
    let r := { r with key := none, tokens := r.tokens.insertIdx k.token .key, keyAllowed := false }
    let r := if r.inFlow then r else r.openBlock k.column k.token .blockMappingStart
    .ok ((r.push .value).moveTo r.cursor.next)
  | none => do
    let r ← r.openHere .blockMappingStart
    return ({ r with keyAllowed := !r.inFlow }.push .value).moveTo r.cursor.next

/-- Reads a token that may be a key. -/
def keyToken (r : Reading) (read : Cursor → Except Fault (Token × Cursor)) : Except Fault Reading := do
  let r ← r.noteKey
  let (t, c) ← read r.cursor
  return ({ r with keyAllowed := false }.push t).moveTo c

def quoted (double : Bool) (c : Cursor) : Except Fault (Token × Cursor) :=
  (Quoted.body double c.next).map fun (text, c) => (.scalar false (String.ofList text), c)

def plain (r : Reading) : Except Fault Reading := do
  let r ← r.noteKey
  let (text, c, broke) := Plain.words r.inFlow r.innerIndent r.cursor
  return ({ r with keyAllowed := broke }.push (.scalar true (String.ofList text))).moveTo c

def block (r : Reading) (folded : Bool) : Except Fault Reading := do
  let r ← r.dropKey
  let (text, c) ← orMalformed (Block.scalar? folded (max 1 r.innerIndent) r.cursor.next)
  return ({ r with keyAllowed := true }.push (.scalar false (String.ofList text))).moveTo c

/-- Reads the token that begins with a character. -/
def token (r : Reading) (x : Char) : Except Fault Reading :=
  let c := r.cursor
  let spaced := endsWord (c.ahead 1)
  if x = '%' && c.column = 0 then
    match c.directive? with
    | some (t, c) => r.documentMark t c
    | none => .error .malformed
  else if c.column = 0 && c.hasMark "---" then r.documentMark .documentStart (c.advance 3)
  else if c.column = 0 && c.hasMark "..." then r.documentMark .documentEnd (c.advance 3)
  else if x = '[' then r.flowStart .flowSequenceStart
  else if x = '\x7b' then r.flowStart .flowMappingStart
  else if x = ']' then r.flowEnd .flowSequenceEnd
  else if x = '\x7d' then r.flowEnd .flowMappingEnd
  else if x = ',' then r.flowEntry
  else if x = '-' && spaced then r.blockEntry
  else if x = '?' && (r.inFlow || spaced) then r.explicitKey
  else if x = ':' && (r.inFlow || spaced) then r.valueMark
  else if x = '*' then r.keyToken fun c => c.reference .alias
  else if x = '&' then r.keyToken fun c => c.reference .anchor
  else if x = '!' then r.keyToken fun c => orMalformed c.tag?
  else if x = '|' && !r.inFlow then r.block false
  else if x = '>' && !r.inFlow then r.block true
  else if x = '\'' then r.keyToken (quoted false)
  else if x = '"' then r.keyToken (quoted true)
  else if c.startsPlain r.inFlow then r.plain
  else .error .malformed

/-- Moves to the next token and closes what ends in front of it. -/
def prepare (r : Reading) : Except Fault Reading := do
  return (← r.skipToToken.dropStaleKeys).closeDeeper

/-- The tokens in front of the earliest possible key: whether that is a key is not known yet. -/
def certainTokens (r : Reading) : List Token :=
  let near := ((r.key :: r.outerKeys).filterMap id).filter (isNear r.cursor)
  match (near.map (·.token)).min? with
  | some position => r.tokens.take position
  | none => r.tokens

/-- The tokens in front of a fault. -/
def stopped (r : Reading) (fault : Fault) : Tokens := ⟨r.certainTokens, some fault⟩

/-- Whether the token at a place, which is met with a fault, runs to the end of the text. -/
def runsToEnd (c : Cursor) (fault : Fault) : Bool :=
  let behindWord := c.skip fun x => !endsWord (some x)
  fault = .unfinished || (c.peek = some '%' && c.skipLine.rest.isEmpty) ||
    (c.peek.any "*&!|>".toList.contains && behindWord.rest.isEmpty)

/-- The tokens up to the end of the text, or those that come before a fault. Where the text is cut off
no token can be read that runs to its end. -/
def finish (r : Reading) : Tokens :=
  match r.prepare, r.cutOff with
  | .error fault, cut =>
    if r.skipToToken.cursor.rest.isEmpty then r.stopped (cut.getD fault) else r.stopped fault
  | .ok ready, cut =>
    match ready.cursor.peek, cut with
    | none, some fault => r.stopped fault
    | none, none =>
      match ready.closeAll.dropKey with
      | .error fault => r.stopped fault
      | .ok closed => ⟨closed.tokens, none⟩
    | some x, cut =>
      match ready.token x with
      | .error fault =>
        if runsToEnd ready.cursor fault then r.stopped (cut.getD fault) else r.stopped fault
      | .ok after =>
        if after.cursor.rest.isEmpty && cut.isSome then r.stopped (cut.getD .malformed)
        else if after.cursor.rest.length < r.cursor.rest.length then after.finish
        else r.stopped .malformed
termination_by r.cursor.rest.length

end Reading

/-- A character that may stand in a YAML text. -/
def isTextChar (c : Char) : Bool :=
  c = '\t' || c = '\n' || c = '\r' || (' ' ≤ c && c ≤ '~') || c.toNat = 0x85 ||
    (0xa0 ≤ c.toNat && c.toNat ≤ 0xfffd) || 0x10000 ≤ c.toNat

/-- The number of characters that are read at a time. -/
def blockSize : Nat := 4096

/-- The whole blocks of a text up to a number of characters. -/
def wholeBlocks (length : Nat) (text : List Char) : List Char :=
  text.take (length / blockSize * blockSize)

/-- The part of a text that can be read and the fault that cuts it off. A character that must not
stand in a YAML text makes its block unreadable. -/
def readablePart (text : List Char) (cutOff : Option Fault) : List Char × Option Fault :=
  let text := if cutOff.isSome then wholeBlocks text.length text else text
  match text.findIdx? fun c => !isTextChar c with
  | some place => (wholeBlocks place text, some .malformed)
  | none => (text, cutOff)

/-- The tokens of a text, which a fault may cut off. A byte order mark at the beginning is passed
over. -/
def Tokens.ofText (text : List Char) (cutOff : Option Fault) : Tokens :=
  let (text, cutOff) := readablePart text cutOff
  let start : Cursor := { rest := text }
  Reading.finish { cursor := if start.peek.any isOrderMark then start.next else start, cutOff }

end RouteInventory.Yaml
