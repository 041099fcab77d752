import RouteInventory.FileSystem.Basic

/-!
# Reading text files

Files are UTF-8 with any kind of line end. `readText` refuses malformed bytes; `readLenient?` replaces
them; `readPiecewise` stops at them, and counts the place of the fault from the piece it is in.
-/

namespace RouteInventory

/-- Why a file cannot be read as text. -/
inductive ReadFault
  | file (fault : FileFault)
  | undecodable (fault : Text.DecodeFault)
deriving DecidableEq, Repr

namespace ReadFault

def message : ReadFault → String
  | file fault => fault.message
  | undecodable fault => fault.message

end ReadFault

namespace FileSystem

open Text

/-- The text of a file's content. -/
def textOf (content : Bytes) : Except ReadFault (List Char) :=
  match Utf8.decode content with
  | .ok text => .ok (unifyNewlines text)
  | .error fault => .error (.undecodable fault)

def readText (fs : FileSystem) (p : Path) : Except ReadFault (List Char) :=
  match fs.readBytes p with
  | .ok content => textOf content
  | .error fault => .error (.file fault)

/-- The number of bytes in a piece. -/
def pieceSize : Nat := 8192

/-- The text of a file up to the first piece that is malformed, and the fault in that. -/
def readPiecewise (fs : FileSystem) (p : Path) :
    Except FileFault (List Char × Option DecodeFault) :=
  (fs.readBytes p).map fun content =>
    match Utf8.decodePieces pieceSize [] content with
    | (text, none) => (unifyNewlines text, none)
    | (text, some fault) => (unifyNewlines (trimEnd (· = '\r') text), some fault)

/-- The text of a file with U+FFFD for what is malformed; none if it is no file. -/
def readLenient? (fs : FileSystem) (p : Path) : Option (List Char) :=
  match fs.readBytes p with
  | .ok content => some (unifyNewlines (Utf8.decodeLenient content))
  | .error _ => none

end FileSystem

end RouteInventory
