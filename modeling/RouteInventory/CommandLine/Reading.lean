import RouteInventory.CommandLine.Word

/-!
# Reading the command line

A grammar takes the words of a command line from left to right. Asking for help ends the reading at
once, and so does the first misuse. Words that it does not know are kept apart.
-/

namespace RouteInventory.CommandLine

/-- What a command line holds: the options used with their values, its operands, and the words that
the grammar has no place for. -/
structure Reading where
  uses : List (Key × String) := []
  operands : List String := []
  extras : List String := []
deriving DecidableEq, Repr

namespace Reading

def addUse (key : Key) (value : String) (r : Reading) : Reading :=
  { r with uses := (key, value) :: r.uses }

def addOperand (word : String) (r : Reading) : Reading := { r with operands := word :: r.operands }

def addExtras (words : List String) (r : Reading) : Reading := { r with extras := words ++ r.extras }

def has (r : Reading) (key : Key) : Bool := r.uses.any (·.1 = key)

/-- The value of an option; of several, the last. -/
def value? (r : Reading) (key : Key) : Option String := r.uses.reverse.lookup key

end Reading

/-- Whether the operand may still come, was the word before, or can come no more. -/
inductive Stage
  | awaited
  | taken
  | closed
deriving DecidableEq, Repr

namespace Attached

def chars : Attached → List Char
  | equals value | joined value => value

def value (a : Attached) : String := String.ofList a.chars

end Attached

namespace Grammar

/-- The option of one letter. -/
def letter? (g : Grammar) (c : Char) : Option Flag := g.flag? (String.ofList ['-', c])

/-- The options in a word of letters: a first one, and those that are joined to it. None of them takes
a value, so that what is no option is refused. -/
def letters (g : Grammar) (f : Flag) : List Char → Except Misuse (List Flag)
  | [] => .ok [f]
  | c :: rest =>
    match g.letter? c with
    | none => .error (.valueUnused f (c :: rest))
    | some next => (g.letters next rest).map (f :: ·)

/-- The options in a word whose first one takes no value. An equals sign before other letters makes no
difference. -/
def switches (g : Grammar) (spelling : String) (f : Flag) :
    Option Attached → Except Misuse (List Flag)
  | none => .ok [f]
  | some attached =>
    if spelling.startsWith "--" || attached.chars.isEmpty then .error (.valueUnused f attached.chars)
    else g.letters f attached.chars

/-- Takes an option before the words that follow. -/
def use (g : Grammar) (f : Flag) (value : String) (rest : Except Stop Reading) :
    Except Stop Reading :=
  match f.key with
  | .help => .error (.help g)
  | .version => .error .version
  | key => rest.map (·.addUse key value)

/-- The end of a reading. -/
def finish (g : Grammar) (stage : Stage) : Except Stop Reading :=
  match g.operand, stage with
  | .required name _, .awaited | .command name _, .awaited =>
    .error (.misuse g (.operandMissing name))
  | _, _ => .ok {}

/-- Takes words from left to right. The separator is dropped next to the operand; a command takes all
the words after it. -/
def readWords (g : Grammar) (stage : Stage) : List Word → Except Stop Reading
  | [] => g.finish stage
  | ⟨text, .unknown⟩ :: rest =>
    (g.readWords (if stage = .taken then .closed else stage) rest).map (·.addExtras [text])
  | ⟨_, .option spelling flag attached⟩ :: rest =>
    let stage := if stage = .taken then .closed else stage
    match flag.value, attached with
    | none, attached =>
      match g.switches spelling flag attached with
      | .error misuse => .error (.misuse g misuse)
      | .ok flags =>
        flags.foldr (fun f reading => g.use f "" reading) (g.readWords stage rest)
    | some _, some attached => g.use flag attached.value (g.readWords stage rest)
    | some _, none =>
      match rest with
      | ⟨value, .operand⟩ :: rest => g.use flag value (g.readWords stage rest)
      | _ => .error (.misuse g (.valueExpected flag))
  | ⟨text, .operand⟩ :: rest =>
    match stage, g.operand with
    | .awaited, .command .. => .ok { operands := text :: rest.map (·.text) }
    | .awaited, _ => (g.readWords .taken rest).map (·.addOperand text)
    | _, _ => (g.readWords .closed rest).map (·.addExtras [text])
  | ⟨text, .separator⟩ :: rest =>
    match stage, g.operand with
    | .awaited, .command .. => .ok { operands := text :: rest.map (·.text) }
    | .awaited, _ => g.readWords .awaited rest
    | .taken, _ => g.readWords .closed rest
    | .closed, _ => (g.readWords .closed rest).map (·.addExtras [text])

/-- Reads a command line. -/
def read (g : Grammar) (line : List String) : Except Stop Reading :=
  match g.words line with
  | .error misuse => .error (.misuse g misuse)
  | .ok words => g.readWords .awaited words

/-- Refuses words that nothing has a place for. -/
def refuse (g : Grammar) (extras : List String) : Except Stop Unit :=
  if extras.isEmpty then .ok () else .error (.misuse g (.unrecognized extras))

end Grammar

end RouteInventory.CommandLine
