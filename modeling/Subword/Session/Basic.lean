import Subword.Text.Blank
import Subword.Tokenization

/-!
Sessions: a session takes lines of text until a line or its user ends it. A line gives a turn, and a turn
is shown by the writes that it leads to.
-/
namespace Subword

inductive Session.State where
  | running
  | terminated
  deriving DecidableEq, Repr

inductive Session.Turn where
  /-- The line is blank. -/
  | skip
  /-- The session is over. -/
  | exit
  | report (result : Tokenization)
  /-- The line failed; the session goes on. -/
  | failed (message : Text)

structure Session where
  provider : Provider
  limits : Breakdown.Limits
  state : Session.State := .running

namespace Session

def exitWords : List Text := ["exit".toList, "quit".toList, "q".toList]

/-- The line is an exit word, in upper or lower case, and nothing else. -/
def isExitWord (line : Text) : Bool := line.map Char.toLower ∈ exitWords

/-- The turn of a line that is no exit word, in a running session. -/
def answer (p : Provider) (line : Text) : Turn :=
  if Text.trim line = [] then .skip
  else match Tokenization.build p line with
    | .ok r => .report r
    | .error e => .failed e.message

/-- Takes a line, without its terminator. -/
def handleLine (s : Session) (line : Text) : Turn × Session :=
  if s.state = .terminated ∨ isExitWord line then (.exit, { s with state := .terminated })
  else (answer s.provider line, s)

def terminate (s : Session) : Session := { s with state := .terminated }

/-- The writes that show a turn; blank lines and the end show nothing. -/
def Turn.writes (limits : Breakdown.Limits) : Turn → List Text
  | skip | exit => []
  | failed message => ["Error: ".toList ++ message ++ "\n".toList]
  | report r => r.sessionWrites limits

def Turn.render (limits : Breakdown.Limits) (turn : Turn) : Text := (turn.writes limits).flatten

def prompt : Text := "\nYou: ".toList

def farewell : Text := "\nGoodbye!\n".toList

def exampleLine (p : Provider) (text : Text) : Text :=
  "  \"".toList ++ text ++ "\" -> ".toList ++
    match p.encode text with
    | .ok ids => Text.decimal ids.length ++ " tokens\n".toList
    | .error e => "Error: ".toList ++ e.message ++ "\n".toList

def exampleWrites (p : Provider) (examples : List Text) : List Text :=
  if examples = [] then []
  else "Examples:\n".toList :: examples.map (exampleLine p) ++ ["\n".toList]

def banner (p : Provider) (examples : List Text) : List Text :=
  ["=== tokscope: subword tokenizer ===\n".toList,
    "Using ".toList ++ p.name ++ " encoding\n".toList,
    "Type your prompts to see accurate tokenization!\n".toList,
    "Type 'exit' or 'quit' to end the session.\n".toList,
    "===================================\n".toList,
    "\n".toList] ++ exampleWrites p examples

end Session

end Subword
