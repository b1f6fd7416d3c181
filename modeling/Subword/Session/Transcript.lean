import Subword.Session.Basic
import Subword.Sink
import Subword.Text.Lines

/-!
Transcripts: a session that takes its lines from a byte stream and writes to a sink. Before each line
stands a prompt, behind it what its turn shows; the session ends with an exit word or with the stream. Each
input is one step of the session, and the transcript carries out step after step.
-/
namespace Subword.Session

/-- How a stream stops behind its last byte. -/
inductive Stop where
  | endOfInput
  /-- The user interrupts while more input is awaited. -/
  | interrupt
  | failure
  deriving DecidableEq, Repr

inductive Ending where
  | exit
  | interrupted
  | endOfInput
  deriving DecidableEq, Repr

structure Transcript where
  ending : Except IoError Ending
  session : Session
  sink : Sink

/-- The lines of a stream with their terminators. What the last terminator leaves is a line only if the
stream then ends; otherwise it is lost. -/
def streamLines (bytes : Bytes) (stop : Stop) : List Bytes :=
  (cutBehind (· == 0x0A) bytes).filter fun line =>
    line.getLast? = some 0x0A ∨ stop = .endOfInput

def lineContent (line : Bytes) : Bytes := dropLastIf 0x0D (dropLastIf 0x0A line)

/-- Takes a line of bytes; one that is not UTF-8 fails. -/
def handleBytes (s : Session) (line : Bytes) : Turn × Session :=
  match Utf8.decode (lineContent line) with
  | .ok text => s.handleLine text
  | .error fault => (.failed ("Input is not valid UTF-8: ".toList ++ fault.message), s)

inductive Input where
  /-- A line of bytes, with its terminator. -/
  | line (bytes : Bytes)
  | endOfInput
  | interrupt

def Stop.inputs : Stop → List Input
  | endOfInput => [.endOfInput]
  | interrupt => [.interrupt]
  | failure => []

/-- What a session finds in a stream; behind the last of it reading fails. -/
def inputs (bytes : Bytes) (stop : Stop) : List Input :=
  (streamLines bytes stop).map .line ++ stop.inputs

/-- What a session does with an input: the writes that it makes, the session behind them, and why that has
ended if it has. -/
structure Reply where
  session : Session
  writes : List Text
  ending : Option Ending := none

/-- One step of a session. It is over before its farewell is written. -/
def step (s : Session) : Input → Reply
  | .line bytes =>
    match s.handleBytes bytes with
    | (.exit, session) => { session, writes := [farewell], ending := some .exit }
    | (turn, session) => { session, writes := turn.writes session.limits }
  | .endOfInput => { session := s.terminate, writes := [farewell], ending := some .endOfInput }
  | .interrupt =>
    { session := s.terminate, writes := ["\n".toList, farewell], ending := some .interrupted }

/-- Makes writes and goes on, or ends for want of room. -/
def writing (s : Session) (writes : List Text) (sink : Sink) (next : Sink → Transcript) : Transcript :=
  match sink.printAll writes with
  | .ok sink => next sink
  | .error sink => ⟨.error .sinkFull, s, sink⟩

/-- Makes the writes of a reply, and ends with it or goes on. -/
def Reply.carryOut (r : Reply) (sink : Sink) (next : Sink → Transcript) : Transcript :=
  writing r.session r.writes sink fun sink =>
    match r.ending with
    | some e => ⟨.ok e, r.session, sink⟩
    | none => next sink

def converse (s : Session) (inputs : List Input) (sink : Sink) : Transcript :=
  if s.state = .terminated then ⟨.ok .exit, s, sink⟩
  else writing s [prompt] sink fun sink =>
    match inputs with
    | [] => ⟨.error .readFailed, s, sink⟩
    | input :: inputs => (s.step input).carryOut sink (converse (s.step input).session inputs)

def drive (s : Session) (bytes : Bytes) (stop : Stop) (sink : Sink) : Transcript :=
  converse s (inputs bytes stop) sink

end Subword.Session
