import Subword.Batch.Basic
import Subword.FileStore
import Subword.Tokenization

/-!
Modes: the ways in which a program shows the tokens of a text, and the encoding of a file. Each takes a
provider that may have failed to load and writes to a sink.
-/
namespace Subword.Mode

inductive Failure where
  | encoding (e : EncodingError)
  | io (e : IoError)
  /-- A prompt could not be encoded. -/
  | batchEncoding (e : EncodingError)
  /-- The prompts could not be read, or their tokens not be written. -/
  | batchIo (e : IoError)
  deriving DecidableEq

def Failure.message : Failure → Text
  | encoding e | batchEncoding e => e.message
  | io e => e.message
  | batchIo e => "IO error: ".toList ++ e.message

inductive ExitCode where
  | success
  | failure
  deriving DecidableEq, Repr

structure Result where
  outcome : Except Failure ExitCode
  sink : Sink

/-- A provider, or why it could not be had. -/
abbrev Loaded := Except EncodingError Provider

/-- Makes writes and ends with a code, unless the sink is full. -/
def finish (writes : List Text) (code : ExitCode) (sink : Sink) : Result :=
  match sink.printAll writes with
  | .ok sink => ⟨.ok code, sink⟩
  | .error sink => ⟨.error (.io .sinkFull), sink⟩

theorem finish_of_unlimited (writes : List Text) (code : ExitCode) {sink : Sink} (h : sink.room = none) :
    finish writes code sink = ⟨.ok code, ⟨sink.kept ++ Utf8.encode writes.flatten, none⟩⟩ := by
  obtain ⟨kept, room⟩ := sink
  subst h
  rw [finish, Sink.printAll_unlimited]

/-- Writes the document of a text's tokenization, or of the error; both are a success. -/
def json (p : Loaded) (text : Text) (sink : Sink) : Result :=
  finish [(Tokenization.Outcome.ofLoaded p text).toJson.pretty ++ "\n".toList] .success sink

def encodeLoaded (p : Loaded) (text : Text) : Except EncodingError (List TokenId) :=
  p.bind fun p => p.encode text

def count (p : Loaded) (text : Text) (sink : Sink) : Result :=
  match encodeLoaded p text with
  | .error e => ⟨.error (.encoding e), sink⟩
  | .ok ids => finish [Text.decimal ids.length ++ "\n".toList] .success sink

/-- Writes the report of a text's tokenization, or the error, which is a failure. -/
def report (p : Loaded) (text : Text) (sink : Sink) : Result :=
  match Tokenization.Outcome.ofLoaded p text with
  | .success r => finish r.reportWrites .success sink
  | .error message => finish ["Error: ".toList ++ message ++ "\n".toList] .failure sink

def readBatch (p : Provider) (fs : FileStore) (input : Text) : Except Failure Batch :=
  match fs.readText input with
  | .error e => .error (.batchIo e)
  | .ok content => (Batch.ofLines p content).mapError .batchEncoding

def summary (b : Batch) (output : Text) : List Text :=
  ["✓ Precomputed tokens for ".toList ++ Text.decimal b.prompts.length ++ " prompts\n".toList,
    "  Output: ".toList ++ output ++ "\n".toList]

/-- Encodes the prompts of a file and writes their batch to another; nothing is written unless all of them
encode. -/
def precompute (p : Loaded) (input output : Text) (fs : FileStore) (sink : Sink) :
    Result × FileStore :=
  match p with
  | .error e => (⟨.error (.encoding e), sink⟩, fs)
  | .ok p =>
    match readBatch p fs input with
    | .error failure => (⟨.error failure, sink⟩, fs)
    | .ok batch =>
      match fs.write output (Utf8.encode batch.toJson.pretty) with
      | .error e => (⟨.error (.batchIo e), sink⟩, fs)
      | .ok fs => (finish (summary batch output) .success sink, fs)

end Subword.Mode
