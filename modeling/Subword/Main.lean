import Subword.Program.Run
import Subword.Vocabulary.Listing

/-!
The command line. The first argument names the program, the others are the program's own. Files named by
arguments are read into a file store, and what the run has changed in it is written back.
-/
namespace Subword.Main

def readFile? (path : String) : IO (Option Bytes) :=
  try
    return some (← IO.FS.readBinFile path).toList
  catch _ => return none

/-- The vocabulary of an encoding: the listing of its name in the directory for vocabularies. -/
def vocabulary (directory : String) (e : Encoding) : IO (Except EncodingError Vocabulary) := do
  let path := Settings.join directory.toList (e.name ++ ".txt".toList)
  match ← readFile? (String.ofList path) with
  | none => return .error (.load e.name "no vocabulary".toList)
  | some bytes =>
    match (Utf8.decode bytes).toOption.bind fun t => Vocabulary.ofListing? (Text.lines t) [] with
    | none => return .error (.load e.name "not a vocabulary".toList)
    | some v => return .ok v

def paths (args : List String) : List Text :=
  args.flatMap fun a => [a.toList, (a.toList.dropWhile (· ≠ '=')).drop 1]

/-- The file store of those paths that can be read. -/
def snapshot (paths : List Text) : IO FileStore :=
  paths.foldlM (fun files path => do
    let place := FileStore.names path
    if place = [] then return files
    let files := files.makeParents place
    match ← readFile? (String.ofList path) with
    | some content => return files.put place (.file content)
    | none => return files) {}

/-- Writes back the files that a run has changed. -/
def commit (paths : List Text) (before after : FileStore) : IO Unit :=
  paths.forM fun path => do
    match after.read path with
    | .ok content =>
      if (before.read path).toOption ≠ some content then
        IO.FS.writeBinFile (String.ofList path) (ByteArray.mk content.toArray)
    | .error _ => return ()

def put (stream : IO.FS.Stream) (bytes : Bytes) : IO Unit := do
  stream.write (ByteArray.mk bytes.toArray)
  stream.flush

def printAll (stream : IO.FS.Stream) (writes : List Text) : IO Unit :=
  writes.forM fun t => put stream (Utf8.encode t)

partial def readAll (stream : IO.FS.Stream) (start : Bytes) : IO Bytes := do
  let chunk ← stream.read 65536
  if chunk.isEmpty then return start else readAll stream (start ++ chunk.toList)

/-- Reads a line with its terminator. -/
partial def readLine (stream : IO.FS.Stream) (start : Bytes) : IO Bytes := do
  match (← stream.read 1).toList with
  | [] => return start
  | b :: _ => if b = 0x0A then return start ++ [b] else readLine stream (start ++ [b])

/-- A session over the terminal, which takes its steps as the input comes. -/
partial def converse (s : Session) (input output : IO.FS.Stream) : IO Unit := do
  printAll output [Session.prompt]
  let line ← readLine input []
  let reply := s.step (if line = [] then .endOfInput else .line line)
  printAll output reply.writes
  if reply.ending.isNone then converse reply.session input output

def runProgram (p : Program) (args : List String) : IO UInt32 := do
  let input ← IO.getStdin
  let output ← IO.getStdout
  let home := ((← IO.getEnv "HOME").getD "").toList
  let settingsHome := (← IO.getEnv "XDG_CONFIG_HOME").map String.toList
  let listings := (← IO.getEnv "TOKSCOPE_VOCABULARIES").getD "vocabularies"
  let named := Settings.defaultPath home settingsHome :: paths args
  let files ← snapshot named
  let vocabularies ← Encoding.all.mapM fun e => return (e, ← vocabulary listings e)
  let env : Program.Environment := {
    vocabulary := fun e =>
      (vocabularies.lookup e).getD (.error (.load e.name "no vocabulary".toList))
    files, home, settingsHome }
  let outcome ← match p.prepare (args.map String.toList) env with
    | .error outcome => pure outcome
    | .ok (⟨settings, .ok provider⟩, .interactive) => do
      printAll output (Session.banner provider settings.examples)
      converse { provider, limits := settings.limits } input output
      pure (Program.ended ⟨.ok .success, {}⟩ files)
    | .ok (context, command) => do
      let stdin ← match command with
        | .json .standardInput => readAll input []
        | _ => pure []
      pure (Program.carryOut context { env with stdin } command)
  commit named files outcome.files
  put output outcome.sink.kept
  put (← IO.getStderr) (Utf8.encode outcome.stderr)
  return outcome.status.code.toUInt32

end Subword.Main

open Subword in
/-- Runs the program that the first argument names. -/
def main (args : List String) : IO UInt32 :=
  match args with
  | "precompute-tokens" :: args => Main.runProgram .precompute args
  | "tokscope" :: args => Main.runProgram .inspect args
  | args => Main.runProgram .inspect args
