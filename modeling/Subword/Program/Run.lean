import Subword.Program.Command
import Subword.Program.Mode
import Subword.Session.Transcript
import Subword.Settings

/-!
Running a program: its arguments are read, then the settings, then the encoding, and then the command is
carried out. The first of these that fails decides how the program ends.
-/
namespace Subword

structure Context where
  settings : Settings
  provider : Mode.Loaded

/-- The context of settings; an encoding that is named takes the place of the configured one. -/
def Context.of (vocabulary : Provider.Source) (settings : Settings) (named : Option Text) : Context :=
  ⟨settings, Provider.load vocabulary (named.getD settings.encoding)⟩

namespace Program

structure Environment where
  vocabulary : Provider.Source
  files : FileStore
  home : Text
  settingsHome : Option Text := none
  stdin : Bytes := []

inductive ExitStatus where
  | success
  | failure
  /-- The arguments cannot be read. -/
  | misuse
  deriving DecidableEq, Repr

def ExitStatus.code : ExitStatus → Nat
  | success => 0
  | failure => 1
  | misuse => 2

/-- What a run leaves behind. An error is told on the standard error stream. -/
structure Outcome where
  status : ExitStatus
  sink : Sink
  error : Option Text := none
  files : FileStore

def Outcome.stderr (o : Outcome) : Text :=
  match o.error with
  | none => []
  | some message => message ++ "\n".toList

def name : Program → Text
  | inspect => "tokscope".toList
  | precompute => "precompute-tokens".toList

def help : Program → Text
  | inspect =>
    ("Inspect how text is split into subword tokens\n\n" ++
      "Usage: tokscope [OPTIONS] [TEXT]\n\n" ++
      "Arguments:\n" ++
      "  [TEXT]  Text to tokenize; starts an interactive session when omitted\n\n" ++
      "Options:\n" ++
      "      --json [<TEXT>]        Print the tokenization as JSON (`-` reads the text from stdin)\n" ++
      "      --count [<TEXT>]       Print only the token count\n" ++
      "  -e, --encoding <ENCODING>  Encoding name (cl100k_base, o200k_base, p50k_base, p50k_edit, " ++
      "r50k_base)\n" ++
      "      --config <CONFIG>      Config file (default: platform config dir)\n" ++
      "  -h, --help                 Print help\n" ++
      "  -V, --version              Print version\n").toList
  | precompute =>
    ("Encode a file of prompts, one per line, into a JSON document\n\n" ++
      "Usage: precompute-tokens [OPTIONS] [INPUT] [OUTPUT]\n\n" ++
      "Arguments:\n" ++
      "  [INPUT]   Prompt file, one prompt per line\n" ++
      "  [OUTPUT]  JSON file to write\n\n" ++
      "Options:\n" ++
      "  -e, --encoding <ENCODING>  Encoding name\n" ++
      "      --config <CONFIG>      Config file (default: platform config dir)\n" ++
      "  -h, --help                 Print help\n" ++
      "  -V, --version              Print version\n").toList

def version (p : Program) : Text := p.name ++ " 0.1.0\n".toList

/-- The sink of a run, which starts empty and has no limit. -/
def printed (t : Text) : Sink := { kept := Utf8.encode t }

def stopped (p : Program) (env : Environment) : Arguments.Stop → Outcome
  | .help => { status := .success, sink := printed p.help, files := env.files }
  | .version => { status := .success, sink := printed p.version, files := env.files }
  | _ => { status := .misuse, sink := {}, files := env.files }

def failed (message : Text) (sink : Sink) (files : FileStore) : Outcome :=
  { status := .failure, sink, error := some ("Error: ".toList ++ message), files }

def ended (result : Mode.Result) (files : FileStore) : Outcome :=
  match result.outcome with
  | .ok .success => { status := .success, sink := result.sink, files }
  | .ok .failure => { status := .failure, sink := result.sink, files }
  | .error e => failed e.message result.sink files

/-- A session over standard input, after its banner. -/
def interact (provider : Provider) (settings : Settings) (env : Environment) : Outcome :=
  let session : Session := { provider, limits := settings.limits }
  let t := session.writing (Session.banner provider settings.examples) {}
    (session.drive env.stdin .endOfInput)
  match t.ending with
  | .ok _ => { status := .success, sink := t.sink, files := env.files }
  | .error e => failed e.message t.sink env.files

def carryOut (context : Context) (env : Environment) : Command → Outcome
  | .interactive =>
    match context.provider with
    | .error e => failed e.message {} env.files
    | .ok provider => interact provider context.settings env
  | .json source =>
    match source.read env.stdin with
    | .error e => failed e.message {} env.files
    | .ok text => ended (Mode.json context.provider text {}) env.files
  | .count text => ended (Mode.count context.provider text {}) env.files
  | .report text => ended (Mode.report context.provider text {}) env.files
  | .precompute input output =>
    let (result, files) := Mode.precompute context.provider input output env.files {}
    ended result files

/-- What arguments and settings ask for: the context and the command, or the outcome of a run that ends
before it has a command to carry out. -/
def prepare (p : Program) (args : List Text) (env : Environment) : Except Outcome (Context × Command) :=
  match Arguments.read p args with
  | .error stop => .error (p.stopped env stop)
  | .ok arguments =>
    match arguments.command p with
    | .error usage =>
      .error { status := .failure, sink := printed usage.report, files := env.files }
    | .ok command =>
      let default := Settings.defaultPath env.home env.settingsHome
      match Settings.load env.files (arguments.value? .config) default with
      | .error e => .error (failed e.message {} env.files)
      | .ok settings =>
        .ok (.of env.vocabulary settings (arguments.value? .encoding), command)

def run (p : Program) (args : List Text) (env : Environment) : Outcome :=
  match p.prepare args env with
  | .error outcome => outcome
  | .ok (context, command) => carryOut context env command

end Program

end Subword
