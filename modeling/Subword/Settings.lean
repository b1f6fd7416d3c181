import Subword.Breakdown
import Subword.FileStore
import Subword.Toml.Reader

/-!
Settings: what a file in TOML sets, merged setting by setting with the defaults, and where the file is.
-/
namespace Subword

structure Settings where
  /-- The name of the encoding to use if none is given. -/
  encoding : Text := "cl100k_base".toList
  limits : Breakdown.Limits := {}
  examples : List Text :=
    ["Hello, world!".toList, "GPT-4 is amazing".toList, "The quick brown fox jumps".toList]
  deriving DecidableEq

namespace Settings

inductive Error where
  /-- The file cannot be read, or is not UTF-8. -/
  | unreadable (path : Text)
  /-- The file is not TOML, or sets something to a value of another kind. -/
  | invalid (path : Text)
  deriving DecidableEq

def Error.message : Error → Text
  | unreadable path => "Failed to read config file ".toList ++ path
  | invalid path => "Invalid config file ".toList ++ path

/-- The value of a setting: the default if it is not stated, nothing if it is of another kind. -/
def stated {α : Type} (value : Option Toml) (read : Toml → Option α) (default : α) : Option α :=
  match value with
  | none => some default
  | some v => read v

def text? : Toml → Option Text
  | .string s => some s
  | _ => none

def limit? : Toml → Option Nat
  | .integer i => if 0 ≤ i then some i.toNat else none
  | _ => none

def texts? : Toml → Option (List Text)
  | .array items => items.mapM text?
  | _ => none

/-- The parts of a group of settings: by name in a table, by position in an array, where further items do
not count. A date has no parts. -/
def parts? (names : List Text) : Toml → Option (List (Option Toml))
  | .table _ entries => some (names.map fun name => entries.lookup name)
  | .array items => some ((List.range names.length).map (items[·]?))
  | .dateTime => some (names.map fun _ => none)
  | _ => none

def limits? (v : Toml) : Option Breakdown.Limits :=
  match parts? ["max_token_strings".toList, "max_token_ids".toList] v with
  | some [strings, ids] => do
    let strings ← stated strings limit? ({} : Breakdown.Limits).strings
    let ids ← stated ids limit? ({} : Breakdown.Limits).ids
    return ⟨strings, ids⟩
  | _ => none

def examples? (v : Toml) : Option (List Text) :=
  match parts? ["examples".toList] v with
  | some [examples] => stated examples texts? ({} : Settings).examples
  | _ => none

/-- The settings that a root table states; other keys do not count. -/
def ofEntries? (entries : Toml.Entries) : Option Settings := do
  let encoding ← stated (entries.lookup "encoding".toList) text? ({} : Settings).encoding
  let limits ← stated (entries.lookup "display".toList) limits? {}
  let examples ← stated (entries.lookup "session".toList) examples? ({} : Settings).examples
  return { encoding, limits, examples }

def ofDocument? (document : Text) : Option Settings :=
  (Toml.ofDocument? document).bind ofEntries?

def join (directory name : Text) : Text :=
  if directory = [] ∨ directory.getLast? = some '/' then directory ++ name
  else directory ++ '/' :: name

/-- Where the settings file is if no other is named: below the directory for settings, which counts only if
it is given by an absolute path, or else below the user's home. -/
def defaultPath (home : Text) (settingsHome : Option Text) : Text :=
  let base := match settingsHome with
    | some ('/' :: path) => '/' :: path
    | _ => join home ".config".toList
  join (join base "tokscope".toList) "config.toml".toList

def loadFrom (fs : FileStore) (path : Text) : Except Error Settings :=
  match fs.readText path with
  | .error _ => .error (.unreadable path)
  | .ok document =>
    match ofDocument? document with
    | none => .error (.invalid path)
    | some settings => .ok settings

/-- The settings in the named file, which has to be there, or in the file at the default path, if it is
there. -/
def load (fs : FileStore) (named : Option Text) (default : Text) : Except Error Settings :=
  match named with
  | some path => loadFrom fs path
  | none => if fs.holds default then loadFrom fs default else .ok {}

end Settings

end Subword
