import Subword.Sink
import Subword.Text.Lines

/-!
A file system as a value: files and directories under absolute paths, and the current directory. Reading,
and writing a whole file, are the only operations; a failed one changes nothing.
-/
namespace Subword

inductive FileStore.Node where
  | directory
  | file (content : Bytes)
  deriving DecidableEq, Repr

/-- Files and directories by the names that lead to them from the root, which is itself a directory. -/
structure FileStore where
  entries : List (List Text × FileStore.Node) := []
  current : List Text := []
  deriving DecidableEq, Repr

namespace FileStore

def find? (fs : FileStore) (path : List Text) : Option Node :=
  if path = [] then some .directory else fs.entries.lookup path

def putEntry (path : List Text) (node : Node) :
    List (List Text × Node) → List (List Text × Node)
  | [] => [(path, node)]
  | entry :: rest =>
    if entry.1 = path then (path, node) :: rest else entry :: putEntry path node rest

def put (fs : FileStore) (path : List Text) (node : Node) : FileStore :=
  { fs with entries := putEntry path node fs.entries }

theorem lookup_putEntry (path other : List Text) (node : Node) (entries : List (List Text × Node)) :
    (putEntry path node entries).lookup other =
      if other = path then some node else entries.lookup other := by
  induction entries with
  | nil =>
    by_cases h : other = path
    · simp [putEntry, h]
    · simp [putEntry, List.lookup_cons, h, beq_false_of_ne h]
  | cons entry rest ih =>
    obtain ⟨key, value⟩ := entry
    by_cases hk : key = path
    · subst hk
      by_cases ho : other = key
      · simp [putEntry, ho]
      · simp [putEntry, List.lookup_cons, ho, beq_false_of_ne ho]
    · by_cases ho : other = key
      · subst ho
        simp [putEntry, hk]
      · simp [putEntry, List.lookup_cons, hk, ih, beq_false_of_ne ho]

theorem find?_put {fs : FileStore} {path : List Text} (h : path ≠ []) (node : Node)
    (other : List Text) :
    (fs.put path node).find? other = if other = path then some node else fs.find? other := by
  by_cases ho : other = []
  · subst ho
    simp [find?, h.symm]
  · simp [find?, put, ho, lookup_putEntry]

def makeParents (fs : FileStore) (path : List Text) : FileStore :=
  (List.range path.length).foldl
    (fun fs n => if (fs.find? (path.take n)).isNone then fs.put (path.take n) .directory else fs) fs

/-- The names in a path, which slashes part. -/
def names (path : Text) : List Text :=
  ((cutBehind (· == '/') path).map (dropLastIf '/')).filter (· ≠ [])

def nameLimit : Nat := 255

def pathLimit : Nat := 4095

/-- The text has more bytes than the limit. -/
def exceeds (t : Text) (limit : Nat) : Bool := limit < (Utf8.encode t).length

/-- Why a path cannot be followed at all, whatever is stored. -/
def refusal? (path : Text) : Option IoError :=
  if '\x00' ∈ path then some .nulInPath
  else if path = [] then some .notFound
  else if exceeds path pathLimit then some .nameTooLong
  else none

def step (fs : FileStore) (directory : List Text) (name : Text) : Except IoError (List Text) :=
  if name = ".".toList then .ok directory
  else if name = "..".toList then .ok directory.dropLast
  else if exceeds name nameLimit then .error .nameTooLong
  else match fs.find? (directory ++ [name]) with
    | none => .error .notFound
    | some (.file _) => .error .notADirectory
    | some .directory => .ok (directory ++ [name])

/-- What a path leads to; `slash` tells that it ends with a slash, as only a directory's path may. Nothing
can stand at a path whose last name is overlong. -/
inductive Target where
  | directory
  | file (path : List Text) (content : Bytes) (slash : Bool)
  | missing (path : List Text) (slash : Bool)
  | overlong (slash : Bool)
  deriving DecidableEq, Repr

/-- Follows a path, from the root if it starts with a slash, else from the current directory. -/
def target (fs : FileStore) (path : Text) : Except IoError Target :=
  match refusal? path with
  | some e => .error e
  | none =>
    let start := if path.head? = some '/' then [] else fs.current
    let slash := path.getLast? = some '/'
    match (names path).getLast? with
    | none => .ok .directory
    | some last =>
      match (names path).dropLast.foldlM fs.step start with
      | .error e => .error e
      | .ok directory =>
        if last = ".".toList ∨ last = "..".toList then .ok .directory
        else if exceeds last nameLimit then .ok (.overlong slash)
        else match fs.find? (directory ++ [last]) with
          | some .directory => .ok .directory
          | some (.file content) => .ok (.file (directory ++ [last]) content slash)
          | none => .ok (.missing (directory ++ [last]) slash)

def read (fs : FileStore) (path : Text) : Except IoError Bytes :=
  match fs.target path with
  | .error e => .error e
  | .ok .directory => .error .isADirectory
  | .ok (.file _ content slash) => if slash then .error .notADirectory else .ok content
  | .ok (.missing ..) => .error .notFound
  | .ok (.overlong _) => .error .nameTooLong

def readText (fs : FileStore) (path : Text) : Except IoError Text :=
  match fs.read path with
  | .error e => .error e
  | .ok content => (Utf8.decode content).mapError fun _ => .notUtf8

/-- Writes a file, new or in place of the one at the path. -/
def write (fs : FileStore) (path : Text) (content : Bytes) : Except IoError FileStore :=
  match fs.target path with
  | .error e => .error e
  | .ok .directory => .error .isADirectory
  | .ok (.file place _ slash) | .ok (.missing place slash) =>
    if slash then .error .isADirectory else .ok (fs.put place (.file content))
  | .ok (.overlong slash) => if slash then .error .isADirectory else .error .nameTooLong

def holds (fs : FileStore) (path : Text) : Bool :=
  match fs.target path with
  | .error _ | .ok (.missing ..) | .ok (.overlong _) => false
  | .ok .directory => true
  | .ok (.file _ _ slash) => !slash

end FileStore

end Subword
