import ShaderLift.Files.Path
import ShaderLift.Text.Blank
import ShaderLift.Text.Lines
import ShaderLift.Text.Utf8

/-!
# File stores

A file store holds directories and files as a program sees them from its
working directory.  A place is a list of names: those that lead there from the
working directory or, for a place outside of it, those that lead there from the
root of the file system, whose own name is a slash.  Reading and writing follow
a path part by part, so that a missing directory or a file on the way is found
where it is met.
-/

namespace ShaderLift

/-- Why a path cannot be used. -/
inductive FileCause
  | notFound
  | isDirectory
  | notDirectory
deriving Repr, DecidableEq

/-- A path that cannot be used. -/
structure FileError where
  cause : FileCause
  path : String
deriving Repr, DecidableEq

/-- The wording of a cause. -/
def FileCause.message : FileCause → String
  | .notFound => "[Errno 2] No such file or directory"
  | .isDirectory => "[Errno 21] Is a directory"
  | .notDirectory => "[Errno 20] Not a directory"

/-- The wording of an error. -/
def FileError.message (error : FileError) : String :=
  s!"{error.cause.message}: {Text.quoted error.path}"

/-- The names that lead to a place. -/
abbrev FilePlace :=
  List String

/-- What a store holds at a place. -/
inductive FileEntry
  | directory
  | file (bytes : List UInt8)
deriving Repr, DecidableEq

/-- The directories and files that a program sees. -/
structure FileStore where
  /-- Absolute path of the working directory. -/
  root : String
  /-- Entries in the order in which they were made. -/
  entries : List (FilePlace × FileEntry) := []
deriving Repr, DecidableEq

namespace FileStore

/-- Where the working directory stands below the root of the file system. -/
def home (store : FileStore) : FilePlace :=
  "/" :: (Path.parts store.root).filter Path.isName

/-- What stands at a place.  The working directory and the directories that
lead to it are always there. -/
def get? (store : FileStore) (place : FilePlace) : Option FileEntry :=
  if place.isPrefixOf store.home then some .directory
  else (store.entries.find? fun entry => entry.1 == place).map Prod.snd

/-- Put an entry at a place of a list: a known place keeps its position, a new
one is last. -/
def setIn
    (place : FilePlace)
    (entry : FileEntry) : List (FilePlace × FileEntry) → List (FilePlace × FileEntry)
  | [] => [(place, entry)]
  | (known, old) :: rest =>
      if known == place then (place, entry) :: rest
      else (known, old) :: setIn place entry rest

/-- Put an entry at a place, instead of what stands there. -/
def set (store : FileStore) (place : FilePlace) (entry : FileEntry) : FileStore :=
  { store with entries := setIn place entry store.entries }

@[simp] theorem home_set
    (store : FileStore)
    (place : FilePlace)
    (entry : FileEntry) : (store.set place entry).home = store.home :=
  rfl

theorem find?_setIn_self
    (place : FilePlace)
    (entry : FileEntry)
    (entries : List (FilePlace × FileEntry)) :
    (setIn place entry entries).find? (fun known => known.1 == place) =
      some (place, entry) := by
  induction entries with
  | nil => simp [setIn]
  | cons known rest inductionHypothesis =>
      by_cases same : known.1 = place
      · simp [setIn, same]
      · simp [setIn, same, inductionHypothesis]

theorem find?_setIn_of_ne
    {place other : FilePlace}
    (differ : other ≠ place)
    (entry : FileEntry)
    (entries : List (FilePlace × FileEntry)) :
    (setIn place entry entries).find? (fun known => known.1 == other) =
      entries.find? (fun known => known.1 == other) := by
  induction entries with
  | nil => simp [setIn, differ.symm]
  | cons known rest inductionHypothesis =>
      by_cases same : known.1 = place
      · simp [setIn, same, differ.symm]
      · simp [setIn, same, List.find?_cons, inductionHypothesis]

/-- What was put at a place stands there. -/
theorem get?_set_self
    {store : FileStore}
    {place : FilePlace}
    (outside : place.isPrefixOf store.home = false)
    (entry : FileEntry) : (store.set place entry).get? place = some entry := by
  rw [get?, home_set, outside]
  simp [set, find?_setIn_self]

/-- No other place changes. -/
theorem get?_set_of_ne
    {place other : FilePlace}
    (differ : other ≠ place)
    (store : FileStore)
    (entry : FileEntry) : (store.set place entry).get? other = store.get? other := by
  rw [get?, get?, home_set]
  simp [set, find?_setIn_of_ne differ]

/-- Remove the entry at a place. -/
def erase (store : FileStore) (place : FilePlace) : FileStore :=
  { store with entries := store.entries.filter fun entry => entry.1 != place }

/-- Make the directories that lead to a place, so far as they are missing. -/
def makeDirectories (store : FileStore) : FilePlace → FilePlace → FileStore
  | _, [] => store
  | above, name :: rest =>
      let place := above ++ [name]
      let made :=
        if (store.get? place).isSome then store else store.set place .directory
      made.makeDirectories place rest

/-- Put a file at a place and make the directories that lead there. -/
def addFile
    (store : FileStore)
    (place : FilePlace)
    (bytes : List UInt8) : FileStore :=
  (store.makeDirectories [] place.dropLast).set place (.file bytes)

/-! ## Paths -/

/-- The one name of a place: the working directory has no names. -/
def canonical (store : FileStore) (place : FilePlace) : FilePlace :=
  if place = store.home then [] else place

/-- The directory that a place lies in; the root lies in itself. -/
def above (store : FileStore) : FilePlace → FilePlace
  | [] => store.home.dropLast
  | ["/"] => ["/"]
  | place => place.dropLast

/-- Where a path starts, and its parts from there on. -/
def start (store : FileStore) (path : String) : FilePlace × List String :=
  if path = store.root then ([], [])
  else if Text.startsWith path (store.root ++ "/") then
    ([], Path.parts (String.ofList (path.toList.drop (store.root.length + 1))))
  else if Text.startsWith path "/" then
    (store.canonical ["/"], Path.parts path)
  else ([], Path.parts path)

/-- The place that one part of a path leads to. -/
def step (store : FileStore) (place : FilePlace) (part : String) : FilePlace :=
  if part = "" || part = "." then place
  else if part = ".." then store.above place
  else store.canonical (place ++ [part])

/-- Follow parts from a place.  Every place on the way must be a directory. -/
def follow (store : FileStore) :
    FilePlace → List String → Except FileCause FilePlace
  | place, [] => .ok place
  | place, part :: rest =>
      match store.get? place with
      | none => .error .notFound
      | some (.file _) => .error .notDirectory
      | some .directory => store.follow (store.step place part) rest

/-- The place that a path names, whether or not something stands there. -/
def locate (store : FileStore) (path : String) : Except FileCause FilePlace :=
  if path = "" then .error .notFound
  else
    match store.start path with
    | (place, parts) => store.follow place parts

/-- What stands where a path leads. -/
def lookup (store : FileStore) (path : String) : Except FileCause FileEntry :=
  match store.locate path with
  | .error cause => .error cause
  | .ok place =>
      match store.get? place with
      | none => .error .notFound
      | some entry => .ok entry

/-- Something stands where a path leads. -/
def contains (store : FileStore) (path : String) : Bool :=
  match store.lookup path with
  | .ok _ => true
  | .error _ => false

/-- A directory stands where a path leads. -/
def isDirectory (store : FileStore) (path : String) : Bool :=
  match store.lookup path with
  | .ok .directory => true
  | _ => false

/-- The names of the files in a directory, in order. -/
def fileNames (store : FileStore) (path : String) : List String :=
  match store.locate path with
  | .error _ => []
  | .ok place =>
      let names := store.entries.filterMap fun
        | (known, .file _) =>
            if known.dropLast == place then known.getLast? else none
        | _ => none
      names.mergeSort fun left right => decide (left ≤ right)

/-! ## Reading and writing -/

/-- The bytes of a file. -/
def readBytes
    (store : FileStore)
    (path : String) : Except FileError (List UInt8) :=
  match store.lookup path with
  | .error cause => .error ⟨cause, path⟩
  | .ok .directory => .error ⟨.isDirectory, path⟩
  | .ok (.file bytes) => .ok bytes

/-- Why a file cannot be read as text. -/
inductive ReadError
  | file (error : FileError)
  | text (error : Text.DecodeError)
deriving Repr, DecidableEq

/-- The wording of an error. -/
def ReadError.message : ReadError → String
  | .file error => error.message
  | .text error => error.message

/-- The text of a file with its line ends unified. -/
def readText
    (store : FileStore)
    (path : String) : Except ReadError (List Char) :=
  match store.readBytes path with
  | .error error => .error (.file error)
  | .ok bytes =>
      match Text.decode bytes with
      | .error error => .error (.text error)
      | .ok text => .ok (Text.unifyLineEnds text)

/-- The place that a path names for writing.  A path that ends in a slash
names a directory, whatever stands there. -/
def locateFile
    (store : FileStore)
    (path : String) : Except FileCause FilePlace :=
  if Text.endsWith path "/" then
    let bare := Text.dropTrailing (· == '/') path.toList
    if bare.isEmpty then .error .isDirectory
    else
      match store.locate (String.ofList bare) with
      | .error cause => .error cause
      | .ok _ => .error .isDirectory
  else
    match store.locate path with
    | .error cause => .error cause
    | .ok place =>
        match store.get? place with
        | some .directory => .error .isDirectory
        | _ => .ok place

/-- Write a text to a file, whose directory must be there. -/
def writeText
    (store : FileStore)
    (path text : String) : Except FileError FileStore :=
  match store.locateFile path with
  | .error cause => .error ⟨cause, path⟩
  | .ok place => .ok (store.set place (.file (Text.encode text.toList)))

/-- Why a text is not written to a file. -/
inductive WriteError
  | file (error : FileError)
  | text (error : Text.EncodeError)
deriving Repr, DecidableEq

/-- A text that is not written, and the files that this leaves. -/
structure WriteFailure where
  error : WriteError
  files : FileStore
deriving Repr, DecidableEq

/-- Write a text in which some characters stand for halves of surrogate pairs.
The file is emptied before it turns out that the text has no bytes. -/
def writeMarked
    (store : FileStore)
    (path text : String)
    (surrogates : Text.Surrogates) : Except WriteFailure FileStore :=
  match store.locateFile path with
  | .error cause => .error ⟨.file ⟨cause, path⟩, store⟩
  | .ok place =>
      match Text.encodeMarked surrogates text.toList with
      | .error error => .error ⟨.text error, store.set place (.file [])⟩
      | .ok bytes => .ok (store.set place (.file bytes))

/-- A path that leads to a place. -/
def pathOf : FilePlace → String
  | "/" :: names => "/" ++ Path.join names
  | names => Path.join names

/-- The files of a store that another one lacks or holds with other bytes, by
path. -/
def changes (before after : FileStore) : List (String × List UInt8) :=
  let changed := after.entries.filterMap fun
    | (place, .file bytes) =>
        if before.get? place == some (.file bytes) then none
        else some (pathOf place, bytes)
    | _ => none
  changed.mergeSort fun left right => decide (left.1 ≤ right.1)

end FileStore
end ShaderLift
