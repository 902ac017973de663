import AppBundle.Path

namespace AppBundle

/-!
File systems as values. Every directory and file is an entry under its location, the names from
the root down to it; the root itself is a directory without an entry. A path is followed from the
root or from the working directory, and every name but the last must be a directory on the way.
-/

/-- The names from the root down to a place. -/
abbrev Location := List RawText

/-- Contents are compared byte by byte. -/
instance instDecidableEqContent : DecidableEq ByteArray := ByteArray.instDecidableEq

inductive Entry where
  | directory
  | file (content : ByteArray)
deriving DecidableEq

structure FileSystem where
  entries : List (Location × Entry)
  workingDirectory : Location
deriving DecidableEq

/-- Why a place cannot be reached or made. -/
inductive Refusal where
  /-- A name on the way does not exist. -/
  | missing
  /-- The place is taken. -/
  | taken
  /-- A name on the way is no directory, or the path is none. -/
  | blocked
deriving DecidableEq

/-- Gives a location a new entry, in the place of its old one if it had one. -/
def putEntry (location : Location) (entry : Entry) :
    List (Location × Entry) → List (Location × Entry)
  | [] => [(location, entry)]
  | next :: rest =>
      if next.1 = location then (location, entry) :: rest
      else next :: putEntry location entry rest

theorem lookup_putEntry {location other : Location} {entry : Entry}
    {entries : List (Location × Entry)} :
    (putEntry location entry entries).lookup other =
      if other = location then some entry else entries.lookup other := by
  induction entries with
  | nil =>
      by_cases same : other = location
      · simp [putEntry, same]
      · simp only [putEntry, List.lookup_cons, List.lookup_nil, beq_false_of_ne same, same, if_false]
  | cons next rest ih =>
      obtain ⟨first, value⟩ := next
      simp only [putEntry]
      by_cases here : first = location
      · subst first
        by_cases same : other = location
        · simp [same]
        · simp [List.lookup_cons, same, beq_false_of_ne same]
      · by_cases found : other = first
        · subst found
          simp [here]
        · simp only [here, if_false, List.lookup_cons, beq_false_of_ne found, ih]

namespace FileSystem

def nameLimit : Nat := 255

def pathLimit : Nat := 4095

/-- A file system with nothing in it but an empty working directory. -/
def empty : FileSystem :=
  ⟨[(["work"], .directory)], ["work"]⟩

def entryAt? (files : FileSystem) : Location → Option Entry
  | [] => some .directory
  | location => files.entries.lookup location

def put (files : FileSystem) (location : Location) (entry : Entry) : FileSystem :=
  { files with entries := putEntry location entry files.entries }

theorem entryAt?_put {files : FileSystem} {location other : Location} {entry : Entry}
    (below : location ≠ []) :
    (files.put location entry).entryAt? other =
      if other = location then some entry else files.entryAt? other := by
  cases other with
  | nil => simp [entryAt?, below.symm]
  | cons name rest => exact lookup_putEntry

/-- File systems that no reader can tell apart. -/
def Same (left right : FileSystem) : Prop :=
  left.workingDirectory = right.workingDirectory ∧
    ∀ location, left.entryAt? location = right.entryAt? location

/-- Follows names from a directory on. An empty name or `.` stays there, `..` goes up. -/
def follow (files : FileSystem) : Location → List RawText → Except Refusal Location
  | here, [] => .ok here
  | here, name :: rest =>
      match files.entryAt? here with
      | none => .error .missing
      | some (.file _) => .error .blocked
      | some .directory =>
          if name = "" ∨ name = "." then files.follow here rest
          else if name = ".." then files.follow here.dropLast rest
          else if name.size > nameLimit then .error .blocked
          else files.follow (here ++ [name]) rest

/-- Where a path starts, and the names on it. -/
def start (files : FileSystem) (path : Path) : Location × List RawText :=
  let names := path.text.parts Path.slash
  if path.isAbsolute then ([], names.tail) else (files.workingDirectory, names)

def admits (path : Path) : Bool :=
  !path.text.bytes.contains 0 && path.text.size ≤ pathLimit

/-- The location a path leads to; its last name need not exist. -/
def locate (files : FileSystem) (path : Path) : Except Refusal Location :=
  if !admits path then .error .blocked
  else if path.text = "" then .error .missing
  else
    let (here, names) := files.start path
    files.follow here names

def find? (files : FileSystem) (path : Path) : Option Entry :=
  match files.locate path with
  | .ok location => files.entryAt? location
  | .error _ => none

def «exists» (files : FileSystem) (path : Path) : Bool :=
  (files.find? path).isSome

def isDirectory (files : FileSystem) (path : Path) : Bool :=
  files.find? path == some .directory

def read? (files : FileSystem) (path : Path) : Option ByteArray :=
  match files.find? path with
  | some (.file content) => some content
  | _ => none

def readText? (files : FileSystem) (path : Path) : Option String :=
  (files.read? path).bind String.fromUTF8?

/-- The location of a new entry: an existing directory and a name in it. -/
def newLocation (files : FileSystem) (here : Location) (names : List RawText) :
    Except Refusal Location := do
  match names.getLast? with
  | none => throw .taken
  | some name =>
      let location ← files.follow here (names.dropLast ++ [("." : RawText)])
      if name = "." ∨ name = ".." then throw .taken
      if name.size > nameLimit then throw .blocked
      return location ++ [name]

/-- Makes one directory. Separators at the end of the path do not matter. -/
def makeDirectory (files : FileSystem) (path : Path) : Except Refusal FileSystem := do
  if !admits path then throw .blocked
  if path.text = "" then throw .missing
  let (here, names) := files.start path
  let location ← files.newLocation here (names.reverse.dropWhile (· = ("" : RawText))).reverse
  if (files.entryAt? location).isSome then throw .taken
  return files.put location .directory

/-- Gives the file at a path new content; the file is made where it does not exist. -/
def write? (files : FileSystem) (path : Path) (content : ByteArray) : Option FileSystem :=
  if !admits path ∨ path.text = "" then none
  else
    let (here, names) := files.start path
    if names.getLast? = some ("" : RawText) then none
    else
      match files.newLocation here names with
      | .error _ => none
      | .ok location =>
          if files.entryAt? location = some .directory then none
          else some (files.put location (.file content))

/-- Copies a file. The target is emptied before the source is read, so that a file copied onto
itself loses its content. -/
def copy? (files : FileSystem) (source target : Path) : Option FileSystem := do
  let _ ← files.read? source
  let emptied ← files.write? target ByteArray.empty
  let content ← emptied.read? source
  emptied.write? target content

/-- A path and its ancestors, the longest first. -/
def ancestors : Nat → Path → List Path
  | 0, path => [path]
  | steps + 1, path =>
      match path.parent? with
      | some parent => path :: ancestors steps parent
      | none => [path]

/-- Makes the first of some nested directories and those around it as far as they are missing.
Whether that worked out comes with the file system it left. -/
def makeNested (files : FileSystem) : List Path → FileSystem × Bool
  | [] => (files, true)
  | path :: outer =>
      if path.text = "" ∨ path.parent?.isNone then (files, true)
      else
        match files.makeDirectory path with
        | .ok made => (made, true)
        | .error .taken => (files, files.isDirectory path)
        | .error .blocked => (files, false)
        | .error .missing =>
            match files.makeNested outer with
            | (made, false) => (made, false)
            | (made, true) =>
                match made.makeDirectory path with
                | .ok complete => (complete, true)
                | .error .taken => (made, made.isDirectory path)
                | .error _ => (made, false)

def makeDirectories (files : FileSystem) (path : Path) : FileSystem × Bool :=
  files.makeNested (ancestors path.text.size path)

/-- Puts a file at a path, with the directories around it. -/
def place (files : FileSystem) (path : Path) (content : ByteArray) : FileSystem :=
  let around :=
    match path.parent? with
    | some parent => (files.makeDirectories parent).1
    | none => files
  (around.write? path content).getD around

/-- The location below a directory, if another location is one. -/
def below? (directory location : Location) : Option Location :=
  directory.isPrefixOf? location

/-- The entries below a location, by their names from there on. -/
def entriesBelow (files : FileSystem) (directory : Location) : List (Location × Entry) :=
  files.entries.filterMap fun (location, entry) =>
    match below? directory location with
    | none => none
    | some [] => none
    | some names => some (names, entry)

/-- The names of all files below the directory a path leads to. -/
def fileNamesBelow (files : FileSystem) (path : Path) : List Location :=
  match files.locate path with
  | .error _ => []
  | .ok directory =>
      (files.entriesBelow directory).filterMap fun (names, entry) =>
        match entry with
        | .file _ => some names
        | .directory => none

/-- The names of all directories below the directory a path leads to. -/
def directoryNamesBelow (files : FileSystem) (path : Path) : List Location :=
  match files.locate path with
  | .error _ => []
  | .ok directory =>
      (files.entriesBelow directory).filterMap fun (names, entry) =>
        match entry with
        | .directory => some names
        | .file _ => none

/-- The path that a walk from a directory has come to. -/
def walked (root : Path) (names : Location) : Path :=
  names.foldl (fun path name => path.join ⟨name⟩) root

/-- Where a walk through everything below a directory stops: it takes the names of each directory in
their order, and opens every directory on the way by its whole path, which may be too long. -/
def walkStop? (files : FileSystem) (root : Path) : Option Path :=
  let distant := (files.directoryNamesBelow root).filter fun names => !admits (walked root names)
  (distant.mergeSort fun left right => (compare left right).isLE).head?.map (walked root)

end FileSystem

end AppBundle
