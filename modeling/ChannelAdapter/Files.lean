/-!
Files: what a program needs of them, and a directory held in memory that provides it.
-/

namespace ChannelAdapter

inductive FileError
  | notFound
  | notDirectory
  | isDirectory
  | nameTooLong
  | badName
  | notText
  | other (reason : String)
  deriving DecidableEq, Repr

def FileError.message : FileError → String
  | notFound => "No such file or directory (os error 2)"
  | notDirectory => "Not a directory (os error 20)"
  | isDirectory => "Is a directory (os error 21)"
  | nameTooLong => "File name too long (os error 36)"
  | badName => "file name contained an unexpected NUL byte"
  | notText => "stream did not contain valid UTF-8"
  | other reason => reason

class MonadFiles (m : Type → Type) where
  read : String → m (Except FileError ByteArray)
  /-- When a file was last changed, or the present if that cannot be told, in milliseconds since
  1970. -/
  modified : String → m Int
  pathExists : String → m Bool
  /-- Appends to a file, which is created if there is none. -/
  append : String → ByteArray → m (Except FileError Unit)

def readText {m : Type → Type} [Monad m] [MonadFiles m] (path : String) :
    m (Except FileError String) := do
  match ← MonadFiles.read path with
  | .error e => return .error e
  | .ok data =>
      match String.fromUTF8? data with
      | some text => return .ok text
      | none => return .error .notText

inductive Files.Entry
  | file (data : ByteArray) (modified : Int)
  | directory

/-- The files of a directory. A place in it is the list of the names that lead there. Places outside
begin with the names that lead out: ".." once or more often, or "/" for the root. -/
structure Files where
  entries : List (List String × Files.Entry)

namespace Files

def names (path : String) : List String :=
  (path.splitOn "/").filter (!·.isEmpty)

def maxName : Nat := 255

def maxPath : Nat := 4095

/-- The place that a name leads to from another. Nothing lies above the root. -/
def step (place : List String) : String → List String
  | "." => place
  | ".." =>
      match place.getLast? with
      | none | some ".." => place ++ [".."]
      | some "/" => place
      | _ => place.dropLast
  | name => place ++ [name]

def base (path : String) : List String :=
  if path.startsWith "/" then ["/"] else []

def ofList (files : List (String × Entry)) : Files :=
  ⟨files.map fun (path, e) => ((names path).foldl step (base path), e)⟩

def entry? (f : Files) (place : List String) : Option Entry :=
  f.entries.lookup place

/-- Whether a directory lies at a place. The directory itself is one, and so are those above it. -/
def isDirectory (f : Files) (place : List String) : Bool :=
  place.all (fun name => name == ".." || name == "/") || f.entries.any fun (key, e) =>
    match e with
    | .directory => place.isPrefixOf key
    | .file .. => place.isPrefixOf key && place.length < key.length

def checkName (name : String) : Except FileError Unit :=
  if maxName < name.utf8ByteSize then .error .nameTooLong else .ok ()

def enter (f : Files) (place : List String) (name : String) : Except FileError (List String) := do
  checkName name
  let next := step place name
  if f.isDirectory next then return next
  else if (f.entry? next).isSome then throw .notDirectory
  else throw .notFound

/-- The directory that a path leads into, and the name in it that the path ends with. On the way
there have to be directories. -/
def parent (f : Files) (path : String) : Except FileError (List String × String) := do
  if path.isEmpty then throw .notFound
  if path.contains '\x00' then throw .badName
  if maxPath < path.utf8ByteSize then throw .nameTooLong
  let names := names path
  return (← names.dropLast.foldlM f.enter (base path), names.getLastD ".")

def find (f : Files) (path : String) : Except FileError Entry := do
  let (directory, name) ← f.parent path
  checkName name
  let place := step directory name
  if f.isDirectory place then return .directory
  match f.entry? place with
  | some e => if path.endsWith "/" then throw .notDirectory else return e
  | none => throw .notFound

def read (f : Files) (path : String) : Except FileError ByteArray := do
  match ← f.find path with
  | .file data _ => return data
  | .directory => throw .isDirectory

def modified (f : Files) (path : String) : Int :=
  match f.find path with
  | .ok (.file _ modified) => modified
  | _ => 0

def pathExists (f : Files) (path : String) : Bool :=
  f.find path matches .ok _

def put (f : Files) (place : List String) (e : Entry) : Files :=
  ⟨(place, e) :: f.entries.filter (·.1 != place)⟩

/-- Removes a file. The directory that it was in stays. -/
def remove (f : Files) (place : List String) : Files :=
  ⟨(place.dropLast, .directory) :: f.entries.filter (·.1 != place)⟩

/-- The place of a file that a path leads to, whether there is one or not. The slash that only a
directory may have is seen before its name is looked at. -/
def target (f : Files) (path : String) : Except FileError (List String) := do
  let (directory, name) ← f.parent path
  let place := step directory name
  if path.endsWith "/" || f.isDirectory place then throw .isDirectory
  checkName name
  return place

/-- Appends to a file, which keeps its time, or creates it. -/
def append (f : Files) (path : String) (data : ByteArray) : Except FileError Files := do
  let place ← f.target path
  match f.entry? place with
  | some (.file old modified) => return f.put place (.file (old ++ data) modified)
  | _ => return f.put place (.file data 0)

end Files

end ChannelAdapter
