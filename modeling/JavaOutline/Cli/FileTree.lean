import JavaOutline.Cli.Files

/-!
# JavaOutline.Cli.FileTree

Trees of files and directories, and what the paths in them lead to.

A tree lists what stands at each place, a place being the names from the root
down. A path is walked name by name: every name but the last must be that of a
directory, and a slash at the end asks for a directory too.
-/

namespace JavaOutline.Cli

/-- A file or a directory. -/
inductive Node where
  | file (content : ByteArray)
  | directory
  deriving Inhabited

/-- Files and directories, and the directory where relative paths start. -/
structure FileTree where
  nodes : List (List String × Node)
  workingDirectory : List String
  deriving Inhabited

/-! ## Paths -/

/-- Cuts a text at its slashes. -/
def splitSlashes : List Char → List (List Char)
  | [] => [[]]
  | '/' :: cs => [] :: splitSlashes cs
  | c :: cs =>
    match splitSlashes cs with
    | [] => [[c]]
    | name :: names => (c :: name) :: names

/-- A path: the names in it, whether it starts at the root, and whether it ends
with a slash. -/
structure Path where
  isAbsolute : Bool
  names : List String
  endsInSlash : Bool
  deriving Repr, DecidableEq, Inhabited

/-- The path that a text spells. Slashes side by side count once. -/
def Path.ofText (text : String) : Path where
  isAbsolute := text.toList.head? == some '/'
  names := ((splitSlashes text.toList).filter (!·.isEmpty)).map String.ofList
  endsInSlash := text.toList.getLast? == some '/'

namespace FileTree

/-- What stands at a place. The root is a directory. -/
def node? (t : FileTree) (place : List String) : Option Node :=
  if place = [] then some .directory else t.nodes.lookup place

/-- Puts something at a place. -/
def set (t : FileTree) (place : List String) (node : Node) : FileTree :=
  { t with nodes := (place, node) :: t.nodes.filter (·.1 != place) }

/-- The place that a name leads to from a directory. -/
def step (t : FileTree) (place : List String) (name : String) :
    Except OsError (List String) :=
  match t.node? place with
  | none => .error .notFound
  | some (.file _) => .error .notDirectory
  | some .directory =>
    .ok (if name = "." then place else if name = ".." then place.dropLast else place ++ [name])

/-- Where a path starts. -/
def start (t : FileTree) (p : Path) : List String :=
  if p.isAbsolute then [] else t.workingDirectory

/-- The place a path leads to; there need not be anything. -/
def place (t : FileTree) (p : Path) : Except OsError (List String) :=
  p.names.foldlM t.step (t.start p)

/-- What a path leads to. -/
def find (t : FileTree) (p : Path) : Except OsError Node := do
  let place ← t.place p
  match t.node? place, p.endsInSlash with
  | none, _ => .error .notFound
  | some (.file _), true => .error .notDirectory
  | some node, _ => .ok node

/-! ## Operations -/

/-- Is there a file at a path? -/
def isFile (t : FileTree) (path : String) : Bool :=
  match t.find (.ofText path) with
  | .ok (.file _) => true
  | _ => false

/-- The bytes of the file at a path. -/
def read (t : FileTree) (path : String) : Except OsError ByteArray := do
  match ← t.find (.ofText path) with
  | .file content => .ok content
  | .directory => .error .isDirectory

/-- The tree with an empty file at a path, whatever was in it, and its place. -/
def create (t : FileTree) (path : String) : Except OsError (List String × FileTree) := do
  let p := Path.ofText path
  let place ← t.place p
  if p.endsInSlash then .error .isDirectory
  else match t.node? place with
    | some .directory => .error .isDirectory
    | _ => .ok (place, t.set place (.file .empty))

/-- The tree with more bytes at the end of the file at a place. -/
def writeAll (t : FileTree) (place : List String) (content : ByteArray) :
    Except OsError FileTree :=
  match t.node? place with
  | none => .error .notFound
  | some .directory => .error .isDirectory
  | some (.file written) => .ok (t.set place (.file (written ++ content)))

/-- The tree with a file of the given contents at a path. -/
def write (t : FileTree) (path : String) (content : ByteArray) : Except OsError FileTree := do
  let (place, opened) ← t.create path
  opened.writeAll place content

/-- One step of making directories. -/
def makeStep (state : FileTree × List String) (name : String) :
    Except OsError (FileTree × List String) := do
  let place ← state.1.step state.2 name
  match state.1.node? place with
  | none => .ok (state.1.set place .directory, place)
  | some .directory => .ok (state.1, place)
  | some (.file _) => .error .notDirectory

/-- The tree with a directory at a path, and at every place the path leads
through. -/
def makeDirectory (t : FileTree) (path : String) : Except OsError FileTree := do
  let p := Path.ofText path
  let (t, _) ← p.names.foldlM makeStep (t, t.start p)
  return t

/-- Replaces the tree, unless there is an error, and gives a result. -/
def update (change : FileTree → Except OsError (α × FileTree)) :
    StateM FileTree (Except OsError α) :=
  fun t =>
    match change t with
    | .ok (a, changed) => (.ok a, changed)
    | .error e => (.error e, t)

/-- A file tree as the files around a command. An open file is known by its
place. -/
def access : FileAccess (StateM FileTree) (List String) where
  isFile path := fun t => (t.isFile path, t)
  read path := fun t => (t.read path, t)
  create path := update (·.create path)
  writeAll place content := update fun t => return ((), ← t.writeAll place content)
  makeDirectory path := update fun t => return ((), ← t.makeDirectory path)

end FileTree

end JavaOutline.Cli
