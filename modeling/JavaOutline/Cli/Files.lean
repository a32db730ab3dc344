/-!
# JavaOutline.Cli.Files

What a command needs of the files around it: a few operations, over any monad
in which they can be carried out.
-/

namespace JavaOutline.Cli

/-- Why the operating system refuses an operation on a file. -/
structure OsError where
  text : String
  code : Nat
  deriving Repr, DecidableEq, Inhabited

namespace OsError

/-- The text of an error, with its number. -/
def message (e : OsError) : String := e.text ++ " (os error " ++ toString e.code ++ ")"

/-- There is nothing at a path. -/
def notFound : OsError := ⟨"No such file or directory", 2⟩

/-- A path leads through something that is no directory. -/
def notDirectory : OsError := ⟨"Not a directory", 20⟩

/-- A path names a directory where a file is needed. -/
def isDirectory : OsError := ⟨"Is a directory", 21⟩

end OsError

/-- Operations on files. `Handle` is what a file is known by once it is open. -/
structure FileAccess (m : Type → Type) (Handle : Type) where
  /-- Is there a file at a path? -/
  isFile : String → m Bool
  /-- The bytes of the file at a path. -/
  read : String → m (Except OsError ByteArray)
  /-- Opens the file at a path to be written, without its contents, or a new one. -/
  create : String → m (Except OsError Handle)
  /-- Writes to an open file. -/
  writeAll : Handle → ByteArray → m (Except OsError Unit)
  /-- Makes a directory and those above it, as far as they are missing. -/
  makeDirectory : String → m (Except OsError Unit)

/-- Replaces the contents of the file at a path, or makes a new one: opens it
and then writes to it. -/
def FileAccess.write {m : Type → Type} [Monad m] {Handle : Type} (files : FileAccess m Handle)
    (path : String) (content : ByteArray) : m (Except OsError Unit) := do
  match ← files.create path with
  | .error e => return .error e
  | .ok handle => files.writeAll handle content

end JavaOutline.Cli
