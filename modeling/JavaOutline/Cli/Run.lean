import JavaOutline.Cli.Arguments
import JavaOutline.Cli.Files
import JavaOutline.Document
import JavaOutline.Outline.Schema
import JavaOutline.Structure.Unit

/-!
# JavaOutline.Cli.Run

Running a command line: its exit code, what it prints, and what it does to the
files around it.

The document is complete before anything is written, so a run that fails to
read the source leaves all files as they are.
-/

namespace JavaOutline.Cli

/-- What a run leaves behind, apart from files. -/
structure Outcome where
  exitCode : Nat
  stdout : String
  stderr : String
  deriving Repr, DecidableEq, Inhabited

/-! ## Reports -/

/-- A failure as it is reported: what could not be done, and why, each cause
followed by its own cause. -/
structure Report where
  message : String
  causes : List String
  deriving Repr, DecidableEq, Inhabited

namespace Report

/-- The report of a failure that explains itself. -/
def ofFailure (f : Failure) : Report := ⟨f.message, []⟩

/-- The report of an operation on a file that failed for the reason given. -/
def ofReason (message reason : String) : Report :=
  ⟨message, [(Failure.io reason).message, reason]⟩

/-- A numbered line for each cause. -/
def causeLines (number : Nat) : List String → String
  | [] => ""
  | cause :: causes =>
    "    " ++ toString number ++ ": " ++ cause ++ "\n" ++ causeLines (number + 1) causes

/-- The text of a report. -/
def render (r : Report) : String :=
  "Error: " ++ r.message ++ "\n" ++
    if r.causes.isEmpty then "" else "\nCaused by:\n" ++ causeLines 0 r.causes

end Report

/-- The outcome of a run that succeeds and prints a text. -/
def Outcome.success (stdout : String) : Outcome := ⟨0, stdout, ""⟩

/-- The outcome of a run that fails. -/
def Outcome.failure (r : Report) : Outcome := ⟨1, "", r.render⟩

/-- The outcome of writing the file at a path. -/
def Outcome.ofWriting (path : String) : Except OsError Unit → Outcome
  | .error e => .failure (.ofReason ("Failed to write " ++ path) e.message)
  | .ok () => .success ""

/-! ## Commands -/

/-- The options of the extraction that is asked for. -/
def ExtractRequest.options (r : ExtractRequest) : ExtractOptions :=
  ⟨r.strict, if r.all then .all else .root⟩

/-- The document of the source file at `path`, whose bytes are given. -/
def documentText (path : String) (options : ExtractOptions) (bytes : ByteArray) :
    Except Report String :=
  match String.fromUTF8? bytes with
  | none => .error (.ofReason ("Failed to read " ++ path) "stream did not contain valid UTF-8")
  | some source =>
    match CompilationUnit.parse source with
    | .error f => .error (.ofFailure (.parsing (path ++ ": " ++ f.message)))
    | .ok u => .ok (u.render options)

section

variable {m : Type → Type} [Monad m] {Handle : Type} (files : FileAccess m Handle)

/-- Reads the source file at a path and gives the text of its document. -/
def readDocument (path : String) (options : ExtractOptions) : m (Except Report String) := do
  if ← files.isFile path then
    match ← files.read path with
    | .error e => return .error (.ofReason ("Failed to read " ++ path) e.message)
    | .ok bytes => return documentText path options bytes
  else return .error (.ofFailure (.inputNotFound path))

/-- Writes a document to a path, or prints it, with a line break behind it. -/
def emit (output : Option String) (document : String) : m Outcome := do
  match output with
  | none => return .success (document ++ "\n")
  | some path => return .ofWriting path (← files.write path (document ++ "\n").toUTF8)

/-- Runs a command. -/
def Command.run : Command → m Outcome
  | .schema => return .success (Outline.schema.toJson.pretty ++ "\n")
  | .extract r => do
    match ← readDocument files r.input r.options with
    | .error report => return .failure report
    | .ok document => emit files r.output document

/-- Runs an invocation. A log directory has to be there before anything else
is done. -/
def Invocation.run (i : Invocation) : m Outcome := do
  match i.logDirectory with
  | none => i.command.run files
  | some path =>
    match ← files.makeDirectory path with
    | .error e =>
      return ⟨101, "", "Failed to open the log in " ++ path ++ ": " ++ e.message ++ "\n"⟩
    | .ok () => i.command.run files

/-- How the program is used. -/
def usage : String :=
  "Usage: jstruct [--log-dir DIR] extract INPUT [-o PATH | --stdout] [-t] [--all]\n" ++
  "       jstruct [--log-dir DIR] schema\n" ++
  "       jstruct --version\n"

/-- Runs a command line. `logDirectory` is the log directory that the
environment names. -/
def run (logDirectory : Option String) (args : List String) : m Outcome :=
  match Invocation.ofArguments logDirectory args with
  | .ok i => i.run files
  | .error .version => return .success "jstruct 0.1.0\n"
  | .error .help => return .success usage
  | .error .misuse => return ⟨2, "", usage⟩

end

end JavaOutline.Cli
