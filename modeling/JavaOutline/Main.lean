import JavaOutline.Cli.Run

/-!
# JavaOutline.Main

The program: the command line over the files of the computer.
-/

namespace JavaOutline.Cli

/-- The error that the operating system gave. -/
def OsError.ofIO : IO.Error → OsError
  | .alreadyExists _ code text | .otherError code text | .resourceBusy code text
  | .resourceVanished code text | .unsupportedOperation code text | .hardwareFault code text
  | .unsatisfiedConstraints code text | .illegalOperation code text | .protocolError code text
  | .timeExpired code text | .interrupted _ code text | .noFileOrDirectory _ code text
  | .invalidArgument _ code text | .permissionDenied _ code text
  | .resourceExhausted _ code text | .inappropriateType _ code text
  | .noSuchThing _ code text => ⟨text, code.toNat⟩
  | .unexpectedEof => ⟨"Unexpected end of file", 0⟩
  | .userError text => ⟨text, 0⟩

/-- Carries out an operation and gives the error as a value. -/
def attempt (operation : IO α) : IO (Except OsError α) := do
  match ← operation.toBaseIO with
  | .ok a => return .ok a
  | .error e => return .error (.ofIO e)

/-- The files of the computer. -/
def computerFiles : FileAccess IO IO.FS.Handle where
  isFile path := do
    match ← attempt (do return (← (← IO.FS.realPath path).metadata).type) with
    | .ok type => return type == .file
    | .error _ => return false
  read path := attempt (IO.FS.readBinFile path)
  create path := attempt (IO.FS.Handle.mk path .write)
  writeAll handle content := attempt (handle.write content)
  makeDirectory path := attempt (IO.FS.createDirAll path)

end JavaOutline.Cli

/-- Runs the command line. -/
def main (args : List String) : IO UInt32 := do
  let outcome ← JavaOutline.Cli.run JavaOutline.Cli.computerFiles
    (← IO.getEnv "JSTRUCT_LOG_DIR") args
  IO.print outcome.stdout
  IO.eprint outcome.stderr
  return UInt32.ofNat outcome.exitCode
