/-!
# JavaOutline.Cli.Arguments

The command line: what it asks for, and how its arguments spell it.

Arguments are read from left to right and the first mistake decides. An option
that has a value may have it attached (`--output=x`, `-o=x`, `-ox`) or as the
next argument; flags of one letter may share a dash. After `--` every argument
is an operand. No option may be repeated among the arguments of one command.
-/

namespace JavaOutline.Cli

/-! ## Requests -/

/-- An extraction that the command line asks for. -/
structure ExtractRequest where
  /-- The path of the source file. -/
  input : String
  /-- The path of the document; without one it is printed. -/
  output : Option String
  strict : Bool
  /-- Should the document hold every type of the file? -/
  all : Bool
  deriving Repr, DecidableEq, Inhabited

/-- What to do. -/
inductive Command where
  | extract (request : ExtractRequest)
  | schema
  deriving Repr, DecidableEq, Inhabited

/-- What to do, and the directory of the log file, if there is to be one. -/
structure Invocation where
  logDirectory : Option String
  command : Command
  deriving Repr, DecidableEq, Inhabited

/-- Why nothing is done. -/
inductive Stop where
  /-- The arguments are not well formed. -/
  | misuse
  /-- The version is asked for. -/
  | version
  /-- Help is asked for. -/
  | help
  deriving Repr, DecidableEq, Inhabited

/-! ## Options -/

/-- An option. -/
inductive Opt where
  | logDirectory | output | strict | all | stdout | version | help
  deriving Repr, DecidableEq, Inhabited

namespace Opt

/-- Does a value belong to the option? -/
def takesValue : Opt → Bool
  | .logDirectory | .output => true
  | .strict | .all | .stdout | .version | .help => false

/-- The long name of an option. -/
def name : Opt → String
  | .logDirectory => "log-dir"
  | .output => "output"
  | .strict => "strict"
  | .all => "all"
  | .stdout => "stdout"
  | .version => "version"
  | .help => "help"

/-- The letter of an option. -/
def letter? : Opt → Option Char
  | .output => some 'o'
  | .strict => some 't'
  | .version => some 'V'
  | .help => some 'h'
  | .logDirectory | .all | .stdout => none

end Opt

/-- Where arguments stand: in front of the command, or after the name of
one. -/
inductive Level where
  | top | extract | schema
  deriving Repr, DecidableEq, Inhabited

namespace Level

/-- The options known at a level. -/
def options : Level → List Opt
  | .top => [.logDirectory, .version, .help]
  | .extract => [.logDirectory, .output, .strict, .all, .stdout, .help]
  | .schema => [.logDirectory, .help]

/-- How many operands there may be at a level. -/
def operandLimit : Level → Nat
  | .extract => 1
  | .top | .schema => 0

/-- The option with a long name. -/
def named? (l : Level) (name : String) : Option Opt := l.options.find? (·.name == name)

/-- The option with a letter. -/
def lettered? (l : Level) (letter : Char) : Option Opt :=
  l.options.find? (·.letter? == some letter)

end Level

/-! ## Reading arguments -/

/-- What was read at a level: options with their values, which are empty for
flags, and operands. -/
structure Arguments where
  options : List (Opt × String)
  operands : List String
  deriving Repr, DecidableEq, Inhabited

namespace Arguments

/-- Nothing was read. -/
def empty : Arguments := ⟨[], []⟩

/-- Is the option given? -/
def has (a : Arguments) (o : Opt) : Bool := a.options.any (·.1 == o)

/-- The value of an option. -/
def value? (a : Arguments) (o : Opt) : Option String := a.options.lookup o

/-- Adds an option: once at most, and a value is never empty. Help and version
are given at once. -/
def addOption (a : Arguments) (o : Opt) (value : String) : Except Stop Arguments :=
  match o with
  | .version => .error .version
  | .help => .error .help
  | o =>
    if a.has o || (o.takesValue && value.isEmpty) then .error .misuse
    else .ok { a with options := a.options ++ [(o, value)] }

/-- Adds an operand; an empty text is none. -/
def addOperand (l : Level) (a : Arguments) (text : String) : Except Stop Arguments :=
  if text.isEmpty || l.operandLimit ≤ a.operands.length then .error .misuse
  else .ok { a with operands := a.operands ++ [text] }

end Arguments

/-- Can an argument be the value of the option in front of it? -/
def isValue (text : String) : Bool := text == "-" || text.toList.head? != some '-'

/-- Splits a text at the first equals sign. -/
def splitEquals : List Char → List Char × Option (List Char)
  | [] => ([], none)
  | '=' :: cs => ([], some cs)
  | c :: cs => let (name, value) := splitEquals cs; (c :: name, value)

/-- Reads an option by its long name, with or without a value. Gives what was
read and the option whose value is the next argument, if there is one. -/
def readLong (l : Level) (a : Arguments) (text : List Char) :
    Except Stop (Arguments × Option Opt) :=
  let (name, value) := splitEquals text
  match l.named? (String.ofList name), value with
  | none, _ => .error .misuse
  | some o, some value =>
    if o.takesValue then do return (← a.addOption o (String.ofList value), none)
    else .error .misuse
  | some o, none =>
    if o.takesValue then .ok (a, some o) else do return (← a.addOption o "", none)

/-- Reads the letters behind one dash. -/
def readLetters (l : Level) (a : Arguments) : List Char → Except Stop (Arguments × Option Opt)
  | [] => .ok (a, none)
  | c :: cs =>
    match l.lettered? c with
    | none => .error .misuse
    | some o =>
      if o.takesValue then
        match cs with
        | [] => .ok (a, some o)
        | '=' :: value => do return (← a.addOption o (String.ofList value), none)
        | value => do return (← a.addOption o (String.ofList value), none)
      else
        match a.addOption o "" with
        | .error e => .error e
        | .ok a => readLetters l a cs

/-- The name of a command. -/
def Level.ofName? : String → Option Level
  | "extract" => some .extract
  | "schema" => some .schema
  | _ => none

/-- Reads the arguments of a level. In front of the command reading ends at
the first operand, which is given back with what follows it. `pending` is the
option whose value comes next. -/
def readArguments (l : Level) (a : Arguments) (pending : Option Opt) :
    List String → Except Stop (Arguments × List String)
  | [] => if pending.isSome then .error .misuse else .ok (a, [])
  | text :: rest =>
    match pending with
    | some o =>
      if isValue text then do readArguments l (← a.addOption o text) none rest
      else .error .misuse
    | none =>
      match text.toList with
      | ['-', '-'] => do
        let a ← rest.foldlM (Arguments.addOperand l) a
        return (a, [])
      | '-' :: '-' :: option => do
        let (a, pending) ← readLong l a option
        readArguments l a pending rest
      | '-' :: letter :: letters => do
        let (a, pending) ← readLetters l a (letter :: letters)
        readArguments l a pending rest
      | _ =>
        if l = .top then .ok (a, text :: rest)
        else do readArguments l (← a.addOperand l text) none rest

/-! ## Invocations -/

/-- The log directory that the arguments of a level name, if they name one. An
empty name in the environment is a mistake unless the arguments name
another. -/
def logDirectory? (a : Arguments) (environment : Option String) :
    Except Stop (Option String) :=
  match a.value? .logDirectory, environment with
  | some d, _ => .ok (some d)
  | none, some "" => .error .misuse
  | none, _ => .ok none

/-- The extraction that arguments ask for. The document goes to `output.json`
unless they say otherwise. -/
def ExtractRequest.ofArguments (a : Arguments) : Except Stop ExtractRequest :=
  if a.has .stdout && a.has .output then .error .misuse
  else match a.operands with
    | [input] => .ok {
        input := input
        output := if a.has .stdout then none else some ((a.value? .output).getD "output.json")
        strict := a.has .strict
        all := a.has .all }
    | _ => .error .misuse

/-- What a command with the given arguments does. -/
def Command.ofArguments (l : Level) (a : Arguments) : Except Stop Command :=
  match l with
  | .extract => return .extract (← ExtractRequest.ofArguments a)
  | .schema => .ok .schema
  | .top => .error .misuse

/-- The invocation that a command line spells. The log directory is that of the
arguments after the command, or else of those in front of it, or else of the
environment. -/
def Invocation.ofArguments (environment : Option String) (args : List String) :
    Except Stop Invocation := do
  let (top, rest) ← readArguments .top .empty none args
  match rest with
  | [] => .error .misuse
  | name :: rest =>
    match Level.ofName? name with
    | none => .error (if name = "help" then .help else .misuse)
    | some l =>
      let (a, _) ← readArguments l .empty none rest
      let inner ← logDirectory? a environment
      let command ← Command.ofArguments l a
      let outer ← logDirectory? top environment
      return { logDirectory := inner.or (outer.or environment), command := command }

end JavaOutline.Cli
