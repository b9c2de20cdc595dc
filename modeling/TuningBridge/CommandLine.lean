/-!
# The command line

Arguments are read from left to right.  A request for help or for the version counts as soon as it
is met, so an error in front of it wins and one behind it is not seen.
-/

namespace TuningBridge

/-- What the service is told on its command line. -/
structure Invocation where
  settingsPath : String := "/var/lib/sigmadsp/config.toml"
  /-- Serve a chip in memory instead of opening the bus. -/
  simulate : Bool := false
  /-- Reset the chip before it is served. -/
  reset : Bool := false
  /-- How many more kinds of events are printed than warnings and errors. -/
  verbosity : Nat := 0
  deriving DecidableEq, Repr

/-- What a command line asks for. -/
inductive CommandLine
  | serve (invocation : Invocation)
  | help
  | version
  deriving DecidableEq, Repr

namespace CommandLine

/-- An option. -/
inductive Switch
  | settings
  | simulate
  | reset
  | verbose
  | help
  | version
  deriving DecidableEq, Repr

/-- The option of a long name. -/
def Switch.ofName? (name : String) : Option Switch :=
  [("settings", settings), ("simulate", simulate), ("reset", reset), ("verbose", verbose),
    ("help", help), ("version", version)].lookup name

/-- The option of a letter. -/
def Switch.ofLetter? (letter : Char) : Option Switch :=
  [('s', settings), ('v', verbose), ('h', help), ('V', version)].lookup letter

/-- What is known while arguments are read. -/
structure Progress where
  settings : Option String := none
  simulate : Bool := false
  reset : Bool := false
  verbosity : Nat := 0

namespace Progress

/-- Take a settings path, once; it must not be empty. -/
def takeSettings (progress : Progress) (path : String) : Option Progress :=
  if progress.settings.isSome || path.isEmpty then none
  else some { progress with settings := some path }

/-- Take an option without a value: go on, or end with help or the version.  Only verbosity is told
repeatedly. -/
def takeFlag (progress : Progress) : Switch → Option (Progress ⊕ CommandLine)
  | .settings => none
  | .simulate => if progress.simulate then none else some (.inl { progress with simulate := true })
  | .reset => if progress.reset then none else some (.inl { progress with reset := true })
  | .verbose => some (.inl { progress with verbosity := progress.verbosity + 1 })
  | .help => some (.inr .help)
  | .version => some (.inr .version)

/-- What was asked for when all arguments are read. -/
def finish (progress : Progress) : CommandLine :=
  let blank : Invocation := {}
  .serve {
    settingsPath := progress.settings.getD blank.settingsPath
    simulate := progress.simulate
    reset := progress.reset
    verbosity := progress.verbosity }

end Progress

/-- What an argument is. -/
inductive Argument
  /-- Two dashes alone, behind which there are no options. -/
  | escape
  /-- A long option, with a value or without. -/
  | long (name : String) (value : Option String)
  /-- Letters behind a dash. -/
  | letters (letters : List Char)
  /-- Any other text. -/
  | plain

/-- Cut a text at its first equals sign. -/
def cutAtEquals (chars : List Char) : String × Option String :=
  let name := String.ofList (chars.takeWhile (· ≠ '='))
  match chars.dropWhile (· ≠ '=') with
  | [] => (name, none)
  | _ :: value => (name, some (String.ofList value))

/-- The kind of an argument. -/
def Argument.ofText (text : String) : Argument :=
  match text.toList with
  | ['-', '-'] => .escape
  | '-' :: '-' :: chars =>
    let (name, value) := cutAtEquals chars
    .long name value
  | '-' :: first :: rest => .letters (first :: rest)
  | _ => .plain

/-- The value behind an option's letter: what follows in the same argument, without an equals sign
in front. -/
def attachedValue? : List Char → Option String
  | [] => none
  | '=' :: value => some (String.ofList value)
  | value => some (String.ofList value)

/-- Read letters.  The flag says whether the next argument is a settings path. -/
def readLetters (progress : Progress) : List Char → Option ((Progress × Bool) ⊕ CommandLine)
  | [] => some (.inl (progress, false))
  | letter :: rest =>
    match Switch.ofLetter? letter with
    | none => none
    | some .settings =>
      match attachedValue? rest with
      | some path => (progress.takeSettings path).map fun progress => .inl (progress, false)
      | none => some (.inl (progress, true))
    | some switch =>
      match progress.takeFlag switch with
      | none => none
      | some (.inr ended) => some (.inr ended)
      | some (.inl progress) => readLetters progress rest

/-- Read one argument.  The flag says whether the next argument is a settings path. -/
def readArgument (progress : Progress) : Argument → Option ((Progress × Bool) ⊕ CommandLine)
  | .escape => some (.inl (progress, false))
  | .plain => none
  | .letters letters => readLetters progress letters
  | .long name value =>
    match Switch.ofName? name, value with
    | some .settings, none => some (.inl (progress, true))
    | some .settings, some path =>
      (progress.takeSettings path).map fun progress => .inl (progress, false)
    | some switch, none =>
      match progress.takeFlag switch with
      | none => none
      | some (.inr ended) => some (.inr ended)
      | some (.inl progress) => some (.inl (progress, false))
    | _, _ => none

/-- Read arguments; the flag says whether the first one is a settings path, which must not look like
an option.  Nothing may follow two dashes. -/
def read (awaitsPath : Bool) (progress : Progress) : List String → Option CommandLine
  | [] => if awaitsPath then none else some progress.finish
  | text :: rest =>
    match Argument.ofText text, awaitsPath with
    | .plain, true =>
      match progress.takeSettings text with
      | none => none
      | some progress => read false progress rest
    | _, true => none
    | .escape, false => if rest.isEmpty then some progress.finish else none
    | argument, false =>
      match readArgument progress argument with
      | none => none
      | some (.inr ended) => some ended
      | some (.inl (progress, awaitsPath)) => read awaitsPath progress rest

/-- What arguments ask for; a misuse gives `none`. -/
def parse? (arguments : List String) : Option CommandLine := read false {} arguments

/-- The name and the version of the program. -/
def versionText : String := "sigmadsp_backend 0.1.0"

/-- What help shows. -/
def helpText : String :=
  "SigmaStudio backend for SigmaDSP parts on SPI or I2C\n\n" ++
    "Usage: sigmadsp_backend [OPTIONS]\n\n" ++
    "Options:\n" ++
    "  -s, --settings <SETTINGS>  Settings file [default: /var/lib/sigmadsp/config.toml]\n" ++
    "      --simulate             Serve an in-memory register map instead of opening the bus\n" ++
    "      --reset                Hard-reset the DSP before serving\n" ++
    "  -v, --verbose...           More output (-v info, -vv debug, -vvv trace)\n" ++
    "  -h, --help                 Print help\n" ++
    "  -V, --version              Print version"

end CommandLine

end TuningBridge
