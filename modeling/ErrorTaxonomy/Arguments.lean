import ErrorTaxonomy.Text.Quoted

/-!
# Command-line arguments

The arguments are read from left to right.  An option that takes a value waits
for it; what it comes to is settled only when the next option is recognised, when
a positional argument is met, or at the end, so an argument that is wrong by
itself is reported before a faulty option in front of it.  Help and version take
effect as soon as they are met.
-/

namespace ErrorTaxonomy

structure Arguments where
  input : String
  output : String := "taxonomy.json"
  config : Option String := none
  logLevel : String := "info"
  check : Bool := false
  deriving DecidableEq

namespace Arguments

def displayed (arguments : Arguments) : String :=
  displayedRecord "Args"
    [("input", ErrorTaxonomy.displayed arguments.input),
     ("output", ErrorTaxonomy.displayed arguments.output),
     ("config", displayedOption arguments.config),
     ("log_level", ErrorTaxonomy.displayed arguments.logLevel),
     ("check", toString arguments.check)]

def helpText : String :=
  "Command-line interface for the errtax error taxonomy compiler\n\n" ++
    "Usage: errtax [OPTIONS] <INPUT>\n\n" ++
    "Arguments:\n" ++
    "  <INPUT>  Directory of *.errors.yaml / *.metadata.yaml pairs\n\n" ++
    "Options:\n" ++
    "  -o, --output <OUTPUT>        Path to the output JSON file [default: taxonomy.json]\n" ++
    "  -c, --config <CONFIG>        Path to configuration file (TOML)\n" ++
    "      --log-level <LOG_LEVEL>  Log level (off, error, warn, info, debug, trace) [default: info]\n" ++
    "      --check                  Compile and report errors without writing any output\n" ++
    "  -h, --help                   Print help\n" ++
    "  -V, --version                Print version\n"

def versionText : String :=
  "errtax-cli 0.1.0\n"

end Arguments

/-- Why arguments lead to no run. -/
inductive Usage where
  | missingRequiredArgument
  | unknownArgument
  | invalidValue
  | argumentConflict
  | tooManyValues
  | displayHelp
  | displayVersion
  deriving DecidableEq

namespace Usage

def kind : Usage → String
  | missingRequiredArgument => "MissingRequiredArgument"
  | unknownArgument => "UnknownArgument"
  | invalidValue => "InvalidValue"
  | argumentConflict => "ArgumentConflict"
  | tooManyValues => "TooManyValues"
  | displayHelp => "DisplayHelp"
  | displayVersion => "DisplayVersion"

/-- What is printed instead of a run, if it was asked for. -/
def requestedText? : Usage → Option String
  | displayHelp => some Arguments.helpText
  | displayVersion => some Arguments.versionText
  | _ => none

def exitStatus (usage : Usage) : Nat :=
  if usage.requestedText?.isSome then 0 else 2

def complaint : Usage → String
  | missingRequiredArgument => "the following required arguments were not provided: <INPUT>"
  | unknownArgument => "unexpected argument found"
  | invalidValue => "a value is required for an option but none was supplied"
  | argumentConflict => "an argument cannot be used multiple times"
  | tooManyValues => "unexpected value for a flag found; no more were expected"
  | displayHelp => ""
  | displayVersion => ""

end Usage

inductive ValueOption where
  | output
  | config
  | logLevel
  deriving DecidableEq

inductive OptionMeaning where
  | value (option : ValueOption)
  | check
  | help
  | version
  deriving DecidableEq

def longOption? (name : List Char) : Option OptionMeaning :=
  if name = "output".toList then some (.value .output)
  else if name = "config".toList then some (.value .config)
  else if name = "log-level".toList then some (.value .logLevel)
  else if name = "check".toList then some .check
  else if name = "help".toList then some .help
  else if name = "version".toList then some .version
  else none

def shortOption? (letter : Char) : Option OptionMeaning :=
  if letter = 'o' then some (.value .output)
  else if letter = 'c' then some (.value .config)
  else if letter = 'h' then some .help
  else if letter = 'V' then some .version
  else none

/-- The arguments read so far.  `pending` is the option met last that takes a
value, with its value if that has been met too. -/
structure ArgumentScan where
  input : Option String := none
  output : Option String := none
  config : Option String := none
  logLevel : Option String := none
  check : Bool := false
  pending : Option (ValueOption × Option String) := none
  onlyPositional : Bool := false

namespace ArgumentScan

/-- Gives an option its value; it must not have one. -/
def setOption (scan : ArgumentScan) (option : ValueOption) (value : String) :
    Except Usage ArgumentScan :=
  match option with
  | .output =>
      if scan.output.isSome then .error .argumentConflict
      else .ok { scan with output := some value }
  | .config =>
      if scan.config.isSome then .error .argumentConflict
      else .ok { scan with config := some value }
  | .logLevel =>
      if scan.logLevel.isSome then .error .argumentConflict
      else .ok { scan with logLevel := some value }

/-- Settles the pending option, which must have a value by now. -/
def settle (scan : ArgumentScan) : Except Usage ArgumentScan :=
  match scan.pending with
  | none => .ok scan
  | some (_, none) => .error .invalidValue
  | some (option, some value) => { scan with pending := none }.setOption option value

def takePositional (scan : ArgumentScan) (argument : String) : Except Usage ArgumentScan := do
  match scan.input with
  | some _ => throw .unknownArgument
  | none =>
      let scan ← scan.settle
      pure { scan with input := some argument }

/-- A value of the option that waits for one, or a positional argument. -/
def takeValue (scan : ArgumentScan) (argument : String) : Except Usage ArgumentScan :=
  match scan.pending with
  | some (option, none) => .ok { scan with pending := some (option, some argument) }
  | _ => scan.takePositional argument

def takeOption (scan : ArgumentScan) (option : ValueOption) (attached : Option String) :
    Except Usage ArgumentScan := do
  let scan ← scan.settle
  match attached with
  | some value => scan.setOption option value
  | none => pure { scan with pending := some (option, none) }

def takeCheck (scan : ArgumentScan) : Except Usage ArgumentScan := do
  let scan ← scan.settle
  if scan.check then throw .argumentConflict else pure { scan with check := true }

/-- Help or version, if nothing before it is wrong. -/
def takeRequest (scan : ArgumentScan) (request : Usage) : Except Usage ArgumentScan := do
  let _ ← scan.settle
  throw request

/-- A long option without its two hyphens. -/
def takeLong (scan : ArgumentScan) (text : List Char) : Except Usage ArgumentScan :=
  let name := text.takeWhile (· ≠ '=')
  let attached :=
    if '=' ∈ text then some (String.ofList (text.drop (name.length + 1))) else none
  match longOption? name with
  | none => .error .unknownArgument
  | some (.value option) => scan.takeOption option attached
  | some meaning =>
      if attached.isSome then .error .tooManyValues
      else
        match meaning with
        | .help => scan.takeRequest .displayHelp
        | .version => scan.takeRequest .displayVersion
        | _ => scan.takeCheck

/-- A short option without its hyphen; what follows the letter is its value. -/
def takeShort (scan : ArgumentScan) (letter : Char) (text : List Char) :
    Except Usage ArgumentScan :=
  let attached :=
    match text with
    | [] => none
    | '=' :: value => some (String.ofList value)
    | value => some (String.ofList value)
  match shortOption? letter with
  | none => .error .unknownArgument
  | some (.value option) => scan.takeOption option attached
  | some .help => scan.takeRequest .displayHelp
  | some .version => scan.takeRequest .displayVersion
  | some .check => scan.takeCheck

def take (scan : ArgumentScan) (argument : String) : Except Usage ArgumentScan :=
  if scan.onlyPositional then scan.takePositional argument
  else
    match argument.toList with
    | ['-', '-'] => .ok { scan with onlyPositional := true }
    | '-' :: '-' :: text => scan.takeLong text
    | '-' :: letter :: text => scan.takeShort letter text
    | _ => scan.takeValue argument

/-- The arguments, with defaults for what was not given. -/
def finish (scan : ArgumentScan) : Except Usage Arguments := do
  let scan ← scan.settle
  match scan.input with
  | none => throw .missingRequiredArgument
  | some input =>
      let default : Arguments := { input }
      pure
        { input
          output := scan.output.getD default.output
          config := scan.config
          logLevel := scan.logLevel.getD default.logLevel
          check := scan.check }

end ArgumentScan

/-- Reads the arguments of a command line, the name of the program left out. -/
def Arguments.parse (argv : List String) : Except Usage Arguments := do
  let scan ← argv.foldlM ArgumentScan.take {}
  scan.finish

end ErrorTaxonomy
