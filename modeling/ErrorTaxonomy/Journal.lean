/-!
# The journal

What a compilation reports about its own progress.  An entry has a level, the
name of the component that speaks, a message and named details, all of them
text.  Entries are written to a log one line each; a reader chooses how much of
the journal is shown by a threshold.
-/

namespace ErrorTaxonomy

inductive LogLevel where
  | error
  | warn
  | info
  | debug
  | trace
  deriving DecidableEq

namespace LogLevel

def rank : LogLevel → Nat
  | error => 1
  | warn => 2
  | info => 3
  | debug => 4
  | trace => 5

def token : LogLevel → String
  | error => "ERROR"
  | warn => "WARN"
  | info => "INFO"
  | debug => "DEBUG"
  | trace => "TRACE"

/-- The token, filled up to five characters. -/
def paddedToken : LogLevel → String
  | error => "ERROR"
  | warn => "WARN "
  | info => "INFO "
  | debug => "DEBUG"
  | trace => "TRACE"

end LogLevel

/-- How much of a journal is shown; `off` shows nothing. -/
inductive Threshold where
  | off
  | upTo (level : LogLevel)
  deriving DecidableEq

namespace Threshold

def admits : Threshold → LogLevel → Bool
  | off, _ => false
  | upTo limit, level => level.rank ≤ limit.rank

/-- Threshold names are matched without regard to the case of ASCII letters. -/
def ofName? (name : String) : Option Threshold :=
  let folded := String.ofList (name.toList.map Char.toLower)
  if folded = "off" then some off
  else if folded = "error" then some (upTo .error)
  else if folded = "warn" then some (upTo .warn)
  else if folded = "info" then some (upTo .info)
  else if folded = "debug" then some (upTo .debug)
  else if folded = "trace" then some (upTo .trace)
  else none

def title : Threshold → String
  | off => "Off"
  | upTo .error => "Error"
  | upTo .warn => "Warn"
  | upTo .info => "Info"
  | upTo .debug => "Debug"
  | upTo .trace => "Trace"

end Threshold

structure JournalEntry where
  level : LogLevel
  component : String
  message : String
  details : List (String × String) := []
  deriving DecidableEq

namespace JournalEntry

/-- The lines of a message after its first are set off by four blanks. -/
def indented (message : String) : String :=
  String.ofList (message.toList.flatMap fun c =>
    if c = '\n' then ['\n', ' ', ' ', ' ', ' '] else [c])

def line (time : String) (entry : JournalEntry) : String :=
  "[" ++ time ++ " " ++ entry.level.paddedToken ++ " " ++ entry.component ++ "] " ++
    indented entry.message ++
    String.join (entry.details.map fun detail => " " ++ detail.1 ++ "=" ++ detail.2) ++
    "\n"

end JournalEntry

def journalLines (time : String) (threshold : Threshold)
    (entries : List JournalEntry) : String :=
  String.join
    ((entries.filter fun entry => threshold.admits entry.level).map
      (JournalEntry.line time))

end ErrorTaxonomy
