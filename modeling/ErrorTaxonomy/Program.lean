import ErrorTaxonomy.Report

/-!
# The program

What the program prints and how it exits, given its arguments and the files it
finds.  Progress and errors go to the log on the standard error output, as far as
the log level asks for; help and version go to the standard output.
-/

namespace ErrorTaxonomy

structure Printout where
  exitStatus : Nat
  output : String := ""
  errors : String := ""
  deriving DecidableEq

/-- The threshold of a log level, with a complaint if there is no such level. -/
def logThreshold (name : String) : Threshold × String :=
  match Threshold.ofName? name with
  | some threshold => (threshold, "")
  | none => (.upTo .warn, "Invalid log level: " ++ name ++ ". Using 'warn' instead.\n")

def programEntry (level : LogLevel) (message : String) (details : List (String × String)) :
    JournalEntry where
  level
  component := "errtax"
  message
  details

def openingEntries (arguments : Arguments) (threshold : Threshold) : List JournalEntry :=
  [programEntry .info "Starting errtax" [("log_level", threshold.title)],
   programEntry .debug "Parsed arguments" [("args", arguments.displayed)]]

def closingEntry : Except RunError Unit → JournalEntry
  | .ok _ => programEntry .info "Completed successfully" []
  | .error error => programEntry .error (error.report.draw .ascii) []

/-- What is printed instead of a run. -/
def usagePrintout (usage : Usage) : Printout :=
  match usage.requestedText? with
  | some text => { exitStatus := usage.exitStatus, output := text }
  | none =>
      { exitStatus := usage.exitStatus
        errors :=
          "error: " ++ usage.complaint ++ "\n\nUsage: errtax [OPTIONS] <INPUT>\n\n" ++
            "For more information, try '--help'.\n" }

/-- What is printed of a run; every line of the log has the same time. -/
def runPrintout (time : String) (arguments : Arguments) (progress : Traced RunError Unit) :
    Printout :=
  let (threshold, complaint) := logThreshold arguments.logLevel
  let entries :=
    openingEntries arguments threshold ++ progress.journal ++ [closingEntry progress.outcome]
  { exitStatus :=
      match progress.outcome with
      | .ok _ => 0
      | .error _ => 1
    errors := complaint ++ journalLines time threshold entries }

/-- The program from its start to its end, if it comes to one. -/
def program (time : String) (argv : List String) (host : Host) :
    Option (Printout × FileTree) :=
  match Arguments.parse argv with
  | .error usage => some (usagePrintout usage, host.tree)
  | .ok arguments =>
      (run arguments host).map fun result =>
        (runPrintout time arguments result.progress, result.tree)

end ErrorTaxonomy
