import ErrorTaxonomy.Run

/-!
# Reports

An error is reported under a code, with its message, the errors behind it and
sometimes a hint.  A report is drawn with lines, in Unicode or in plain ASCII
characters.
-/

namespace ErrorTaxonomy

structure Report where
  code : String
  message : String
  causes : List String := []
  help : Option String := none
  deriving DecidableEq

namespace ConfigurationError

def report (error : ConfigurationError) : Report where
  code := "errtax::config"
  message := error.message
  causes :=
    match error with
    | unreadable _ fault => [fault.message]
    | _ => []
  help :=
    match error with
    | missingFile _ => some "pass an existing file to --config or omit the flag to use defaults"
    | unparsable _ _ =>
        some
          "valid sections are [compiler] (ordering) and [loader] (errors_suffix, metadata_suffix)"
    | unreadable _ _ => none

end ConfigurationError

namespace LoadError

def report (error : LoadError) : Report where
  code := "errtax::load"
  message := error.message
  causes :=
    match error with
    | unreadable _ fault => [error.message, fault.message]
    | _ => [error.message]
  help :=
    match error with
    | unreadable _ _ => none
    | invalidText _ _ _ _ => some "definition files hold a YAML sequence of records"
    | missingMetadata _ =>
        some "every errors file needs a metadata file for the same interface next to it"

end LoadError

namespace CompileError

/-- A compile error is reported under its own code, and its help says what the
code means. -/
def report (error : CompileError) : Report where
  code := error.code
  message := error.message
  help := some (error.description ++ ": " ++ error.help)

end CompileError

namespace TaxonomyError

def report : TaxonomyError → Report
  | load error => error.report
  | source text => { code := "errtax::source", message := (source text).message }
  | compile error => error.report
  | emit (.json reason) =>
      { code := "errtax::emit"
        message := (emit (.json reason)).message
        causes := [(EmitError.json reason).message, reason] }

end TaxonomyError

namespace RunError

def report : RunError → Report
  | configuration error => error.report
  | taxonomy error => error.report
  | output path fault =>
      { code := "errtax::output"
        message := (output path fault).message
        causes := [fault.message] }

end RunError

structure ReportStyle where
  cross : String
  bar : String
  branch : String
  lastBranch : String

namespace ReportStyle

def unicode : ReportStyle where
  cross := "×"
  bar := "│"
  branch := "├─▶"
  lastBranch := "╰─▶"

def ascii : ReportStyle where
  cross := "x"
  bar := "|"
  branch := "|->"
  lastBranch := "\x60->"

end ReportStyle

/-- The lines of a text, at least one. -/
def splitLines : List Char → List (List Char)
  | [] => [[]]
  | c :: rest =>
      if c = '\n' then [] :: splitLines rest
      else
        match splitLines rest with
        | [] => [[c]]
        | line :: lines => (c :: line) :: lines

def withoutTrailingBlanks (line : List Char) : List Char :=
  (line.reverse.dropWhile (· = ' ')).reverse

/-- A text behind one indentation on its first line and another on the others. -/
def indentedText (first others text : String) : String :=
  let lines := (splitLines text.toList).map fun line => String.ofList (withoutTrailingBlanks line)
  match lines with
  | [] => first ++ "\n"
  | line :: lines =>
      first ++ line ++ "\n" ++ String.join (lines.map fun line => others ++ line ++ "\n")

namespace Report

/-- The errors behind an error, the last of which ends the line that joins them. -/
def drawCauses (style : ReportStyle) : List String → String
  | [] => ""
  | [cause] => indentedText ("  " ++ style.lastBranch ++ " ") "      " cause
  | cause :: causes =>
      indentedText ("  " ++ style.branch ++ " ") ("  " ++ style.bar ++ "   ") cause ++
        drawCauses style causes

def draw (style : ReportStyle) (report : Report) : String :=
  report.code ++ "\n\n" ++
    indentedText ("  " ++ style.cross ++ " ") ("  " ++ style.bar ++ " ") report.message ++
    drawCauses style report.causes ++
    match report.help with
    | none => ""
    | some help => indentedText "  help: " "        " help

end Report

end ErrorTaxonomy
