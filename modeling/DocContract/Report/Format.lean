import DocContract.Json.Printer
import DocContract.Report

/-!
# Written reports

A report is written as JSON, or as a listing with one line for each finding and a verdict at the
end. The listing can be coloured; the colours change nothing else.
-/

namespace DocContract

/-- How a report is written. -/
inductive ReportFormat where
  | json
  | terminal
  deriving DecidableEq, Repr

namespace ReportFormat

/-- The name of a format. -/
def name : ReportFormat → Text
  | .json => "json"
  | .terminal => "terminal"

/-- The format of a name. -/
def ofName? (t : Text) : Option ReportFormat :=
  if t == ReportFormat.json.name then some .json
  else if t == ReportFormat.terminal.name then some .terminal
  else none

end ReportFormat

/-- How a word of the listing is set off. -/
inductive Emphasis where
  | red
  | yellow
  | green
  | dim
  deriving DecidableEq, Repr

namespace Emphasis

/-- The parameters of the escape sequence that switches the emphasis on. -/
def parameters : Emphasis → Text
  | .red => "1;31"
  | .yellow => "1;33"
  | .green => "1;32"
  | .dim => "2"

/-- The text between the sequences that switch the emphasis on and off, if colours are wanted. -/
def apply (e : Emphasis) (colored : Bool) (t : Text) : Text :=
  if colored then "\x1b[" ++ e.parameters ++ "m" ++ t ++ "\x1b[0m" else t

end Emphasis

/-- The emphasis of a severity. -/
def Severity.emphasis : Severity → Emphasis
  | .error => .red
  | .warning => .yellow

namespace Report

/-- The line of a finding. -/
def findingLine (colored : Bool) (d : Diagnostic) : Text :=
  d.file ++ ":" ++ Text.ofNat d.line ++ ":" ++ Text.ofNat d.column ++ ": "
    ++ d.severity.emphasis.apply colored d.severity.name
    ++ " [" ++ Emphasis.dim.apply colored d.code.name ++ "] " ++ d.message ++ "\n"

/-- The word for the outcome. -/
def verdict (colored : Bool) (r : Report) : Text :=
  if r.passed then Emphasis.green.apply colored "passed" else Emphasis.red.apply colored "failed"

/-- The last line of the listing. -/
def verdictLine (colored : Bool) (r : Report) : Text :=
  r.verdict colored ++ ": " ++ Text.ofNat r.errorCount ++ " error(s), "
    ++ Text.ofNat r.warningCount ++ " warning(s) in " ++ Text.ofNat r.unitsChecked ++ " unit(s)"
    ++ (if r.complete then "" else " (cancelled)") ++ "\n"

/-- The listing: the findings, an empty line if there are any, and the verdict. -/
def terminalText (colored : Bool) (r : Report) : Text :=
  r.diagnostics.flatMap (findingLine colored)
    ++ (if r.diagnostics.isEmpty then [] else ['\n']) ++ r.verdictLine colored

/-- The JSON text, indented and ended by a newline. -/
def jsonText (r : Report) : Text := r.toJson.pretty 0 ++ "\n"

/-- The report in a format. -/
def write (format : ReportFormat) (colored : Bool) (r : Report) : Text :=
  match format with
  | .json => r.jsonText
  | .terminal => r.terminalText colored

end Report

end DocContract
