import ConditionalForm.Lint.Report

set_option autoImplicit false

namespace ConditionalForm.CommandLine

inductive Colour where
  | red
  | green
  | yellow

namespace Colour

def code : Colour → String
  | .red => "31"
  | .green => "32"
  | .yellow => "33"

def paint (colour : Colour) (text : String) : String :=
  "\x1b[" ++ colour.code ++ "m" ++ text ++ "\x1b[0m"

end Colour

def statusMark : Lint.FileStatus → String
  | .ok => Colour.green.paint "ok  "
  | .warning => Colour.yellow.paint "warn"
  | .error => Colour.red.paint "fail"

def severityColour : Lint.Severity → Colour
  | .error => .red
  | .warning => .yellow

def findingLine (d : Lint.Diagnostic) : String :=
  "      " ++ (severityColour d.finding.severity).paint d.finding.code ++ " " ++ d.place ++ "  "
    ++ d.finding.message

def fileLines (quiet : Bool) (file : Lint.FileReport) : List String :=
  (if quiet && file.status == .ok then [] else ["  " ++ statusMark file.status ++ " " ++ file.name])
    ++ (file.diagnostics.filter fun d => !quiet || d.isError).map findingLine

def summary (report : Lint.Report) : String :=
  if report.succeeds then
    Colour.green.paint (toString report.checked ++ " schema file(s) compile cleanly")
  else
    Colour.red.paint
      (toString report.failed ++ " of " ++ toString report.checked
        ++ " schema file(s) have problems: " ++ toString report.errors ++ " error(s), "
        ++ toString report.warnings ++ " warning(s)")

def reportLines (quiet : Bool) (report : Lint.Report) : List String :=
  (if quiet then [] else ["Checking schema files under " ++ report.path, ""])
    ++ report.files.flatMap (fileLines quiet) ++ ["", summary report]

end ConditionalForm.CommandLine
