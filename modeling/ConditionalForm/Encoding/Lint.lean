import ConditionalForm.Json.Build
import ConditionalForm.Lint.Report

set_option autoImplicit false

namespace ConditionalForm.Lint

def Diagnostic.toJson (path : String) (d : Diagnostic) : Json :=
  .object
    [("severity", .text d.finding.severity.render),
      ("code", .text d.finding.code),
      ("file", .text path),
      ("path", .text d.place),
      ("message", .text d.finding.message)]

def FileReport.toJson (report : FileReport) : Json :=
  Json.ofEntries
    [("file", some (.text report.name)),
      ("status", some (.text report.status.render)),
      ("diagnostics",
        Json.someItems (report.diagnostics.map (Diagnostic.toJson report.path)))]

def Report.toJson (report : Report) : Json :=
  .object
    [("path", .text report.path),
      ("files_checked", Json.ofNat report.checked),
      ("passed", Json.ofNat report.passed),
      ("failed", Json.ofNat report.failed),
      ("errors", Json.ofNat report.errors),
      ("warnings", Json.ofNat report.warnings),
      ("results", .array (report.files.map FileReport.toJson))]

end ConditionalForm.Lint
