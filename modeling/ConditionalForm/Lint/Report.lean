import ConditionalForm.Lint.Document

set_option autoImplicit false

namespace ConditionalForm.Lint

inductive FileStatus where
  | ok
  | error
  | warning
deriving DecidableEq, Repr

def FileStatus.render : FileStatus → String
  | .ok => "ok"
  | .error => "error"
  | .warning => "warning"

structure FileReport where
  name : String
  path : String
  diagnostics : List Diagnostic

namespace FileReport

def status (report : FileReport) : FileStatus :=
  if report.diagnostics.any Diagnostic.isError then .error
  else if report.diagnostics.isEmpty then .ok
  else .warning

def fails (strict : Bool) (report : FileReport) : Bool :=
  match report.status with
  | .ok => false
  | .warning => strict
  | .error => true

end FileReport

structure Report where
  path : String
  strict : Bool
  files : List FileReport

namespace Report

def diagnostics (report : Report) : List Diagnostic :=
  report.files.flatMap FileReport.diagnostics

def errors (report : Report) : Nat := (report.diagnostics.filter Diagnostic.isError).length

def warnings (report : Report) : Nat :=
  (report.diagnostics.filter fun d => !d.isError).length

def checked (report : Report) : Nat := report.files.length

def failed (report : Report) : Nat := (report.files.filter (FileReport.fails report.strict)).length

def passed (report : Report) : Nat := report.checked - report.failed

def isOk (report : Report) : Bool := report.errors == 0

def succeeds (report : Report) : Bool :=
  report.isOk && (!report.strict || report.warnings == 0)

end Report

def isSchemaName (name : String) : Bool := name.endsWith ".json" && name != ".json"

def inspectFile (tree : FileTree) (name path : String) : FileReport :=
  { name := name
    path := path
    diagnostics := match loadDocument tree path with
      | .ok document => findings document
      | .error cause => [⟨[], .unreadable cause⟩] }

def inspect (tree : FileTree) (path : String) (strict : Bool) : Report :=
  { path := path
    strict := strict
    files := match tree.at? path with
      | some (.file _) =>
          if isSchemaName (Text.afterLast '/' path) then [inspectFile tree "" path] else []
      | some .directory =>
          let files := (tree.filesBelow (FilePath.ofString path)).filter fun file =>
            isSchemaName (file.getLast?.getD "")
          files.map fun file =>
            let name := "/".intercalate file
            inspectFile tree name (FilePath.append path name)
      | none => [] }

end ConditionalForm.Lint
