import ConditionalForm.CommandLine.Command
import ConditionalForm.CommandLine.LintText
import ConditionalForm.Encoding.Lint
import ConditionalForm.Encoding.State
import ConditionalForm.Encoding.View
import ConditionalForm.Files
import ConditionalForm.InitialValues
import ConditionalForm.Schema.Check

set_option autoImplicit false

namespace ConditionalForm.CommandLine

structure Outcome where
  code : Nat
  output : String
  complaint : String
deriving DecidableEq, Repr

def lines (texts : List String) : String := String.join (texts.map (· ++ "\n"))

namespace Outcome

def printed (text : String) : Outcome := ⟨0, lines [text], ""⟩

def failed (json : Bool) (code : Nat) (message : String) : Outcome :=
  if json then
    let report := Json.object [("valid", .bool false), ("error", .text message)]
    ⟨code, lines [report.compact], ""⟩
  else ⟨code, "", lines ["Error: " ++ message]⟩

def misused : Outcome := ⟨2, "", lines ["usage: COMMAND [OPTION]... PATH..."]⟩

def unloaded (json : Bool) (role : String) (e : LoadError) : Outcome :=
  failed json e.exitCode ("loading " ++ role ++ ": " ++ e.message)

def checked (json : Bool) : Except CheckError Unit → Outcome
  | .ok () => printed (if json then (Json.object [("valid", .bool true)]).compact else "Valid")
  | .error .malformedSchema => failed json 2 "invalid schema"
  | .error (.invalid issues) =>
      if json then
        let report := Json.object
          [("valid", .bool false), ("errors", .array (issues.map Issue.toJson))]
        ⟨1, lines [report.compact], ""⟩
      else ⟨1, "", lines ("Validation failed:" :: issues.map fun issue => "  " ++ issue.render)⟩

def afterLoad {α : Type} (json : Bool) (role : String) (load : Except LoadError α)
    (next : α → Outcome) : Outcome :=
  match load with
  | .ok value => next value
  | .error e => unloaded json role e

end Outcome

def Source.load (source : Source) (tree : FileTree) : Except LoadError Form :=
  (loadDocument tree source.schema).map (Form.ofDocument source.options)

namespace Command

def withForm (tree : FileTree) (source : Source) (json : Bool) (next : Form → Outcome) : Outcome :=
  Outcome.afterLoad json "schema" (source.load tree) next

def withValues (tree : FileTree) (source : Source) (values : String) (json : Bool)
    (next : Form → Snapshot → Outcome) : Outcome :=
  withForm tree source json fun form =>
    Outcome.afterLoad json "values" (loadValues tree values) (next form)

def runLint (tree : FileTree) (path format : String) (strict quiet : Bool) : Outcome :=
  match tree.at? path with
  | none => Outcome.failed false 2 ("path not found: " ++ path)
  | some _ =>
      let report := Lint.inspect tree path strict
      let text := if format == "json" then lines [report.toJson.pretty]
        else lines (reportLines quiet report)
      ⟨if report.succeeds then 0 else 1, text, ""⟩

def run (tree : FileTree) (layout : Json → String) : Command → Outcome
  | .compile source => withForm tree source false fun form => .printed (layout form.toJson)
  | .table source =>
      withForm tree source false fun form =>
        .printed (layout (.array (rowsToJson (tableRows form.fields))))
  | .init source =>
      withForm tree source false fun form => .printed (layout (.object (initialValues form.fields)))
  | .builder source none =>
      withForm tree source false fun form =>
        .printed (layout (.array (inputsToJson (allInputs form.fields))))
  | .builder source (some values) =>
      withValues tree source values false fun form values =>
        .printed (layout (.array
          (inputsToJson (visibleInputs form.fields (form.evaluate values)))))
  | .evaluate source values =>
      withValues tree source values false fun form values =>
        .printed (layout (StateMap.toJson (form.evaluate values)))
  | .payload source values wrap =>
      withValues tree source values false fun form values =>
        let body := form.payload (form.evaluate values) values
        .printed (layout (if wrap then form.wrapArgument body else body))
  | .validate source values json =>
      withValues tree source values json fun form values =>
        .checked json (form.check (form.evaluate values) values)
  | .check schema body json =>
      Outcome.afterLoad json "schema" (loadDocument tree schema) fun document =>
        Outcome.afterLoad json "payload" (loadDocument tree body) fun body =>
          .checked json (checkPayload document body)
  | .lint path format strict quiet => runLint tree path format strict quiet

def paths : Command → List String
  | .compile source => [source.schema]
  | .table source => [source.schema]
  | .init source => [source.schema]
  | .builder source values => source.schema :: values.toList
  | .evaluate source values => [source.schema, values]
  | .payload source values _ => [source.schema, values]
  | .validate source values _ => [source.schema, values]
  | .check schema body _ => [schema, body]
  | .lint path _ _ _ => [path]

end Command

def versionText : String := "schema-fields 0.3.0"

def run (tree : FileTree) (words : List String) : Outcome :=
  match Request.ofWords? words with
  | none => .misused
  | some .version => .printed versionText
  | some (.run command pretty) =>
      command.run tree (if pretty then Json.pretty else Json.compact)

end ConditionalForm.CommandLine
