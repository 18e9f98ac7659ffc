import ConditionalForm.Files
import ConditionalForm.Json.Pointer
import ConditionalForm.Json.Printer

set_option autoImplicit false

namespace ConditionalForm.Lint

inductive Severity where
  | error
  | warning
deriving DecidableEq, Repr

def Severity.render : Severity → String
  | .error => "error"
  | .warning => "warning"

inductive Finding where
  | unreadable (cause : LoadError)
  | noFields
  | malformedCondition (key : String) (value : Json)
  | undeclared (name : String)
  | ignoredConditional
  | unknownType (tag : String)

namespace Finding

def severity : Finding → Severity
  | .unreadable _ => .error
  | .noFields => .error
  | .malformedCondition _ _ => .error
  | .undeclared _ => .error
  | .ignoredConditional => .warning
  | .unknownType _ => .warning

def code : Finding → String
  | .unreadable _ => "E001"
  | .noFields => "E002"
  | .malformedCondition _ _ => "E003"
  | .undeclared _ => "E004"
  | .ignoredConditional => "W001"
  | .unknownType _ => "W002"

def message : Finding → String
  | .unreadable cause => "syntax error: " ++ cause.message
  | .noFields => "no properties found after unwrapping"
  | .malformedCondition key value =>
      "malformed condition marker " ++ key ++ ": " ++ value.compact
  | .undeclared name => "required field \"" ++ name ++ "\" is not declared"
  | .ignoredConditional =>
      "branch condition is not a single-property const/enum test and will be ignored"
  | .unknownType tag => "unknown type \"" ++ tag ++ "\" will be treated as string"

end Finding

structure Diagnostic where
  pointer : Pointer
  finding : Finding

namespace Diagnostic

def isError (d : Diagnostic) : Bool := d.finding.severity == .error

def place (d : Diagnostic) : String :=
  match d.pointer with
  | [] => "/"
  | pointer => pointer.render

end Diagnostic

end ConditionalForm.Lint
