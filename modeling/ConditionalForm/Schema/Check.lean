import ConditionalForm.Schema.Constraint
import ConditionalForm.Schema.Library

set_option autoImplicit false

namespace ConditionalForm

namespace Constraint

def Violation.issue (violation : Violation) : Issue :=
  ⟨violation.pointer.render, violation.rule.complaint violation.value⟩

def issues (constraint : Constraint) (value : Json) : List Issue :=
  (constraint.violations [] value).map Violation.issue

def keywords : List String :=
  ["type", "enum", "const", "minimum", "maximum", "minItems", "maxItems", "required", "items", "allOf",
    "properties", "if", "then"]

def library : SchemaLibrary where
  knows := keywords.contains
  validator? := fun schema => (ofSchema? schema).map issues

end Constraint

def checkAgainst (schema payload : Json) : Except CheckError Unit := Constraint.library.check schema payload

def checkPayload (document payload : Json) : Except CheckError Unit :=
  Constraint.library.checkDocument document payload

end ConditionalForm
