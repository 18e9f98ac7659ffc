import ConditionalForm.Document.Wrapper
import ConditionalForm.Validation

set_option autoImplicit false

namespace ConditionalForm

inductive CheckError where
  | malformedSchema
  | invalid (issues : List Issue)
deriving DecidableEq, Repr

def CheckError.ofIssues (issues : List Issue) : Except CheckError Unit :=
  if issues.isEmpty then .ok () else .error (.invalid issues)

namespace Json

mutual
def stripMarkers : Json → Json
  | .object members => .object (stripMembers members)
  | .array items => .array (stripItems items)
  | .null => .null
  | .bool b => .bool b
  | .number n => .number n
  | .text s => .text s

def stripMembers : List (String × Json) → List (String × Json)
  | [] => []
  | (key, value) :: members =>
      if isMarkerKey key then stripMembers members
      else (key, stripMarkers value) :: stripMembers members

def stripItems : List Json → List Json
  | [] => []
  | item :: items => stripMarkers item :: stripItems items
end

end Json

-- What judges values by plain schemas is not part of this: the keywords it knows, and what it makes of a schema,
-- which is nothing where the schema is invalid.
structure SchemaLibrary where
  knows : String → Bool
  validator? : Json → Option (Json → List Issue)

namespace SchemaLibrary

def check (library : SchemaLibrary) (schema payload : Json) : Except CheckError Unit :=
  match library.validator? schema with
  | none => .error .malformedSchema
  | some issues => CheckError.ofIssues (issues payload)

def checkDocument (library : SchemaLibrary) (document payload : Json) : Except CheckError Unit :=
  library.check (Document.unwrap document).schema.stripMarkers payload

end SchemaLibrary

def Form.check (form : Form) (states : StateMap) (values : Snapshot) : Except CheckError Unit :=
  CheckError.ofIssues (form.issues states values)

end ConditionalForm
