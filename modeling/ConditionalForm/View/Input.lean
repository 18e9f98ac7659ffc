import ConditionalForm.Payload
import ConditionalForm.View.Table

set_option autoImplicit false

namespace ConditionalForm

inductive InputType where
  | string
  | number
  | integer
  | boolean
  | array
  | object
  | choice
deriving DecidableEq, Repr

namespace InputType

def render : InputType → String
  | .string => "string"
  | .number => "number"
  | .integer => "integer"
  | .boolean => "boolean"
  | .array => "array"
  | .object => "object"
  | .choice => "enum"

def ofFieldType : FieldType → InputType
  | .string => .string
  | .number => .number
  | .integer => .integer
  | .boolean => .boolean
  | .object => .object
  | .array _ => .array

def ofField (field : Attributes) : InputType :=
  if !field.allowed.isEmpty || field.markers.choices.isSome then .choice
  else ofFieldType field.type

def ofItems : FieldType → Option InputType
  | .array none => some .string
  | .array (some .string) => some .string
  | .array (some .number) => some .number
  | .array (some .object) => some .object
  | _ => none

end InputType

structure InputAttributes where
  path : String
  name : String
  parentName : Option String
  type : InputType
  description : String
  required : Bool
  defaultValue : Option Json
  allowed : List Json
  minimum : Option Double
  maximum : Option Double
  items : Option InputType
  placeholder : String
  hint : Option String
  alternatives : List String
  optionIndex : Option Nat
deriving Repr

structure Input extends InputAttributes where
  children : List Input
deriving Repr

namespace Attributes

def itemHint (field : Attributes) : Option String :=
  if field.type.isArray && (field.minItems.isSome || field.maxItems.isSome) then
    some ("Items: " ++ toString (field.minItems.getD 0) ++ " ~ "
      ++ (field.maxItems.map toString).getD "∞")
  else none

def inputHint (field : Attributes) : Option String :=
  match field.markers.hint.toList ++ field.itemHint.toList with
  | [] => none
  | hints => some (" | ".intercalate hints)

def input (field : Attributes) (parent : Option String) (alternatives : List String) :
    InputAttributes :=
  { path := field.path
    name := field.name
    parentName := parent
    type := InputType.ofField field
    description := field.describe
    required := field.requirement.isAlwaysRequired
    defaultValue := field.defaultValue
    allowed := field.allowed
    minimum := field.minimum
    maximum := field.maximum
    items := InputType.ofItems field.type
    placeholder := "Enter " ++ field.name
    hint := field.inputHint
    alternatives := alternatives
    optionIndex := field.optionIndex }

end Attributes

mutual
def Field.input (parent : Option String) : Field → Input
  | ⟨attributes, children⟩ =>
      ⟨attributes.input parent (children.filterMap fun child => child.heading),
        inputs (some attributes.name) children⟩

def inputs (parent : Option String) : List Field → List Input
  | [] => []
  | field :: fields =>
      if field.isHeading then inputs parent fields
      else field.input parent :: inputs parent fields
end

mutual
def Input.retain (states : StateMap) : Input → Input
  | ⟨attributes, children⟩ => ⟨attributes, retainVisible states children⟩

def retainVisible (states : StateMap) : List Input → List Input
  | [] => []
  | input :: others =>
      if (StateMap.stateAt states input.path).visible then
        input.retain states :: retainVisible states others
      else retainVisible states others
end

def allInputs (fields : List Field) : List Input := inputs none fields

def visibleInputs (fields : List Field) (states : StateMap) : List Input :=
  retainVisible states (allInputs fields)

end ConditionalForm
