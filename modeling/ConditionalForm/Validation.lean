import ConditionalForm.Payload

set_option autoImplicit false

namespace ConditionalForm

inductive Fault where
  | missing
  | wrongType (expected : FieldType)
  | notAllowed (allowed : List Json)
  | notAllowedFor (current : String) (allowed : List Json)
  | tooFewItems (least : Nat)
  | tooManyItems (most : Nat)
  | belowMinimum (minimum : Double)
  | aboveMaximum (maximum : Double)

namespace Fault

def boundFormat : DecimalFormat where
  positional := fun _ => true
  keepsFraction := false
  tie := .upward

def expectedKind : FieldType → String
  | .boolean => "a boolean"
  | .array _ => "an array"
  | _ => "a number"

def choices (values : List Json) : String := ", ".intercalate (values.map Json.display)

def message (label : String) : Fault → String
  | .missing => label ++ " is required"
  | .wrongType expected => label ++ " must be " ++ expectedKind expected
  | .notAllowed allowed => "Invalid value. Must be one of: " ++ choices allowed
  | .notAllowedFor current allowed =>
      "Invalid value for " ++ current ++ ". Must be one of: " ++ choices allowed
  | .tooFewItems least => label ++ " must have at least " ++ toString least ++ " items"
  | .tooManyItems most => label ++ " must have at most " ++ toString most ++ " items"
  | .belowMinimum minimum => label ++ " must be at least " ++ boundFormat.render minimum
  | .aboveMaximum maximum => label ++ " must be at most " ++ boundFormat.render maximum

end Fault

structure Issue where
  path : String
  message : String
deriving DecidableEq, Repr

namespace Issue

def render (issue : Issue) : String := issue.path ++ ": " ++ issue.message

end Issue

def amongAllowed (allowed : List Json) (value : Json) : Bool :=
  allowed.any fun candidate => Json.sameValue (value.coerce candidate) candidate

namespace FieldType

def accepts (type : FieldType) (value : Json) : Bool :=
  match type, value with
  | .number, .number _ => true
  | .integer, .number _ => true
  | .number, .text s => (NumericText.read? (Text.trimBlanks s)).isSome
  | .integer, .text s => (NumericText.read? (Text.trimBlanks s)).isSome
  | .number, _ => false
  | .integer, _ => false
  | .boolean, .bool _ => true
  | .boolean, _ => false
  | .array _, .array _ => true
  | .array _, _ => false
  | .string, _ => true
  | .object, _ => true

end FieldType

def Json.numericUnits? : Json → Option Int
  | .number n => some n.signedUnits
  | .text s => (spelled? s).map Double.signedUnits
  | _ => none

namespace Attributes

def typeFault? (field : Attributes) (value : Json) : Option Fault :=
  if field.type.accepts value then none else some (.wrongType field.type)

def choiceFault? (field : Attributes) (value : Json) : Option Fault :=
  if field.allowed.isEmpty || amongAllowed field.allowed value then none
  else some (.notAllowed field.allowed)

def currentChoiceFault? (field : Attributes) (current : Option String) (value : Json) :
    Option Fault := do
  let current ← current
  let choices ← field.markers.choices
  let allowed ← (Members.find? current choices).bind Json.items?
  if amongAllowed allowed value then none else some (.notAllowedFor current allowed)

def countFault? (field : Attributes) (value : Json) : Option Fault :=
  match value with
  | .array items =>
      ((field.minItems.filter (items.length < ·)).map Fault.tooFewItems).or
        ((field.maxItems.filter (· < items.length)).map Fault.tooManyItems)
  | _ => none

def boundFault? (field : Attributes) (value : Json) : Option Fault :=
  if field.type.isNumeric then
    match value.numericUnits? with
    | some n =>
        ((field.minimum.filter (n < ·.signedUnits)).map Fault.belowMinimum).or
          ((field.maximum.filter (·.signedUnits < n)).map Fault.aboveMaximum)
    | none => none
  else none

def valueFault? (field : Attributes) (current : Option String) (value : Json) : Option Fault :=
  (field.typeFault? value).or <| (field.choiceFault? value).or <|
    (field.currentChoiceFault? current value).or <|
      (field.countFault? value).or (field.boundFault? value)

def fault? (field : Attributes) (current : Option String) (required : Bool) (value : Option Json) :
    Option Fault :=
  match value.filter Json.isFilled with
  | some value => field.valueFault? current value
  | none => if required then some .missing else none

def label (field : Attributes) : String := field.displayName.getD field.name

def issue? (field : Attributes) (states : StateMap) (current : Option String)
    (values : Snapshot) : Option Issue :=
  let state := StateMap.stateAt states field.path
  if field.heading.isSome || !state.visible then none
  else
    (field.fault? current state.requiredNow (field.entered values)).map fun fault =>
      ⟨field.path, fault.message field.label⟩

end Attributes

namespace Form

def issues (form : Form) (states : StateMap) (values : Snapshot) : List Issue :=
  let current := values.keyAt form.discriminatorField
  form.allFields.filterMap fun field => field.toAttributes.issue? states current values

end Form

end ConditionalForm
