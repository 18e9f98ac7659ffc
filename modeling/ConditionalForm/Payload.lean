import ConditionalForm.State

set_option autoImplicit false

namespace ConditionalForm

def Json.isFilled : Json → Bool
  | .null => false
  | .text s => !s.isEmpty
  | _ => true

def hasValue (value : Option Json) : Bool := value.any Json.isFilled

namespace FieldState

def includes (state : FieldState) (value : Option Json) : Bool :=
  state.visible && (state.requiredNow || hasValue value)

end FieldState

namespace StateMap

def stateAt (states : StateMap) (path : String) : FieldState := (states.get? path).getD .unknown

end StateMap

def Attributes.entered (field : Attributes) (values : Snapshot) : Option Json :=
  (values.lookup field.path).or (values.lookup field.name)

def Attributes.leafEntry (field : Attributes) (state : FieldState) (values : Snapshot) :
    Option Json :=
  let value := field.entered values
  if state.includes value then some (value.getD .null) else none

mutual
def Field.entry (states : StateMap) (values : Snapshot) : Field → Option Json
  | ⟨attributes, children⟩ =>
      let state := StateMap.stateAt states attributes.path
      if !state.visible then none
      else if (⟨attributes, children⟩ : Field).isGroup then
        let body := assemble states values [] children
        if body.isEmpty && !state.requiredNow then none else some (.object body)
      else attributes.leafEntry state values

-- Entries of fields in order, after those of `body`; the first field of a name that
-- contributes counts.
def assemble (states : StateMap) (values : Snapshot) (body : Members) : List Field → Members
  | [] => body
  | field :: fields =>
      if field.isHeading || body.contains field.name then assemble states values body fields
      else
        match field.entry states values with
        | some value => assemble states values (body ++ [(field.name, value)]) fields
        | none => assemble states values body fields
end

namespace Form

def payload (form : Form) (states : StateMap) (values : Snapshot) : Json :=
  .object (assemble states values [] form.fields)

def wrapArgument (form : Form) (body : Json) : Json :=
  match form.argumentKey with
  | some key => .object [(key, body)]
  | none => body

end Form

end ConditionalForm
