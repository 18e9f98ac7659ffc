import ConditionalForm.Encoding.Form
import ConditionalForm.Validation

set_option autoImplicit false

namespace ConditionalForm

def FieldState.toJson (state : FieldState) : Json :=
  .object
    [("visible", .bool state.visible),
      ("requiredMode", state.mode.toJson),
      ("requiredNow", .bool state.requiredNow),
      ("enabled", .bool state.enabled)]

def StateMap.toJson (states : StateMap) : Json :=
  .object (states.map fun entry => (entry.1, entry.2.toJson))

def Issue.toJson (issue : Issue) : Json :=
  .object [("path", .text issue.path), ("message", .text issue.message)]

end ConditionalForm
