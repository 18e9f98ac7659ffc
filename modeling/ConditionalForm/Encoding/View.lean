import ConditionalForm.Json.Build
import ConditionalForm.View.Input

set_option autoImplicit false

namespace ConditionalForm

def Numbering.toJson (numbering : Numbering) (number : Nat) : Json :=
  match numbering with
  | .plain => Json.ofNat number
  | .inner => .text ("(" ++ toString number ++ ")")

def Row.headerToJson (label : String) : Json :=
  .object
    [("no", .text ""), ("name", .text ""), ("description", .text ""), ("type", .text ""),
      ("default", .text ""), ("required", .text ""), ("section", .text label)]

def RowCells.toJson (cells : RowCells) (children : List Json) : Json :=
  Json.ofEntries
    [("no", some (cells.numbering.toJson cells.number)),
      ("name", some (.text cells.name)),
      ("description", some (.text cells.description)),
      ("type", some (.text cells.typeName)),
      ("default", some (.text cells.defaultValue)),
      ("required", some (.text (if cells.required then "Required" else "Optional"))),
      ("options", Json.someItems (cells.choices.map .text)),
      ("children", Json.someItems children)]

mutual
def Row.toJson : Row → Json
  | .header label => Row.headerToJson label
  | .data cells children => cells.toJson (rowsToJson children)

def rowsToJson : List Row → List Json
  | [] => []
  | row :: rows => row.toJson :: rowsToJson rows
end

def InputAttributes.toJson (input : InputAttributes) (children : List Json) : Json :=
  Json.ofEntries
    [("path", some (.text input.path)),
      ("name", some (.text input.name)),
      ("parentName", input.parentName.map .text),
      ("type", some (.text input.type.render)),
      ("description", some (.text input.description)),
      ("required", some (.bool input.required)),
      ("default", input.defaultValue),
      ("enum", Json.someItems input.allowed),
      ("minimum", input.minimum.map Json.ofDouble),
      ("maximum", input.maximum.map Json.ofDouble),
      ("items", input.items.map fun items => .text items.render),
      ("placeholder", some (.text input.placeholder)),
      ("hint", input.hint.map .text),
      ("children", Json.someItems children),
      ("oneOfOptions", Json.someItems (input.alternatives.map .text)),
      ("optionIndex", input.optionIndex.map Json.ofNat)]

mutual
def Input.toJson : Input → Json
  | ⟨attributes, children⟩ => attributes.toJson (inputsToJson children)

def inputsToJson : List Input → List Json
  | [] => []
  | input :: inputs => input.toJson :: inputsToJson inputs
end

end ConditionalForm
