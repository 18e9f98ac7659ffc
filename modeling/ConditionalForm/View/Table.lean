import ConditionalForm.Form

set_option autoImplicit false

namespace ConditionalForm

inductive Numbering where
  | plain
  | inner
deriving DecidableEq, Repr

structure RowCells where
  numbering : Numbering
  number : Nat
  name : String
  description : String
  typeName : String
  defaultValue : String
  required : Bool
  choices : List String
deriving Repr

inductive Row where
  | header (label : String)
  | data (cells : RowCells) (children : List Row)
deriving Repr

namespace Row

def isHeader : Row → Bool
  | .header _ => true
  | .data _ _ => false

def renderDefault (value : Option Json) : String :=
  match value with
  | none => "-"
  | some .null => "-"
  | some (.text s) => "\"" ++ s ++ "\""
  | some other => other.compact

def choiceLine (labels : Option Members) (value : Json) : String :=
  let shown := match value with
    | .text s => "\"" ++ s ++ "\""
    | other => other.compact
  match (labels.bind (Members.find? value.key)).bind Json.text? with
  | some label => " • " ++ label ++ " : " ++ shown
  | none => " • " ++ shown

end Row

namespace Attributes

def describe (field : Attributes) : String :=
  (field.displayName.or field.description).getD field.name

def choiceLines (markers : Markers) : List String :=
  match markers.choices with
  | none => []
  | some choices =>
      "Enum Values by Type:" :: choices.flatMap fun entry =>
        (entry.1 ++ ":") :: (entry.2.items?.getD []).map (Row.choiceLine markers.choiceLabels)

def boundLines (markers : Markers) : List String :=
  match markers.bounds with
  | none => []
  | some [] => []
  | some bounds =>
      "Value Constraints:" :: bounds.map fun entry => " • " ++ entry.1 ++ ": " ++ entry.2.display

def noteLines (markers : Markers) : List String :=
  (markers.requiredWhen.map fun p => "Required when " ++ p.label).toList
    ++ (markers.optionalWhen.map fun p => "Optional when " ++ p.label).toList
    ++ (markers.hint.map fun hint => "Hint: " ++ hint).toList

def tableDescription (field : Attributes) : String :=
  "\n".intercalate
    (field.describe :: (choiceLines field.markers ++ boundLines field.markers
      ++ noteLines field.markers))

def cells (numbering : Numbering) (number : Nat) (field : Attributes) : RowCells :=
  { numbering := numbering
    number := number
    name := match numbering with
      | .plain => field.name
      | .inner => Text.afterLast '.' field.name
    description := field.tableDescription
    typeName := field.type.displayName
    defaultValue := Row.renderDefault field.defaultValue
    required := field.requirement.isEverRequired
    choices := field.allowed.map (Row.choiceLine field.markers.choiceLabels) }

end Attributes

mutual
def Field.row (numbering : Numbering) (number : Nat) : Field → Row
  | ⟨attributes, children⟩ => .data (attributes.cells numbering number) (rows .inner 1 children)

-- Rows of fields; numbers start again after a heading, but not after a header of a field.
def rows (numbering : Numbering) (number : Nat) : List Field → List Row
  | [] => []
  | field :: fields =>
      match field.heading with
      | some label => .header label :: rows numbering 1 fields
      | none =>
          (field.sectionHeader.map Row.header).toList
            ++ field.row numbering number :: rows numbering (number + 1) fields
end

def tableRows (fields : List Field) : List Row := rows .plain 1 fields

end ConditionalForm
