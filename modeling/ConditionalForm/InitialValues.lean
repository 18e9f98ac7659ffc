import ConditionalForm.Form

set_option autoImplicit false

namespace ConditionalForm

def Attributes.naturalValue (field : Attributes) (required : Bool) : Option Json :=
  (field.defaultValue.filter fun value => !value.isNull).or <|
    field.allowed.head?.or <|
      if field.type.isArray then some (.array [])
      else if field.type == .boolean then some (.bool false)
      else if required then some .null
      else none

namespace Field

def startValue (field : Field) : Option Json :=
  field.naturalValue field.requirement.isAlwaysRequired

def isSeeded (field : Field) : Bool :=
  (!field.allowed.isEmpty && field.markers.requiredWhen.isNone)
    || field.requirement.isAlwaysRequired

def childSeeds (field : Field) : Members :=
  if field.isSeeded || field.children.any isSeeded then
    (field.children.filter fun child => !child.isHeading).filterMap fun child =>
      child.startValue.map fun value => (field.name ++ "." ++ child.name, value)
  else []

def seeds (field : Field) : Members :=
  if field.isHeading then []
  else if field.isGroup then field.childSeeds
  else if field.isSeeded then (field.startValue.map fun value => (field.name, value)).toList
  else []

end Field

def Members.addNew (members : Members) (member : String × Json) : Members :=
  if members.contains member.1 then members else members ++ [member]

def initialValues (fields : List Field) : Snapshot :=
  fields.foldl (fun values field =>
    if Members.contains field.name values then values
    else field.seeds.foldl Members.addNew values) []

end ConditionalForm
