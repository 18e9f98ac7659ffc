import ConditionalForm.Condition
import ConditionalForm.Number.Numeral
import ConditionalForm.Text.Blank
import ConditionalForm.Text.Split

set_option autoImplicit false

namespace ConditionalForm

abbrev Snapshot := Members

namespace Snapshot

def segments (path : String) : List String := Text.split '.' path

def descend : List String → Json → Option Json
  | [], value => some value
  | segment :: rest, value => (value.get? segment).bind (descend rest)

def lookup (values : Snapshot) (path : String) : Option Json :=
  match Members.find? path values with
  | some value => some value
  | none => descend (segments path) (.object values)

def keyAt (values : Snapshot) (path : String) : Option String :=
  ((lookup values path).filter fun value => !value.isNull).map Json.key

end Snapshot

namespace Json

def spelled? (s : String) : Option Double :=
  match NumericText.read? (Text.trimBlanks s) with
  | some (.finite x) => some x
  | _ => none

def coerce (actual expected : Json) : Json :=
  match expected, actual with
  | .number _, .text s =>
      match spelled? s with
      | some x => .number (.double x)
      | none => actual
  | .text _, .number n => .text n.render
  | _, _ => actual

def sameValue : Json → Json → Bool
  | .number a, .number b => a.sameValue b
  | a, b => a == b

end Json

namespace Expected

-- A list of values is met in the kind of its first one; an empty list never is.
def accepts (expected : Expected) (actual : Json) : Bool :=
  match expected with
  | .one value => Json.sameValue (actual.coerce value) value
  | .anyOf [] => false
  | .anyOf (first :: others) => (first :: others).any (Json.sameValue (actual.coerce first))

end Expected

def Clause.holds (values : Snapshot) (clause : Clause) : Bool :=
  match values.lookup clause.field with
  | some actual => clause.expected.accepts actual
  | none => false

def Condition.holds (values : Snapshot) (condition : Condition) : Bool :=
  condition.clauses.all (Clause.holds values)

end ConditionalForm
