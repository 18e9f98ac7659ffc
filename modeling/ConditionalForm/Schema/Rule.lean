import ConditionalForm.Json.Printer
import ConditionalForm.Schema.Equality

set_option autoImplicit false

namespace ConditionalForm

inductive SimpleType where
  | array
  | boolean
  | integer
  | null
  | number
  | object
  | string
deriving DecidableEq, Repr

namespace SimpleType

def all : List SimpleType := [.array, .boolean, .integer, .null, .number, .object, .string]

def name : SimpleType → String
  | .array => "array"
  | .boolean => "boolean"
  | .integer => "integer"
  | .null => "null"
  | .number => "number"
  | .object => "object"
  | .string => "string"

def ofName? (name : String) : Option SimpleType := all.find? fun type => type.name == name

def admits : SimpleType → Json → Bool
  | .array, .array _ => true
  | .boolean, .bool _ => true
  | .integer, .number (.whole _) => true
  | .integer, .number (.double x) => x.isWhole
  | .null, .null => true
  | .number, .number _ => true
  | .object, .object _ => true
  | .string, .text _ => true
  | _, _ => false

end SimpleType

inductive Rule where
  | never
  | hasType (types : List SimpleType)
  | oneOf (values : List Json)
  | equals (value : Json)
  | atLeast (limit : Number)
  | atMost (limit : Number)
  | minItems (count : Nat)
  | maxItems (count : Nat)
  | required (name : String)
deriving Repr

namespace Rule

def admits (value : Json) : Rule → Bool
  | .never => false
  | .hasType types => types.any fun type => type.admits value
  | .oneOf values => values.any value.equal
  | .equals expected => expected.matchesConstant value
  | .atLeast limit => value.number?.all fun n => limit.exactUnits ≤ n.exactUnits
  | .atMost limit => value.number?.all fun n => n.exactUnits ≤ limit.exactUnits
  | .minItems count => value.items?.all fun items => count ≤ items.length
  | .maxItems count => value.items?.all fun items => items.length ≤ count
  | .required name => value.members?.all fun members => Members.contains name members

def itemCount (count : Nat) : String :=
  toString count ++ if count = 1 then " item" else " items"

def complaint (value : Json) : Rule → String
  | .never => "False schema does not allow " ++ value.compact
  | .hasType [type] => value.compact ++ " is not of type " ++ Json.quote type.name
  | .hasType types =>
      value.compact ++ " is not of types "
        ++ ", ".intercalate (types.map fun type => Json.quote type.name)
  | .oneOf values => value.compact ++ " is not one of " ++ (Json.array values).compact
  | .equals expected => expected.compact ++ " was expected"
  | .atLeast limit => value.compact ++ " is less than the minimum of " ++ limit.render
  | .atMost limit => value.compact ++ " is greater than the maximum of " ++ limit.render
  | .minItems count => value.compact ++ " has less than " ++ itemCount count
  | .maxItems count => value.compact ++ " has more than " ++ itemCount count
  | .required name => Json.quote name ++ " is a required property"

end Rule

end ConditionalForm
