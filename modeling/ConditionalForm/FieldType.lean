import ConditionalForm.Json.Basic

set_option autoImplicit false

namespace ConditionalForm

inductive ItemType where
  | string
  | number
  | object
deriving DecidableEq, Repr

inductive FieldType where
  | string
  | number
  | integer
  | boolean
  | object
  | array (items : Option ItemType)
deriving DecidableEq, Repr

namespace FieldType

instance : Inhabited FieldType := ⟨.string⟩

def tag : FieldType → String
  | .string => "string"
  | .number => "number"
  | .integer => "integer"
  | .boolean => "boolean"
  | .object => "object"
  | .array none => "array"
  | .array (some .string) => "array[string]"
  | .array (some .number) => "array[number]"
  | .array (some .object) => "array[object]"

def displayName : FieldType → String
  | .string => "String"
  | .number => "Number"
  | .integer => "Integer"
  | .boolean => "Boolean"
  | .object => "Object"
  | .array none => "Array"
  | .array (some .string) => "Array[String]"
  | .array (some .number) => "Array[Number]"
  | .array (some .object) => "Array[Object]"

def primitives : List FieldType := [.string, .number, .integer, .boolean, .object, .array none]

def all : List FieldType :=
  primitives ++ [.array (some .string), .array (some .number), .array (some .object)]

def primitive? (tag : String) : Option FieldType := primitives.find? fun t => t.tag == tag

def ofTag? (tag : String) : Option FieldType := all.find? fun t => t.tag == tag

def isArray : FieldType → Bool
  | .array _ => true
  | _ => false

def isNumeric : FieldType → Bool
  | .number => true
  | .integer => true
  | _ => false

def itemType? : FieldType → Option ItemType
  | .string => some .string
  | .number => some .number
  | .integer => some .number
  | .object => some .object
  | _ => none

def declaredTag? (definition : Json) : Option String :=
  match definition.get? "type" with
  | some (.text tag) => some tag
  | some (.array tags) => (tags.filterMap Json.text?).find? fun tag => tag != "null"
  | _ => none

def inferred (definition : Json) : FieldType :=
  if (definition.get? "properties").isSome || (definition.get? "oneOf").isSome then .object
  else if (definition.get? "items").isSome then .array none
  else
    match ((definition.get? "enum").bind Json.items?).bind List.head? with
    | some (.number (.whole _)) => .integer
    | some (.number (.double _)) => .number
    | some (.bool _) => .boolean
    | _ => .string

def shape (definition : Json) : FieldType :=
  match declaredTag? definition with
  | some tag => (primitive? tag).getD .string
  | none => inferred definition

def ofDefinition (definition : Json) : FieldType :=
  match shape definition, definition.get? "items" with
  | .array _, some (.object members) => .array (shape (.object members)).itemType?
  | type, _ => type

end FieldType

end ConditionalForm
