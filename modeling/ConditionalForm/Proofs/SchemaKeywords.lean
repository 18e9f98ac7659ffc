import ConditionalForm.Schema.Library

set_option autoImplicit false

namespace ConditionalForm

inductive KeywordKind where
  | schema
  | schemas
  | properties
  | data
  | plain
deriving DecidableEq

def keywordKind? : String → Option KeywordKind
  | "items" => some .schema
  | "if" => some .schema
  | "then" => some .schema
  | "allOf" => some .schemas
  | "properties" => some .properties
  | "enum" => some .data
  | "const" => some .data
  | "type" => some .plain
  | "minimum" => some .plain
  | "maximum" => some .plain
  | "minItems" => some .plain
  | "maxItems" => some .plain
  | "required" => some .plain
  | _ => none

namespace Json

def isScalar : Json → Bool
  | .array _ => false
  | .object _ => false
  | _ => true

def isFlat : Json → Bool
  | .object _ => false
  | .array items => items.all isScalar
  | _ => true

mutual
def subschemas : Json → List Json
  | .object members => .object members :: memberSchemas members
  | .array items => [.array items]
  | .null => [.null]
  | .bool b => [.bool b]
  | .number n => [.number n]
  | .text s => [.text s]

def memberSchemas : List (String × Json) → List Json
  | [] => []
  | (key, value) :: members =>
      (match keywordKind? key with
      | some .schema => subschemas value
      | some .schemas => listSchemas value
      | some .properties => propertySchemas value
      | _ => []) ++ memberSchemas members

def listSchemas : Json → List Json
  | .array items => itemSchemas items
  | _ => []

def itemSchemas : List Json → List Json
  | [] => []
  | item :: items => subschemas item ++ itemSchemas items

def propertySchemas : Json → List Json
  | .object members => namedSchemas members
  | _ => []

def namedSchemas : List (String × Json) → List Json
  | [] => []
  | (_, schema) :: members => subschemas schema ++ namedSchemas members
end

def valueSchemas (kind : Option KeywordKind) (value : Json) : List Json :=
  match kind with
  | some .schema => subschemas value
  | some .schemas => listSchemas value
  | some .properties => propertySchemas value
  | _ => []

mutual
def knownPart? : Json → Option Json
  | .object members => (knownMembers? members).map .object
  | .array _ => none
  | .null => some .null
  | .bool b => some (.bool b)
  | .number n => some (.number n)
  | .text s => some (.text s)

def knownMembers? : List (String × Json) → Option (List (String × Json))
  | [] => some []
  | (key, value) :: members =>
      match keywordKind? key with
      | none => knownMembers? members
      | some kind =>
          (match kind with
          | .schema => knownPart? value
          | .schemas => knownList? value
          | .properties => knownProperties? value
          | .data => some value
          | .plain => if value.isFlat then some value else none).bind fun part =>
            (knownMembers? members).map ((key, part) :: ·)

def knownList? : Json → Option Json
  | .array items => (knownItems? items).map .array
  | _ => none

def knownItems? : List Json → Option (List Json)
  | [] => some []
  | item :: items => (knownPart? item).bind fun part => (knownItems? items).map (part :: ·)

def knownProperties? : Json → Option Json
  | .object members => (knownNamed? members).map .object
  | _ => none

def knownNamed? : List (String × Json) → Option (List (String × Json))
  | [] => some []
  | (name, schema) :: members =>
      (knownPart? schema).bind fun part => (knownNamed? members).map ((name, part) :: ·)
end

def knownValue? (kind : KeywordKind) (value : Json) : Option Json :=
  match kind with
  | .schema => knownPart? value
  | .schemas => knownList? value
  | .properties => knownProperties? value
  | .data => some value
  | .plain => if value.isFlat then some value else none

theorem known_members_cons (key : String) (value : Json) (members : List (String × Json)) (kind : KeywordKind)
    (known : keywordKind? key = some kind) : knownMembers? ((key, value) :: members) =
      (knownValue? kind value).bind fun part => (knownMembers? members).map ((key, part) :: ·) := by
  rw [knownMembers?, known]
  rfl

theorem known_members_unknown (key : String) (value : Json) (members : List (String × Json))
    (unknown : keywordKind? key = none) : knownMembers? ((key, value) :: members) = knownMembers? members := by
  rw [knownMembers?, unknown]

-- The keys of a schema, and of those inside it, are covered keywords and keys that the library does not know.
def Covered (knows : String → Bool) (schema : Json) : Prop :=
  ∀ inner ∈ schema.subschemas, ∀ member ∈ inner.members?.getD [],
    (keywordKind? member.1).isSome = true ∨ knows member.1 = false

instance (knows : String → Bool) (schema : Json) : Decidable (schema.Covered knows) :=
  inferInstanceAs (Decidable (∀ inner ∈ schema.subschemas, ∀ member ∈ inner.members?.getD [],
    (keywordKind? member.1).isSome = true ∨ knows member.1 = false))

end Json

-- What the libraries for plain schemas have in common, as far as the covered keywords go.
structure SchemaLibrary.Conforms (library : SchemaLibrary) : Prop where
  ignores_unknown : ∀ schema part, schema.Covered library.knows → schema.knownPart? = some part →
    library.validator? schema = library.validator? part
  rejects_malformed : ∀ schema, schema.Covered library.knows → schema.knownPart? = none →
    library.validator? schema = none

end ConditionalForm
