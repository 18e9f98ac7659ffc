import ConditionalForm.Document.Group

set_option autoImplicit false

namespace ConditionalForm.Document

structure Property where
  name : String
  definition : Json
  requirement : Requirement
  optionIndex : Option Nat := none

inductive Entry where
  | heading (path label : String) (optionIndex : Nat)
  | property (path : String) (property : Property)

-- Paths for names in order: the plain path of a name unless it is claimed, by an earlier name or
-- from the outset, and the tagged one then.
def claimPaths (plain tagged : String → String) : List String → List String → List String
  | _, [] => []
  | claimed, name :: names =>
      let path := if claimed.contains (plain name) then tagged name else plain name
      path :: claimPaths plain tagged (path :: claimed) names

def alternativeLabel (index : Nat) (alternative : Json) (own : Members) : String :=
  let header := own.head?.bind fun property => (Markers.ofDefinition property.2).sectionHeader
  (header.or ((alternative.get? "title").bind Json.text?)).getD ("Option " ++ toString (index + 1))

def alternativeEntries (index : Nat) (required : List String) (own : Members)
    (paths : List String) : List Entry :=
  (own.zip paths).map fun entry =>
    .property entry.2
      { name := entry.1.1
        definition := entry.1.2
        requirement := .wildcard (if required.contains entry.1.1 then .required else .optional)
        optionIndex := some index }

def alternativesBelow (parent separator : String) :
    List String → Nat → List Json → List Entry
  | _, _, [] => []
  | claimed, index, alternative :: others =>
      match (alternative.get? "properties").bind Json.members? with
      | none => alternativesBelow parent separator claimed (index + 1) others
      | some own =>
          let paths := claimPaths (fun name => parent ++ separator ++ name)
            (fun name => parent ++ ".option_" ++ toString index ++ "." ++ name) claimed own.keys
          .heading (parent ++ ".__section_" ++ toString index)
              (alternativeLabel index alternative own) index
            :: alternativeEntries index (requiredNames alternative) own paths
            ++ alternativesBelow parent separator (paths ++ claimed) (index + 1) others

def entriesBelow (parent separator : String) (schema : Json) : List Entry :=
  let required := requiredNames schema
  let own := properties schema
  let paths := own.keys.map fun name => parent ++ separator ++ name
  (own.zip paths).map (fun entry =>
      .property entry.2 ⟨entry.1.1, entry.1.2, .fixed (required.contains entry.1.1), none⟩)
    ++ alternativesBelow parent separator paths 0
      (((schema.get? "oneOf").bind Json.items?).getD [])

def entriesOf (path : String) (definition : Json) : List Entry :=
  match FieldType.ofDefinition definition with
  | .object => entriesBelow path "." definition
  | .array (some .object) => entriesBelow path "[]." ((definition.get? "items").getD .null)
  | _ => []

def itemCount? (value : Json) : Option Nat :=
  match value with
  | .number (.whole (.ofNat n)) => some n
  | _ => none

def attributes (level : Nat) (path : String) (property : Property) : Attributes :=
  let definition := property.definition
  let markers := Markers.ofDefinition definition
  let bound (name : String) := ((definition.get? name).bind Json.number?).bind Number.toDouble?
  { path := path
    name := property.name
    displayName := markers.label
    description := (definition.get? "description").bind Json.text?
    type := FieldType.ofDefinition definition
    requirement := property.requirement
    defaultValue := definition.get? "default"
    allowed := ((definition.get? "enum").bind Json.items?).getD []
    minimum := bound "minimum"
    maximum := bound "maximum"
    minItems := (definition.get? "minItems").bind itemCount?
    maxItems := (definition.get? "maxItems").bind itemCount?
    level := level
    sectionHeader := markers.sectionHeader
    optionIndex := property.optionIndex
    markers := markers }

def headingField (level : Nat) (path label : String) (optionIndex : Nat) : Field :=
  { path := path
    name := path
    displayName := some label
    heading := some label
    level := level
    optionIndex := some optionIndex }

def build : (depth level : Nat) → (path : String) → Property → Field
  | 0, level, path, property => ⟨attributes level path property, []⟩
  | depth + 1, level, path, property =>
      ⟨attributes level path property,
        (entriesOf path property.definition).map fun
          | .heading path label optionIndex => headingField (level + 1) path label optionIndex
          | .property path property => build depth (level + 1) path property⟩

end ConditionalForm.Document
