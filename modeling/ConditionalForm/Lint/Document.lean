import ConditionalForm.Document.Compile
import ConditionalForm.Lint.Diagnostic

set_option autoImplicit false

namespace ConditionalForm.Lint

def conditionMarkers : List Spelling :=
  [.plain "x-required-when", .plain "x-visible-when", .plain "x-optional-when",
    .nested "x-ui" "visibleWhen", .nested "x-ui" "requiredWhen"]

def Spelling.pointer : Spelling → Pointer
  | .plain key => [key]
  | .nested outer key => [outer, key]

def Spelling.key : Spelling → String
  | .plain key => key
  | .nested _ key => key

def unknownTypes (pointer : Pointer) (schema : Json) : List Diagnostic :=
  let tags := match schema.get? "type" with
    | some (.text tag) => [tag]
    | some (.array tags) => tags.filterMap Json.text?
    | _ => []
  (tags.filter fun tag => tag != "null" && (FieldType.primitive? tag).isNone).map fun tag =>
    ⟨pointer ++ ["type"], .unknownType tag⟩

def malformedConditions (pointer : Pointer) (schema : Json) : List Diagnostic :=
  conditionMarkers.filterMap fun spelling =>
    (spelling.find? schema).bind fun value =>
      match Predicate.ofJson? value with
      | some _ => none
      | none =>
          some ⟨pointer ++ Spelling.pointer spelling,
            .malformedCondition (Spelling.key spelling) value⟩

def undeclaredNames (pointer : Pointer) (declared : List String) (schema : Json) :
    List Diagnostic :=
  let items := ((schema.get? "required").bind Json.items?).getD []
  items.zipIdx.filterMap fun item =>
    item.1.text?.bind fun name =>
      if declared.contains name then none
      else some ⟨pointer ++ ["required", toString item.2], .undeclared name⟩

mutual
-- Findings in a schema and in the schemas within: its properties and items, which declare their
-- own names only, then its conditional parts, which may require what it declares.
def schemaFindings (pointer : Pointer) (inherited : List String) : Json → List Diagnostic
  | .object members =>
      let schema := Json.object members
      let declared := inherited ++ (Document.properties schema).keys
      unknownTypes pointer schema ++ malformedConditions pointer schema
        ++ undeclaredNames pointer declared schema
        ++ propertyFindings pointer members
        ++ findingsUnder "items" pointer [] members
        ++ listFindings "allOf" pointer declared members
        ++ listFindings "oneOf" pointer declared members
        ++ listFindings "anyOf" pointer declared members
        ++ findingsUnder "then" pointer declared members
        ++ findingsUnder "else" pointer declared members
  | _ => []

def findingsUnder (keyword : String) (pointer : Pointer) (inherited : List String) :
    List (String × Json) → List Diagnostic
  | [] => []
  | (key, value) :: members =>
      if key = keyword then schemaFindings (pointer ++ [keyword]) inherited value
      else findingsUnder keyword pointer inherited members

def listFindings (keyword : String) (pointer : Pointer) (inherited : List String) :
    List (String × Json) → List Diagnostic
  | [] => []
  | (key, value) :: members =>
      if key = keyword then itemFindings (pointer ++ [keyword]) inherited value
      else listFindings keyword pointer inherited members

def itemFindings (pointer : Pointer) (inherited : List String) : Json → List Diagnostic
  | .array items => numberedFindings pointer inherited 0 items
  | _ => []

def numberedFindings (pointer : Pointer) (inherited : List String) (index : Nat) :
    List Json → List Diagnostic
  | [] => []
  | item :: items =>
      schemaFindings (pointer ++ [toString index]) inherited item
        ++ numberedFindings pointer inherited (index + 1) items

def propertyFindings (pointer : Pointer) : List (String × Json) → List Diagnostic
  | [] => []
  | (key, value) :: members =>
      if key = "properties" then objectFindings (pointer ++ [key]) value
      else propertyFindings pointer members

def objectFindings (pointer : Pointer) : Json → List Diagnostic
  | .object members => namedFindings pointer members
  | _ => []

def namedFindings (pointer : Pointer) : List (String × Json) → List Diagnostic
  | [] => []
  | (name, value) :: members =>
      schemaFindings (pointer ++ [name]) [] value ++ namedFindings pointer members
end

def ignoredConditional (pointer : Pointer) (value : Json) : List Diagnostic :=
  match value.get? "if", value.get? "then" with
  | some test, some _ =>
      match Document.Test.ofJson? test with
      | some _ => []
      | none => [⟨pointer ++ ["if"], .ignoredConditional⟩]
  | _, _ => []

def ignoredConditionals (pointer : Pointer) (schema : Json) : List Diagnostic :=
  let entries := ((schema.get? "allOf").bind Json.items?).getD []
  (entries.zipIdx.flatMap fun entry =>
      ignoredConditional (pointer ++ ["allOf", toString entry.2]) entry.1)
    ++ ignoredConditional pointer schema

def findings (document : Json) : List Diagnostic :=
  let unwrapped := Document.unwrap document
  let pointer := unwrapped.pointer
  (if (Form.ofDocument {} document).isEmpty then [⟨pointer, .noFields⟩] else [])
    ++ ignoredConditionals pointer unwrapped.schema
    ++ schemaFindings pointer [] unwrapped.schema

end ConditionalForm.Lint
