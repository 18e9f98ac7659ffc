import ConditionalForm.Form
import ConditionalForm.Json.Build

set_option autoImplicit false

namespace ConditionalForm

def Expected.toJson : Expected → Json
  | .one value => value
  | .anyOf values => .array values

def Clause.toJson (clause : Clause) : Json :=
  .object [("field", .text clause.field), ("expected", clause.expected.toJson)]

def Condition.toJson (condition : Condition) : Json :=
  .array (condition.clauses.map Clause.toJson)

def Predicate.toJson (predicate : Predicate) : Json :=
  .object [("condition", predicate.condition.toJson), ("label", .text predicate.label)]

def Markers.toJson (markers : Markers) : Json :=
  Json.ofEntries
    [("label", markers.label.map .text),
      ("group", markers.group.map .text),
      ("hint", markers.hint.map .text),
      ("sectionHeader", markers.sectionHeader.map .text),
      ("visibleWhen", markers.visibleWhen.map Predicate.toJson),
      ("requiredWhen", markers.requiredWhen.map Predicate.toJson),
      ("optionalWhen", markers.optionalWhen.map Predicate.toJson),
      ("relevance", markers.relevance.map .object),
      ("enumByDiscriminator", markers.choices.map .object),
      ("bounds", markers.bounds.map .object),
      ("enumLabels", markers.choiceLabels.map .object)]

def Status.toJson (status : Status) : Json := .text status.render

def StatusTable.toJson (statuses : StatusTable) : Json :=
  .object (statuses.map fun entry => (entry.1, entry.2.toJson))

def Requirement.toJson : Requirement → Json
  | .fixed required => .object [("kind", .text "static"), ("required", .bool required)]
  | .wildcard status => .object [("kind", .text "wildcard"), ("status", status.toJson)]
  | .byTrigger trigger statuses =>
      Json.ofEntries
        [("kind", some (.text "by-discriminator")),
          ("trigger", trigger.map .text),
          ("statuses", some (StatusTable.toJson statuses))]

def FieldCondition.toJson (condition : FieldCondition) : Json :=
  .object
    [("triggerField", .text condition.triggerField),
      ("values", .array condition.values),
      ("label", .text condition.label),
      ("requiredFields", Json.ofTexts condition.requiredFields)]

def Attributes.toJson (field : Attributes) (children : List Json) : Json :=
  Json.ofEntries
    [("path", some (.text field.path)),
      ("name", some (.text field.name)),
      ("displayName", field.displayName.map .text),
      ("description", field.description.map .text),
      ("type", some (.text field.type.tag)),
      ("required", some field.requirement.toJson),
      ("default", field.defaultValue),
      ("enum", Json.someItems field.allowed),
      ("minimum", field.minimum.map Json.ofDouble),
      ("maximum", field.maximum.map Json.ofDouble),
      ("minItems", field.minItems.map Json.ofNat),
      ("maxItems", field.maxItems.map Json.ofNat),
      ("level", some (Json.ofNat field.level)),
      ("children", Json.someItems children),
      ("section", field.heading.map .text),
      ("sectionHeader", field.sectionHeader.map .text),
      ("optionIndex", field.optionIndex.map Json.ofNat),
      ("conditions", Json.someItems (field.conditions.map FieldCondition.toJson)),
      ("markers", if field.markers.isEmpty then none else some field.markers.toJson)]

mutual
def Field.toJson : Field → Json
  | ⟨attributes, children⟩ => attributes.toJson (fieldsToJson children)

def fieldsToJson : List Field → List Json
  | [] => []
  | field :: fields => field.toJson :: fieldsToJson fields
end

def Form.toJson (form : Form) : Json :=
  Json.ofEntries
    [("title", form.title.map .text),
      ("argumentKey", form.argumentKey.map .text),
      ("discriminator", form.discriminator.map .text),
      ("fields", some (.array (fieldsToJson form.fields)))]

end ConditionalForm
