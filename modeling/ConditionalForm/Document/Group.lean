import ConditionalForm.Document.Conditional
import ConditionalForm.Field

set_option autoImplicit false

namespace ConditionalForm.Document

inductive GroupKind where
  | branch (test : Test)
  | option (index : Nat)
deriving Repr

structure Group where
  tag : String
  label : String
  kind : GroupKind
  required : List String
  properties : Members

def memberNames (required : List String) (properties : Members) : List String :=
  required ++ properties.keys.filter fun name => !required.contains name

def overlaid (base own : Option Json) : Option Json :=
  match base, own with
  | some (.object base), some (.object own) => some (.object (Members.overlay base own))
  | _, some own => some own
  | some base, none => some base
  | none, none => none

def definition? (root own : Members) (name : String) : Option Json :=
  overlaid (Members.find? name root) (Members.find? name own)

def properties (schema : Json) : Members := ((schema.get? "properties").bind Json.members?).getD []

def requiredNames (schema : Json) : List String := Json.textItems (schema.get? "required")

namespace Group

def members (group : Group) : List String := memberNames group.required group.properties

def definitions (root : Members) (group : Group) : List (String × Json) :=
  group.members.filterMap fun name => (definition? root group.properties name).map (name, ·)

def ofConditional (index : Nat) (conditional : Conditional) (test : Test) : Group :=
  { tag := "branch_" ++ toString index
    label := (conditional.title.or
      ((conditional.consequence.get? "x-section-header").bind Json.text?)).getD test.condition.label
    kind := .branch test
    required := requiredNames conditional.consequence
    properties := Document.properties conditional.consequence }

def branches (root : Json) : List Group :=
  let recognised := (conditionals root).filterMap fun conditional =>
    (Test.ofJson? conditional.test).map (conditional, ·)
  recognised.zipIdx.map fun entry => ofConditional entry.2 entry.1.1 entry.1.2

def firstHeader (root own : Members) (names : List String) : Option String :=
  (names.head?.bind (definition? root own)).bind fun definition =>
    (Markers.ofDefinition definition).sectionHeader

def ofAlternative (root : Members) (index : Nat) (alternative : Json) : Group :=
  let required := requiredNames alternative
  let own := Document.properties alternative
  let names := memberNames required own
  { tag := match names with
      | [] => "option_" ++ toString index
      | first :: _ => "option_" ++ toString index ++ "_" ++ first
    label := ((firstHeader root own names).or
      ((alternative.get? "title").bind Json.text?)).getD ("Option " ++ toString (index + 1))
    kind := .option index
    required := required
    properties := own }

def alternatives (root : Json) : List Json :=
  (((root.get? "oneOf").or (root.get? "anyOf")).bind Json.items?).getD []

-- Groups of the alternatives that are objects; the others count in the numbering only.
def options (root : Json) : List Group :=
  (alternatives root).zipIdx.filterMap fun entry =>
    entry.1.members?.map fun _ => ofAlternative (Document.properties root) entry.2 entry.1

def all (root : Json) : List Group := branches root ++ options root

def condition (group : Group) : FieldCondition :=
  match group.kind with
  | .branch test => ⟨test.trigger, test.values, group.label, group.required⟩
  | .option _ => ⟨group.tag, [], group.label, group.required⟩

def scope (group : Group) (field : Attributes) : Attributes :=
  let conditions := field.conditions ++ [group.condition]
  match group.kind with
  | .branch test =>
      let whole := match field.markers.visibleWhen with
        | some existing => existing.condition.both test.condition
        | none => test.condition
      { field with
        conditions := conditions
        markers := { field.markers with visibleWhen := some (Predicate.ofCondition whole) } }
  | .option index => { field with conditions := conditions, optionIndex := some index }

def heading (group : Group) : Field :=
  let path := "__section_" ++ group.tag
  { group.scope
      { path := path, name := path, displayName := some group.label, heading := some group.label }
    with children := [] }

end Group

end ConditionalForm.Document
