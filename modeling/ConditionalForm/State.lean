import ConditionalForm.Form

set_option autoImplicit false

namespace ConditionalForm

structure FieldState where
  visible : Bool
  mode : Status
  requiredNow : Bool
  enabled : Bool
deriving DecidableEq, Repr

namespace FieldState

def hidden : FieldState := ⟨false, .notApplicable, false, false⟩

def unknown : FieldState := ⟨true, .optional, false, true⟩

end FieldState

abbrev StateMap := SortedMap FieldState

inductive RequirementRule where
  | structural (trigger : Option String) (statuses : StatusTable)
  | conditional (condition : Condition)
  | fixed (status : Status)
  | default

namespace RequirementRule

def ofField (field : Attributes) : RequirementRule :=
  match field.requirement, field.markers.requiredWhen with
  | .byTrigger trigger statuses, _ => .structural trigger statuses
  | _, some predicate => .conditional predicate.condition
  | .fixed true, none => .fixed .required
  | .fixed false, none => .default
  | .wildcard status, none => .fixed status

end RequirementRule

def groupRelevance (fields : List Field) (discriminator : String) : SortedMap SortedSet :=
  (Field.walkAll fields).foldl (fun groups field =>
    match field.markers.specificGroup, field.markers.discriminatorValues discriminator with
    | some _, [] => groups
    | some group, first :: others =>
        groups.insert group (SortedSet.union ((groups.get? group).getD []) (first :: others))
    | none, _ => groups) []

structure Evaluation where
  values : Snapshot
  current : Option String
  groups : SortedMap SortedSet

namespace Evaluation

def start (fields : List Field) (discriminator : String) (values : Snapshot) : Evaluation :=
  { values := values
    current := values.keyAt discriminator
    groups := groupRelevance fields discriminator }

def meets (e : Evaluation) (predicate : Option Predicate) : Bool :=
  predicate.all fun p => p.condition.holds e.values

def relevant (current : String) (relevance : Option Members) : Bool :=
  relevance.all fun map =>
    match Members.find? current map with
    | none => false
    | some status => !(status == .bool false)

def hasChoices (current : String) (choices : Option Members) : Bool :=
  choices.all fun map => map.contains current

def hasBounds (current : String) (bounds : Option Members) : Bool :=
  bounds.all fun map => map.isEmpty || map.contains current

def groupApplies (e : Evaluation) (current : String) (group : Option String) : Bool :=
  (group.bind fun name => e.groups.get? name).all fun allowed =>
    allowed.isEmpty || allowed.contains current

def applies (e : Evaluation) (current : String) (markers : Markers) : Bool :=
  relevant current markers.relevance && hasChoices current markers.choices
    && hasBounds current markers.bounds && e.groupApplies current markers.specificGroup

def visible (e : Evaluation) (markers : Markers) : Bool :=
  e.meets markers.visibleWhen && e.meets markers.requiredWhen
    && e.current.all fun current => e.applies current markers

-- Key by which a status table is read: that of the trigger, or the first value that is a key.
def statusKey (e : Evaluation) (trigger : Option String) (statuses : StatusTable) :
    Option String :=
  match trigger with
  | some trigger => e.values.keyAt trigger
  | none => (e.values.map fun entry => entry.2.key).find? fun key => statuses.contains key

-- A table with several statuses is conditional; an unresolved trigger never requires.
def structural (e : Evaluation) (trigger : Option String) (statuses : StatusTable) :
    Status × Bool :=
  match (e.statusKey trigger statuses).bind statuses.get? with
  | none => (.conditional, false)
  | some status =>
      let mode : Status :=
        if !statuses.isUniform then .conditional
        else if status.isRequired then .required
        else .optional
      (mode, status.isRequired)

def required (e : Evaluation) (field : Attributes) : Status × Bool :=
  match RequirementRule.ofField field with
  | .structural trigger statuses => e.structural trigger statuses
  | .conditional condition => (.conditional, condition.holds e.values)
  | .fixed status => (status, status.isRequired)
  | .default => (.optional, false)

def state (e : Evaluation) (field : Attributes) : FieldState :=
  if e.visible field.markers then
    let required := e.required field
    ⟨true, required.1, required.2, true⟩
  else .hidden

end Evaluation

-- States of fields and of all fields below them; of fields with one path the last one counts.
def evaluateFields (fields : List Field) (discriminator : String) (values : Snapshot) : StateMap :=
  let e := Evaluation.start fields discriminator values
  SortedMap.ofList ((Field.walkAll fields).map fun field => (field.path, e.state field.toAttributes))

namespace Form

def evaluate (form : Form) (values : Snapshot) : StateMap :=
  evaluateFields form.fields form.discriminatorField values

def stateOf (form : Form) (field : Field) (values : Snapshot) : FieldState :=
  (Evaluation.start form.fields form.discriminatorField values).state field.toAttributes

end Form

end ConditionalForm
