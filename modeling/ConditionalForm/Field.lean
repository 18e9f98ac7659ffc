import ConditionalForm.FieldType
import ConditionalForm.Markers
import ConditionalForm.Requirement

set_option autoImplicit false

namespace ConditionalForm

structure FieldCondition where
  triggerField : String
  values : List Json
  label : String
  requiredFields : List String
deriving Repr

structure Attributes where
  path : String
  name : String
  displayName : Option String := none
  description : Option String := none
  type : FieldType := .string
  requirement : Requirement := .fixed false
  defaultValue : Option Json := none
  allowed : List Json := []
  minimum : Option Double := none
  maximum : Option Double := none
  minItems : Option Nat := none
  maxItems : Option Nat := none
  level : Nat := 0
  heading : Option String := none
  sectionHeader : Option String := none
  optionIndex : Option Nat := none
  conditions : List FieldCondition := []
  markers : Markers := .empty
deriving Repr

structure Field extends Attributes where
  children : List Field := []
deriving Repr

namespace Field

def isHeading (field : Field) : Bool := field.heading.isSome

def isGroup (field : Field) : Bool := field.type == .object && !field.children.isEmpty

mutual
def walk : Field → List Field
  | ⟨attributes, children⟩ => ⟨attributes, children⟩ :: walkAll children

def walkAll : List Field → List Field
  | [] => []
  | field :: fields => walk field ++ walkAll fields
end

theorem walk_head (field : Field) : walk field = field :: walkAll field.children := by
  cases field
  rfl

theorem walk_all_append (before after : List Field) :
    walkAll (before ++ after) = walkAll before ++ walkAll after := by
  induction before with
  | nil => rfl
  | cons field before ih => rw [List.cons_append, walkAll, walkAll, ih, List.append_assoc]

theorem mem_walk_all_iff (field : Field) (fields : List Field) :
    field ∈ walkAll fields ↔ ∃ top ∈ fields, field = top ∨ field ∈ walkAll top.children := by
  induction fields with
  | nil => simp [walkAll]
  | cons first fields ih =>
      rw [walkAll, walk_head, List.mem_append, List.mem_cons, ih]
      simp

end Field

end ConditionalForm
