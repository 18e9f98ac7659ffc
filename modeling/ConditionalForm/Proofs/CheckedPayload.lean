import ConditionalForm.Proofs.Senders
import ConditionalForm.Schema.Library

set_option autoImplicit false

namespace ConditionalForm

section Check

variable (states : StateMap) (values : Snapshot)

theorem check_ok_iff (form : Form) : form.check states values = .ok () ↔
    ∀ field ∈ form.allFields,
      field.toAttributes.issue? states (values.keyAt form.discriminatorField) values = none := by
  have decided : form.check states values = .ok () ↔ form.issues states values = [] := by
    rw [Form.check, CheckError.ofIssues]
    cases form.issues states values <;> simp
  rw [decided, Form.issues, List.filterMap_eq_nil_iff]

theorem fault_none_iff (field : Attributes) (current : Option String) (required : Bool)
    (value : Option Json) : field.fault? current required value = none ↔
      (required = true → hasValue value = true) ∧
        ∀ entered, value = some entered → entered.isFilled = true →
          field.valueFault? current entered = none := by
  rw [Attributes.fault?]
  cases value with
  | none => cases required <;> simp [hasValue]
  | some entered => cases filled : entered.isFilled <;> cases required <;> simp [hasValue, Option.filter, filled]

theorem issue_none_iff (field : Attributes) (current : Option String) (data : field.heading.isSome = false)
    (visible : (StateMap.stateAt states field.path).visible = true) :
    field.issue? states current values = none ↔
      field.fault? current (StateMap.stateAt states field.path).requiredNow (field.entered values) = none := by
  simp [Attributes.issue?, data, visible]

theorem checked_leaf_filled (field : Attributes) (current : Option String) (value : Json)
    (data : field.heading.isSome = false) (unfaulted : field.issue? states current values = none)
    (sent : field.leafEntry (StateMap.stateAt states field.path) values = some value) :
    field.entered values = some value ∧ value.isFilled = true := by
  obtain ⟨included, entry⟩ := Option.ite_none_right_eq_some.mp sent
  obtain ⟨visible, reason⟩ := Bool.and_eq_true_iff.mp included
  have checked := (fault_none_iff field current _ _).mp
    ((issue_none_iff states values field current data visible).mp unfaulted)
  have filled : hasValue (field.entered values) = true :=
    (Bool.or_eq_true_iff.mp reason).elim checked.1 id
  cases found : field.entered values with
  | none => simp [hasValue, found] at filled
  | some entered =>
      rw [found] at entry filled
      cases entry
      exact ⟨rfl, filled⟩

end Check

section SentLeaves

variable (states : StateMap) (values : Snapshot)

inductive SentLeaf : List Field → List String → Field → Prop
  | here {fields : List Field} {name : String} {leaf : Field}
      (sender : sender? states values name fields = some leaf) (whole : leaf.isGroup = false) :
      SentLeaf fields [name] leaf
  | inside {fields : List Field} {name : String} {group : Field} {names : List String} {leaf : Field}
      (sender : sender? states values name fields = some group) (outer : group.isGroup = true)
      (inner : SentLeaf group.children names leaf) : SentLeaf fields (name :: names) leaf

theorem sent_leaf_walked (fields : List Field) (names : List String) (leaf : Field)
    (sent : SentLeaf states values fields names leaf) :
    leaf ∈ Field.walkAll fields ∧ leaf.isHeading = false := by
  induction sent with
  | here sender _ =>
      obtain ⟨member, data, _⟩ := sender_cases states values _ _ _ sender
      exact ⟨(Field.mem_walk_all_iff _ _).mpr ⟨_, member, .inl rfl⟩, data⟩
  | inside sender _ _ ih =>
      obtain ⟨member, _⟩ := sender_cases states values _ _ _ sender
      exact ⟨(Field.mem_walk_all_iff _ _).mpr ⟨_, member, .inr ih.1⟩, ih.2⟩

theorem sent_leaf_iff (fields : List Field) (names : List String) (leaf : Field) :
    SentLeaf states values fields names leaf ↔
      Placed states values fields names leaf ∧ leaf.isGroup = false := by
  constructor
  · intro sent
    induction sent with
    | here sender whole => exact ⟨.here sender, whole⟩
    | inside sender outer _ ih => exact ⟨.inside sender outer ih.1, ih.2⟩
  · rintro ⟨placed, whole⟩
    induction placed with
    | here sender => exact .here sender whole
    | inside sender outer _ ih => exact .inside sender outer (ih whole)

theorem sent_leaf_entry (fields : List Field) (names : List String) (leaf : Field)
    (sent : SentLeaf states values fields names leaf) :
    ∃ value, Snapshot.descend names (.object (assemble states values [] fields)) = some value ∧
      leaf.leafEntry (StateMap.stateAt states leaf.path) values = some value := by
  obtain ⟨placed, whole⟩ := (sent_leaf_iff states values fields names leaf).mp sent
  obtain ⟨value, found, entry⟩ := placed_entry states values fields names leaf placed
  exact ⟨value, found, (entry_leaf states values leaf whole).symm.trans entry⟩

-- Objects of the payload are filled in; what is not stands within the entry of a leaf.
theorem unfilled_within_leaf (fields : List Field) (names : List String) (value : Json)
    (found : Snapshot.descend names (.object (assemble states values [] fields)) = some value)
    (unfilled : value.isFilled = false) :
    ∃ front back leaf, names = front ++ back ∧ SentLeaf states values fields front leaf := by
  have inner : names ≠ [] := by
    rintro rfl
    cases found
    cases unfilled
  obtain ⟨front, back, field, split, placed, leaf⟩ := found_placed states values fields names value inner found
  refine ⟨front, back, field, split, (sent_leaf_iff states values fields front field).mpr ⟨placed, ?_⟩⟩
  by_cases whole : back = []
  · obtain ⟨entry, here, sent⟩ := placed_entry states values fields front field placed
    rw [split, whole, List.append_nil, here] at found
    cases found
    rw [Bool.eq_false_iff]
    intro group
    rw [group_entry_body states values field group value sent] at unfilled
    cases unfilled
  · exact leaf whole

end SentLeaves

theorem checked_leaves_filled (form : Form) (states : StateMap) (values : Snapshot)
    (checked : form.check states values = .ok ()) :
    (∀ names leaf, SentLeaf states values form.fields names leaf →
      ∃ value, Snapshot.descend names (form.payload states values) = some value ∧
        leaf.entered values = some value ∧ value.isFilled = true) ∧
    ∀ names value, Snapshot.descend names (form.payload states values) = some value →
      value.isFilled = false → ∃ front back leaf, names = front ++ back ∧ back ≠ [] ∧
        SentLeaf states values form.fields front leaf := by
  have leaves (names : List String) (leaf : Field)
      (sent : SentLeaf states values form.fields names leaf) :
      ∃ value, Snapshot.descend names (form.payload states values) = some value ∧
        leaf.entered values = some value ∧ value.isFilled = true := by
    obtain ⟨member, data⟩ := sent_leaf_walked states values form.fields names leaf sent
    obtain ⟨value, placed, entry⟩ := sent_leaf_entry states values form.fields names leaf sent
    have unfaulted := (check_ok_iff states values form).mp checked leaf member
    exact ⟨value, placed, checked_leaf_filled states values leaf.toAttributes _ value data unfaulted entry⟩
  refine ⟨leaves, fun names value found unfilled => ?_⟩
  obtain ⟨front, back, leaf, split, sent⟩ :=
    unfilled_within_leaf states values form.fields names value found unfilled
  refine ⟨front, back, leaf, split, fun whole => ?_, sent⟩
  obtain ⟨entry, placed, _, filled⟩ := leaves front leaf sent
  rw [whole, List.append_nil] at split
  cases found.symm.trans (split ▸ placed)
  cases filled.symm.trans unfilled

def springForm : Form where
  fields :=
    [{ path := "SPRING", name := "SPRING", type := .object, children :=
        [{ path := "SPRING.K", name := "K", type := .number }, { path := "SPRING.TAG", name := "TAG" }] }]

def springStates : StateMap := [("SPRING.K", ⟨true, .required, true, true⟩)]

theorem spring_leaves_filled :
    let values : Snapshot :=
      [("SPRING", .object [("K", .number (.whole 0)), ("TAG", .object [("NOTE", .null)])])]
    (∃ value, Snapshot.descend ["SPRING", "K"] (springForm.payload springStates values) = some value ∧
      value.isFilled = true) ∧
    ∃ front back leaf, ["SPRING", "TAG", "NOTE"] = front ++ back ∧ back ≠ [] ∧
      SentLeaf springStates values springForm.fields front leaf := by
  intro values
  have checked : springForm.check springStates values = .ok () := rfl
  obtain ⟨leaves, rest⟩ := checked_leaves_filled springForm springStates values checked
  obtain ⟨value, placed, _, filled⟩ := leaves ["SPRING", "K"] _ (.inside rfl rfl (.here rfl rfl))
  exact ⟨⟨value, placed, filled⟩, rest ["SPRING", "TAG", "NOTE"] .null rfl rfl⟩

end ConditionalForm
