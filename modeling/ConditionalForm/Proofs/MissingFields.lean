import ConditionalForm.InitialValues
import ConditionalForm.Proofs.CheckedPayload
import ConditionalForm.Proofs.PayloadContent
import ConditionalForm.Proofs.SharedObjects

set_option autoImplicit false

namespace ConditionalForm

open Document

namespace Attributes

theorem value_fault_present (field : Attributes) (current : Option String) (value : Json) :
    field.valueFault? current value ≠ some .missing := by
  have type : field.typeFault? value ≠ some .missing := by
    rw [typeFault?]
    split <;> exact nofun
  have choice : field.choiceFault? value ≠ some .missing := by
    rw [choiceFault?]
    split <;> exact nofun
  have currentChoice : field.currentChoiceFault? current value ≠ some .missing := by
    intro found
    obtain ⟨_, _, found⟩ := Option.bind_eq_some_iff.mp found
    obtain ⟨_, _, found⟩ := Option.bind_eq_some_iff.mp found
    obtain ⟨_, _, found⟩ := Option.bind_eq_some_iff.mp found
    split at found <;> cases found
  have count : field.countFault? value ≠ some .missing := by
    intro found
    cases value with
    | array items => simp [countFault?, Option.or_eq_some_iff] at found
    | _ => cases found
  have bound : field.boundFault? value ≠ some .missing := by
    intro found
    rw [boundFault?] at found
    split at found
    · split at found
      · simp [Option.or_eq_some_iff] at found
      · cases found
    · cases found
  intro found
  simp only [valueFault?, Option.or_eq_some_iff] at found
  rcases found with own | ⟨_, own | ⟨_, own | ⟨_, own | ⟨_, own⟩⟩⟩⟩
  · exact type own
  · exact choice own
  · exact currentChoice own
  · exact count own
  · exact bound own

theorem fault_missing_iff (field : Attributes) (current : Option String) (required : Bool)
    (value : Option Json) : field.fault? current required value = some .missing ↔
      required = true ∧ hasValue value = false := by
  have present (entered : Json) := value_fault_present field current entered
  rw [fault?]
  cases value with
  | none => cases required <;> simp [hasValue]
  | some entered =>
      cases filled : entered.isFilled <;> cases required <;>
        simp [hasValue, Option.filter, filled, present]

end Attributes

namespace Form

def faults (form : Form) (states : StateMap) (values : Snapshot) : List (Field × Fault) :=
  form.allFields.filterMap fun field =>
    let state := StateMap.stateAt states field.path
    if field.heading.isSome || !state.visible then none
    else
      (field.fault? (values.keyAt form.discriminatorField) state.requiredNow
        (field.entered values)).map (field, ·)

def report (found : Field × Fault) : Issue := ⟨found.1.path, found.2.message found.1.label⟩

def Misses (form : Form) (states : StateMap) (values : Snapshot) (field : Field) : Prop :=
  (field, Fault.missing) ∈ form.faults states values

theorem issues_faults (form : Form) (states : StateMap) (values : Snapshot) :
    form.issues states values = (form.faults states values).map report := by
  rw [issues, faults, List.map_filterMap]
  congr 1
  funext field
  dsimp only [Attributes.issue?]
  by_cases quiet : (field.heading.isSome || !(StateMap.stateAt states field.path).visible) = true
  · rw [if_pos quiet, if_pos quiet]
    rfl
  · rw [if_neg quiet, if_neg quiet, Option.map_map]
    rfl

theorem missed_iff (form : Form) (states : StateMap) (values : Snapshot) (field : Field)
    (member : field ∈ form.allFields) (data : field.isHeading = false) :
    form.Misses states values field ↔ Shown states field ∧
      (StateMap.stateAt states field.path).requiredNow = true ∧ hasValue (field.entered values) = false := by
  rw [← Attributes.fault_missing_iff field.toAttributes (values.keyAt form.discriminatorField)]
  constructor
  · intro missed
    obtain ⟨other, _, found⟩ := List.mem_filterMap.mp missed
    dsimp only at found
    split at found
    · cases found
    · rename_i checked
      obtain ⟨fault, own, same⟩ := Option.map_eq_some_iff.mp found
      cases same
      have visible : (StateMap.stateAt states field.path).visible = true := by
        simpa using (not_or.mp (mt Bool.or_eq_true_iff.mpr checked)).2
      exact ⟨visible, own⟩
  · intro ⟨shown, own⟩
    refine List.mem_filterMap.mpr ⟨field, member, ?_⟩
    have visible : (StateMap.stateAt states field.path).visible = true := shown
    rw [Field.isHeading] at data
    dsimp only
    rw [data, visible, own]
    rfl

end Form

namespace Document

theorem path_below_joined (parent path name : String) (below : PathBelow parent "." path name) :
    ∃ rest, path = parent ++ "." ++ rest := by
  rcases below with rfl | ⟨index, rfl⟩
  · exact ⟨name, rfl⟩
  · refine ⟨"option_" ++ toString index ++ "." ++ name, String.toList_injective ?_⟩
    simp

-- The induction is on the depth that is left for the objects further down.
theorem reached_below_object (depth level : Nat) (path : String) (property : Property)
    (object : FieldType.ofDefinition property.definition = .object) (chain : List Field) (field : Field)
    (reached : Reached (build depth level path property).children chain field) :
    ∃ rest, field.path = path ++ "." ++ rest := by
  induction depth generalizing level path property chain with
  | zero => cases reached <;> contradiction
  | succ depth ih =>
      cases reached with
      | top member data =>
          exact path_below_joined _ _ _ (object_child_path _ _ _ property field object member data)
      | @inside _ outer _ _ member data group inner =>
          have place := object_child_path _ _ _ property outer object member data
          obtain ⟨entry, _, rfl⟩ := List.mem_map.mp member
          cases entry with
          | heading path label optionIndex => cases data
          | property own below =>
              have type := congrArg Attributes.type (build_attributes depth (level + 1) own below)
              have belowObject : FieldType.ofDefinition below.definition = .object :=
                type.symm.trans (beq_iff_eq.mp (Bool.and_eq_true_iff.mp group).1)
              obtain ⟨rest, joined⟩ := path_below_joined _ _ _ place
              obtain ⟨more, further⟩ := ih (level + 1) own below belowObject _ inner
              dsimp only at joined
              rw [build_path] at joined
              refine ⟨rest ++ "." ++ more, ?_⟩
              rw [further, joined]
              simp only [String.append_assoc]

theorem reached_below_group (options : Options) (root : Json) (group : Field)
    (member : group ∈ fields options root) (data : group.isHeading = false) (outer : group.isGroup = true)
    (chain : List Field) (field : Field) (reached : Reached group.children chain field) :
    ∃ rest, field.path = group.path ++ "." ++ rest := by
  obtain ⟨property, _, built⟩ := top_field_built anything_hereditary.in_schemas options root trivial group member data
  rw [built.children] at reached
  exact reached_below_object options.maxDepth 0 group.path property
    (group_object group options.maxDepth property built outer) chain field reached

end Document

theorem sent_leaf_reached (states : StateMap) (values : Snapshot) (fields : List Field)
    (names : List String) (leaf : Field) (sent : SentLeaf states values fields names leaf) :
    ∃ chain, Reached fields chain leaf := by
  induction sent with
  | here sender _ =>
      obtain ⟨member, data, _⟩ := sender_cases states values _ _ _ sender
      exact ⟨[], .top member data⟩
  | inside sender outer _ ih =>
      obtain ⟨member, data, _⟩ := sender_cases states values _ _ _ sender
      obtain ⟨chain, inner⟩ := ih
      exact ⟨_, .inside member data outer inner⟩

theorem unfilled_leads_nowhere (values : Snapshot) (outer : Attributes) (rest : String)
    (unfilled : hasValue (outer.entered values) = false)
    (own : '.' ∉ outer.path.toList ∨ Members.find? outer.path values = none) :
    Snapshot.descend (Snapshot.segments (outer.path ++ "." ++ rest)) (.object values) = none := by
  cases found : Snapshot.descend (Snapshot.segments (outer.path ++ "." ++ rest)) (.object values) with
  | none => rfl
  | some inner =>
      rw [Snapshot.segments_join, Snapshot.descend_append] at found
      obtain ⟨value, reached, below⟩ := Option.bind_eq_some_iff.mp found
      obtain ⟨members, rfl⟩ := Snapshot.descend_through rest value inner below
      have held : values.lookup outer.path = some (.object members) := by
        rcases own with whole | absent
        · rw [Snapshot.segments_whole outer.path whole] at reached
          obtain ⟨entry, held, same⟩ := Option.bind_eq_some_iff.mp reached
          cases same
          rwa [Snapshot.lookup_whole values outer.path whole]
        · rw [Snapshot.lookup, absent]
          exact reached
      rw [Attributes.entered, held] at unfilled
      cases unfilled

-- The value was not found on the way down from an object: it stands under the path as it is, or under
-- the bare name, or there is none.
def Attributes.EnteredApart (field : Attributes) (values : Snapshot) (value : Json) : Prop :=
  Members.find? field.path values = some value ∨
    values.lookup field.path = none ∧ (values.lookup field.name).getD .null = value

theorem leaf_entry_apart (states : StateMap) (values : Snapshot) (leaf : Attributes) (value : Json)
    (entry : leaf.leafEntry (StateMap.stateAt states leaf.path) values = some value)
    (nowhere : Snapshot.descend (Snapshot.segments leaf.path) (.object values) = none) :
    leaf.EnteredApart values value := by
  obtain ⟨_, sent⟩ := Option.ite_none_right_eq_some.mp entry
  rw [Attributes.entered] at sent
  have path := Snapshot.lookup_held_only values leaf.path nowhere
  rw [path] at sent
  cases held : Members.find? leaf.path values with
  | some own =>
      rw [held] at sent
      exact .inl (held.trans sent)
  | none =>
      rw [held] at sent
      exact .inr ⟨path.trans held, Option.some.inj sent⟩

theorem assembled_object_missed_iff (options : Options) (document : Json) (states : StateMap)
    (values : Snapshot) (group : Field) (body : Members)
    (distinct : DistinctSiblings (Form.ofDocument options document).fields)
    (member : group ∈ (Form.ofDocument options document).fields) (data : group.isHeading = false)
    (outer : group.isGroup = true)
    (assembled : (Form.ofDocument options document).entryAt states values [group] = some (.object body)) :
    let form := Form.ofDocument options document
    form.issues states values = (form.faults states values).map Form.report ∧
    (form.Misses states values group ↔
      (StateMap.stateAt states group.path).requiredNow = true ∧ hasValue (group.entered values) = false) ∧
    (form.Misses states values group →
      ('.' ∉ group.path.toList ∨ Members.find? group.path values = none) →
        ∀ names leaf, SentLeaf states values group.children names leaf →
          ∃ value, Snapshot.descend names (.object body) = some value ∧ leaf.EnteredApart values value) := by
  intro form
  have entry := (form.entry_at_reached states values distinct [] group (.top member data)).symm.trans assembled
  rw [if_pos nofun] at entry
  have walked : group ∈ form.allFields := (Field.mem_walk_all_iff _ _).mpr ⟨group, member, .inl rfl⟩
  have shown : Shown states group := entry_shown states values group _ entry
  have decided := (form.missed_iff states values group walked data).trans (and_iff_right shown)
  refine ⟨form.issues_faults states values, decided, fun missed own names leaf sent => ?_⟩
  obtain ⟨chain, reached⟩ := sent_leaf_reached states values _ names leaf sent
  rw [form_fields] at member
  obtain ⟨rest, below⟩ := reached_below_group options _ group member data outer chain leaf reached
  obtain ⟨value, placed, leafEntry⟩ := sent_leaf_entry states values group.children names leaf sent
  refine ⟨value, ?_, leaf_entry_apart states values leaf.toAttributes value leafEntry ?_⟩
  · rw [group_entry_body states values group outer _ entry, placed]
  · rw [below]
    exact unfilled_leads_nowhere values group.toAttributes rest (decided.mp missed).2 own

def frameDocument : Json := .object
  [("properties", .object
      [("FRAME", .object
          [("type", .text "object"),
            ("properties", .object
              [("SPAN", .object [("type", .text "number"), ("default", .number (.whole 1))])])])]),
    ("required", .array [.text "FRAME"])]

def frameForm : Form := Form.ofDocument {} frameDocument

def nestedSpan : Snapshot := [("FRAME", .object [("SPAN", .number (.whole 1))])]

def dottedSpan : Snapshot := [("FRAME.SPAN", .number (.whole 1))]

theorem nested_frame_found :
    ¬ frameForm.Misses (frameForm.evaluate nestedSpan) nestedSpan frameForm.fields[0] ∧
      ∃ value, Snapshot.descend ["SPAN"] (.object [("SPAN", .number (.whole 1))]) = some value ∧
        frameForm.fields[0].children[0].EnteredApart dottedSpan value := by
  have distinct : DistinctSiblings frameForm.fields := by decide +kernel
  obtain ⟨_, nested, _⟩ := assembled_object_missed_iff {} frameDocument (frameForm.evaluate nestedSpan) nestedSpan
    frameForm.fields[0] [("SPAN", .number (.whole 1))] distinct (List.getElem_mem _) rfl rfl rfl
  obtain ⟨_, dotted, apart⟩ := assembled_object_missed_iff {} frameDocument (frameForm.evaluate dottedSpan) dottedSpan
    frameForm.fields[0] [("SPAN", .number (.whole 1))] distinct (List.getElem_mem _) rfl rfl rfl
  refine ⟨fun missed => ?_, ?_⟩
  · cases (nested.mp missed).2
  · exact apart (dotted.mpr ⟨rfl, rfl⟩) (.inl (by decide)) ["SPAN"] _ (.here rfl rfl)

theorem dotted_frame_missed :
    initialValues frameForm.fields = dottedSpan ∧
      ∃ group ∈ frameForm.fields, DistinctSiblings frameForm.fields ∧ group.isHeading = false ∧
        group.isGroup = true ∧ Shown (frameForm.evaluate dottedSpan) group ∧
        frameForm.entryAt (frameForm.evaluate dottedSpan) dottedSpan [group] =
          some (.object [("SPAN", .number (.whole 1))]) ∧
        frameForm.Misses (frameForm.evaluate dottedSpan) dottedSpan group ∧
        frameForm.check (frameForm.evaluate dottedSpan) dottedSpan =
          .error (.invalid [⟨"FRAME", "FRAME is required"⟩]) := by
  have missed := (frameForm.missed_iff (frameForm.evaluate dottedSpan) dottedSpan frameForm.fields[0]
    ((Field.mem_walk_all_iff _ _).mpr ⟨_, List.getElem_mem _, .inl rfl⟩) rfl).mpr ⟨rfl, rfl, rfl⟩
  exact ⟨rfl, frameForm.fields[0], List.getElem_mem _, by decide +kernel, rfl, rfl, rfl, rfl, missed, rfl⟩

end ConditionalForm
