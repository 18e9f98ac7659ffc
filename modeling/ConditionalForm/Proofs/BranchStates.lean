import ConditionalForm.Proofs.Sections
import ConditionalForm.State

set_option autoImplicit false

namespace ConditionalForm

open Document

def Markers.Unconditional (markers : Markers) : Prop :=
  markers.visibleWhen = none ∧ markers.requiredWhen = none ∧ markers.relevance = none ∧
    markers.choices = none ∧ markers.bounds = none ∧ markers.specificGroup = none

instance (markers : Markers) : Decidable markers.Unconditional :=
  inferInstanceAs (Decidable (_ ∧ _ ∧ _ ∧ _ ∧ _ ∧ _))

theorem key_at_iff (values : Snapshot) (path key : String) :
    values.keyAt path = some key ↔
      ∃ actual, values.lookup path = some actual ∧ actual.isNull = false ∧ actual.key = key := by
  rw [Snapshot.keyAt]
  cases values.lookup path with
  | none => simp
  | some actual => cases null : actual.isNull <;> simp [Option.filter, null]

theorem structural_required_iff (e : Evaluation) (trigger : String) (statuses : StatusTable) :
    (e.structural (some trigger) statuses).2 = true ↔
      ∃ key, e.values.keyAt trigger = some key ∧ statuses.get? key = some .required := by
  rw [Evaluation.structural, Evaluation.statusKey]
  cases current : e.values.keyAt trigger with
  | none => simp
  | some key =>
      cases found : statuses.get? key with
      | none => simp [found]
      | some status => simp [found, Status.isRequired]

theorem state_visible (e : Evaluation) (field : Attributes) :
    (e.state field).visible = e.visible field.markers := by
  rw [Evaluation.state]
  cases e.visible field.markers <;> rfl

theorem state_hidden (e : Evaluation) (field : Attributes) (hidden : e.visible field.markers = false) :
    e.state field = .hidden := by
  simp [Evaluation.state, hidden]

theorem state_required (e : Evaluation) (field : Attributes) (trigger : String) (statuses : StatusTable)
    (requirement : field.requirement = .byTrigger (some trigger) statuses)
    (visible : (e.state field).visible = true) :
    (e.state field).requiredNow = (e.structural (some trigger) statuses).2 := by
  have shown : e.visible field.markers = true := (state_visible e field).symm.trans visible
  simp [Evaluation.state, shown, Evaluation.required, RequirementRule.ofField, requirement]

theorem test_condition_holds (test : Test) (values : Snapshot) :
    test.condition.holds values = (values.lookup test.trigger).any fun actual =>
      Expected.accepts (match test.values with
        | [value] => .one value
        | values => .anyOf values) actual := by
  simp only [Test.condition, Condition.holds, List.all_cons, List.all_nil, Bool.and_true,
    Clause.holds]
  cases values.lookup test.trigger <;> rfl

theorem one_of_texts (s : String) (values : List Json)
    (texts : ∀ value ∈ values, ∃ t, value = .text t) :
    values.any (Json.sameValue (.text s)) = true ↔ .text s ∈ values := by
  rw [List.any_eq_true]
  constructor
  · intro found
    obtain ⟨value, member, same⟩ := found
    obtain ⟨t, rfl⟩ := texts value member
    have equal : s = t := by simpa [Json.sameValue, BEq.beq, Json.same] using same
    exact equal ▸ member
  · intro member
    exact ⟨.text s, member, by simp [Json.sameValue, BEq.beq, Json.same]⟩

-- A list of texts coerces a text to the kind of its first item, which is its own.
theorem test_accepts_text_iff (test : Test) (values : Snapshot) (s : String)
    (texts : ∀ value ∈ test.values, ∃ t, value = .text t)
    (entered : values.lookup test.trigger = some (.text s)) :
    test.condition.holds values = true ↔ .text s ∈ test.values := by
  rw [test_condition_holds, entered, Option.any_some]
  rcases listed : test.values with _ | ⟨first, others⟩
  · simp [Expected.accepts]
  · obtain ⟨t, rfl⟩ := texts first (by simp [listed])
    rw [← one_of_texts s _ (listed ▸ texts)]
    cases others with
    | nil => simp [Expected.accepts, Json.coerce]
    | cons second rest => rfl

theorem visible_with_predicate (e : Evaluation) (markers : Markers) (predicate : Predicate) :
    e.visible { markers with visibleWhen := some predicate } =
      (predicate.condition.holds e.values && e.meets markers.requiredWhen &&
        e.current.all fun current => e.applies current markers) := by
  rfl

theorem unconditional_applies (e : Evaluation) (current : String) (markers : Markers)
    (plain : markers.Unconditional) : e.applies current markers = true := by
  obtain ⟨_, _, relevance, choices, bounds, group⟩ := plain
  simp [Evaluation.applies, Evaluation.relevant, Evaluation.hasChoices, Evaluation.hasBounds,
    Evaluation.groupApplies, relevance, choices, bounds, group]

theorem unconditional_current (e : Evaluation) (markers : Markers) (plain : markers.Unconditional) :
    (e.current.all fun current => e.applies current markers) = true := by
  cases e.current with
  | none => rfl
  | some current => exact unconditional_applies e current markers plain

theorem unconditional_visible (e : Evaluation) (markers : Markers) (predicate : Predicate)
    (plain : markers.Unconditional) :
    e.visible { markers with visibleWhen := some predicate } =
      predicate.condition.holds e.values := by
  have requiredWhen : e.meets markers.requiredWhen = true := by
    rw [plain.2.1]
    rfl
  rw [visible_with_predicate, requiredWhen, unconditional_current e markers plain, Bool.and_true,
    Bool.and_true]

theorem scope_unconditional (group : Group) (test : Test) (field : Attributes)
    (kind : group.kind = .branch test) (plain : field.markers.Unconditional) :
    (group.scope field).markers =
      { field.markers with visibleWhen := some (.ofCondition test.condition) } := by
  simp only [Group.scope, kind, plain.1]

section BranchMember

variable {options : Options} {root : Json} {part : Section} {test : Test} {field : Field}

theorem branch_member_visible (e : Evaluation) (member : BranchMember options root part test field)
    (plain : ∀ definition,
      definition? (properties root) part.group.properties field.name = some definition →
        (Markers.ofDefinition definition).Unconditional) :
    e.visible field.markers = test.condition.holds e.values := by
  obtain ⟨_, definition, found, body⟩ := branch_member_attributes member
  rw [body, scope_unconditional part.group test _ member.kind (plain definition found)]
  exact unconditional_visible e _ _ (plain definition found)

theorem branch_member_required (e : Evaluation) (member : BranchMember options root part test field)
    (visible : (e.state field.toAttributes).visible = true) :
    (e.state field.toAttributes).requiredNow = true ↔ ∃ actual,
      e.values.lookup test.trigger = some actual ∧ actual.isNull = false ∧
        RequiredUnder root test.trigger actual.key field.name := by
  have requirement := branch_member_requirement member
  rw [state_required e field.toAttributes test.trigger _ requirement visible, structural_required_iff]
  simp only [key_at_iff, table_requires_iff]
  constructor
  · intro found
    obtain ⟨key, ⟨actual, entered, present, rfl⟩, required⟩ := found
    exact ⟨actual, entered, present, required⟩
  · intro found
    obtain ⟨actual, entered, present, required⟩ := found
    exact ⟨actual.key, ⟨actual, entered, present, rfl⟩, required⟩

end BranchMember

def Form.LastAt (form : Form) (field : Field) : Prop :=
  ∃ before after, form.allFields = before ++ field :: after ∧ ∀ later ∈ after, later.path ≠ field.path

theorem evaluate_last (form : Form) (field : Field) (values : Snapshot) (last : form.LastAt field) :
    (form.evaluate values).get? field.path = some (form.stateOf field values) := by
  obtain ⟨before, after, split, others⟩ := last
  have fields : Field.walkAll form.fields = before ++ field :: after := split
  rw [Form.evaluate, evaluateFields]
  simp only [fields, List.map_append, List.map_cons]
  refine SortedMap.get_of_list_last _ _ field.path _ fun entry member => ?_
  obtain ⟨later, inAfter, rfl⟩ := List.mem_map.mp member
  exact others later inAfter

theorem distinct_last_at (form : Form) (field : Field) (member : field ∈ form.allFields)
    (distinct : (form.allFields.map fun other => other.path).Nodup) : form.LastAt field := by
  obtain ⟨before, after, split⟩ := List.append_of_mem member
  rw [split, List.map_append, List.map_cons] at distinct
  obtain ⟨unseen, _⟩ := List.nodup_cons.mp (List.nodup_append.mp distinct).2.1
  refine ⟨before, after, split, fun later inAfter same => unseen ?_⟩
  rw [← same]
  exact List.mem_map_of_mem inAfter

theorem text_trigger_member_state (options : Options) (document : Json) (part : Section) (test : Test)
    (field : Field) (values : Snapshot)
    (member : BranchMember options (unwrap document).schema part test field)
    (texts : ∀ group other, IsBranch (unwrap document).schema group other →
      other.trigger = test.trigger → ∀ value ∈ other.values, ∃ t, value = .text t)
    (plain : ∀ definition,
      definition? (properties (unwrap document).schema) part.group.properties field.name =
        some definition → (Markers.ofDefinition definition).Unconditional) :
    let form := Form.ofDocument options document
    let state := form.stateOf field values
    field ∈ form.fields ∧
    (form.LastAt field → (form.evaluate values).get? field.path = some state) ∧
    (values.lookup test.trigger = none → state = .hidden) ∧
    ∀ s, values.lookup test.trigger = some (.text s) →
      (state.visible = true ↔ .text s ∈ test.values) ∧
      (state.visible = true → (state.requiredNow = true ↔ ∃ group other,
        IsBranch (unwrap document).schema group other ∧ other.trigger = test.trigger ∧
          .text s ∈ other.values ∧ field.name ∈ group.required)) := by
  intro form state
  have shown := branch_member_visible
    (Evaluation.start form.fields form.discriminatorField values) member plain
  refine ⟨branch_member_emitted document member, evaluate_last form field values, fun absent => ?_,
    fun s entered => ⟨?_, fun visible => ?_⟩⟩
  · apply state_hidden
    rw [shown, test_condition_holds]
    exact congrArg (Option.any _) absent
  · have accepted := test_accepts_text_iff test values s
      (texts part.group test (branch_member_group member) rfl) entered
    rw [← accepted]
    exact Eq.to_iff ((state_visible _ field.toAttributes).trans shown ▸ rfl)
  · refine (branch_member_required _ member visible).trans ?_
    constructor
    · intro requires
      obtain ⟨actual, found, _, group, other, branch, same, named, value, tested, key⟩ := requires
      cases entered.symm.trans found
      obtain ⟨t, rfl⟩ := texts group other branch same value tested
      cases (key : t = s)
      exact ⟨group, other, branch, same, tested, named⟩
    · intro requires
      obtain ⟨group, other, branch, same, tested, named⟩ := requires
      exact ⟨.text s, entered, rfl, group, other, branch, same, named, .text s, tested, rfl⟩

def beamDocument : Json := .object
  [("properties", .object
      [("TYPE", .object [("enum", .array [.text "BEAM", .text "TRUSS"])]),
        ("LENGTH", .object [("type", .text "number")])]),
    ("allOf", .array
      [.object
        [("if", .object [("properties", .object [("TYPE", .object [("const", .text "BEAM")])])]),
          ("then", .object [("required", .array [.text "LENGTH"])])],
        .object
        [("if", .object [("properties", .object
            [("TYPE", .object [("enum", .array [.text "TRUSS", .text "BEAM"])])])]),
          ("then", .object [("properties", .object [("LENGTH", .object [])])])]])]

theorem branch_texts (root : Json)
    (checked : ∀ group ∈ Group.branches root, ∀ test ∈ group.test?, ∀ value ∈ test.values,
      value.text?.isSome = true)
    (group : Group) (test : Test) (branch : IsBranch root group test) :
    ∀ value ∈ test.values, ∃ t, value = .text t := by
  intro value tested
  have kind : test ∈ group.test? := by simp [Group.test?, branch.2]
  have text := checked group branch.1 test kind value tested
  cases value <;> simp [Json.text?] at text ⊢

theorem shared_length_required :
    ∃ part ∈ sections {} beamDocument, ∃ field ∈ part.members, field.path = "branch_1.LENGTH" ∧
      ((Form.ofDocument {} beamDocument).stateOf field []) = .hidden ∧
      ((Form.ofDocument {} beamDocument).stateOf field [("TYPE", .text "BEAM")]).requiredNow = true := by
  have member : BranchMember {} beamDocument (sections {} beamDocument)[1]
      ⟨"TYPE", [.text "TRUSS", .text "BEAM"]⟩ (sections {} beamDocument)[1].members[0] :=
    ⟨List.getElem_mem _, rfl, List.getElem_mem _⟩
  have plain : ∀ definition, definition? (properties beamDocument)
      (sections {} beamDocument)[1].group.properties "LENGTH" = some definition →
        (Markers.ofDefinition definition).Unconditional := by
    intro definition found
    cases (rfl : some (Json.object [("type", .text "number")]) = _).trans found
    exact ⟨rfl, rfl, rfl, rfl, rfl, rfl⟩
  have states := fun values => text_trigger_member_state {} beamDocument _ _ _ values member
    (fun group other branch _ => branch_texts beamDocument (by decide +kernel) group other branch) plain
  have typed := (states [("TYPE", .text "BEAM")]).2.2.2 "BEAM" rfl
  refine ⟨_, member.compiled, _, member.emitted, by decide +kernel, (states []).2.2.1 rfl, ?_⟩
  refine (typed.2 (typed.1.mpr (by simp))).mpr ⟨(sections {} beamDocument)[0].group, ⟨"TYPE", [.text "BEAM"]⟩, ?_⟩
  exact ⟨⟨List.mem_cons_self, rfl⟩, rfl, by simp, by decide +kernel⟩

theorem visible_member_required_iff (options : Options) (document : Json) (part : Section)
    (test : Test) (field : Field) (values : Snapshot)
    (member : BranchMember options (unwrap document).schema part test field) :
    let form := Form.ofDocument options document
    let state := form.stateOf field values
    field ∈ form.fields ∧
    (form.LastAt field → (form.evaluate values).get? field.path = some state) ∧
    (state.visible = true → (state.requiredNow = true ↔ ∃ actual,
      values.lookup test.trigger = some actual ∧ actual.isNull = false ∧
        RequiredUnder (unwrap document).schema test.trigger actual.key field.name)) := by
  intro form state
  exact ⟨branch_member_emitted document member, evaluate_last form field values,
    fun visible => branch_member_required _ member visible⟩

def modeDocument : Json := .object
  [("properties", .object [("MODE", .object [("type", .text "integer")]), ("X", .object [])]),
    ("allOf", .array
      [.object
        [("if", .object [("properties", .object
            [("MODE", .object [("const", .number (.whole 1))])])]),
          ("then", .object [("required", .array [.text "X"])])]])]

theorem typed_one_required :
    ∃ part ∈ sections {} modeDocument, ∃ field ∈ part.members,
      ((Form.ofDocument {} modeDocument).stateOf field [("MODE", .text "1")]).requiredNow = true := by
  have member : BranchMember {} modeDocument (sections {} modeDocument)[0]
      ⟨"MODE", [.number (.whole 1)]⟩ (sections {} modeDocument)[0].members[0] :=
    ⟨List.getElem_mem _, rfl, List.getElem_mem _⟩
  have required := (visible_member_required_iff {} modeDocument _ _ _ [("MODE", .text "1")] member).2.2
    (by decide +kernel)
  refine ⟨_, member.compiled, _, member.emitted, required.mpr ⟨.text "1", rfl, rfl, ?_⟩⟩
  exact ⟨_, _, branch_member_group member, rfl, by decide +kernel, .number (.whole 1), by simp, rfl⟩

-- 1.0 is the tested 1 as a number, but another key.
theorem typed_fraction_visible_not_required :
    ∃ part ∈ sections {} (unwrap modeDocument).schema, part.group.test?.isSome = true ∧
      ∃ field ∈ part.members, field.name ∈ part.group.required ∧
        ((Form.ofDocument {} modeDocument).stateOf field [("MODE", .text "1.0")]).visible = true ∧
        ((Form.ofDocument {} modeDocument).stateOf field [("MODE", .text "1.0")]).requiredNow = false := by
  decide +kernel

end ConditionalForm
