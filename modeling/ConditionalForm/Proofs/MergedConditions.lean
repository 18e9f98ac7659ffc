import ConditionalForm.Proofs.Definitions
import ConditionalForm.Proofs.RootRequired
import ConditionalForm.Proofs.SameValues
import ConditionalForm.Proofs.StatusTables

set_option autoImplicit false

namespace ConditionalForm

open Document

section Merging

variable (condition : Condition) (clause : Clause)

theorem add_well_formed (whole : condition.WellFormed) (wholeClause : clause.expected.WellFormed) :
    Condition.WellFormed ⟨Condition.add condition.clauses clause⟩ := by
  intro member listed
  by_cases repeated : condition.clauses.any (·.same clause) = true
  · rw [Condition.add, if_pos repeated] at listed
    exact whole member listed
  · rw [Condition.add, if_neg repeated] at listed
    rcases List.mem_append.mp listed with old | added
    · exact whole member old
    · rw [List.mem_singleton.mp added]
      exact wholeClause

theorem both_holds (second : Condition) (whole : condition.WellFormed) (wholeSecond : second.WellFormed)
    (values : Snapshot) :
    (condition.both second).holds values = (condition.holds values && second.holds values) := by
  obtain ⟨clauses⟩ := second
  induction clauses generalizing condition with
  | nil => simp [Condition.both, Condition.holds]
  | cons clause clauses ih =>
      obtain ⟨wholeClause, others⟩ := List.forall_mem_cons.mp wholeSecond
      have wholeFirst := add_well_formed condition clause whole wholeClause
      have merged := ih ⟨Condition.add condition.clauses clause⟩ wholeFirst others
      rw [add_holds condition clause whole, Bool.and_assoc] at merged
      exact merged

end Merging

theorem expected_well_formed (value : Json) (whole : value.WellFormed) : (Expected.ofJson value).WellFormed := by
  cases value with
  | array items => exact (Json.well_formed_items_iff items).mp whole
  | _ =>
      intro inner listed
      rw [List.mem_singleton.mp listed]
      exact whole

theorem condition_well_formed (value : Json) (whole : value.WellFormed) (condition : Condition)
    (read : Condition.ofJson? value = some condition) : condition.WellFormed := by
  cases value with
  | object members =>
      cases members with
      | nil => cases read
      | cons first others =>
          cases read
          intro clause listed
          obtain ⟨member, inMembers, rfl⟩ := List.mem_map.mp listed
          exact expected_well_formed member.2 (well_formed_hereditary.member _ whole member inMembers)
  | _ => cases read

theorem entry_condition_well_formed (entry : Json) (whole : entry.WellFormed) (condition : Condition)
    (read : Predicate.entryCondition? entry = some condition) : condition.WellFormed := by
  rw [Predicate.entryCondition?] at read
  cases found : entry.get? "condition" with
  | none =>
      rw [found] at read
      exact condition_well_formed entry whole condition read
  | some inner =>
      rw [found] at read
      have inside := hereditary_get well_formed_hereditary entry whole "condition" inner found
      exact condition_well_formed inner inside condition read

theorem predicate_well_formed (value : Json) (whole : value.WellFormed) (predicate : Predicate)
    (read : Predicate.ofJson? value = some predicate) : predicate.condition.WellFormed := by
  cases value with
  | array entries =>
      simp only [Predicate.ofJson?] at read
      split at read
      · cases read
      · rename_i first others listed
        cases read
        obtain ⟨entry, inEntries, made⟩ := List.mem_filterMap.mp (listed ▸ List.mem_cons_self)
        exact entry_condition_well_formed entry (well_formed_hereditary.item _ whole entry inEntries) first made
  | object members =>
      obtain ⟨condition, made, rfl⟩ := Option.map_eq_some_iff.mp read
      exact condition_well_formed _ whole condition made
  | _ => cases read

theorem own_condition_well_formed (definition : Json) (whole : definition.WellFormed) (predicate : Predicate)
    (read : (Markers.ofDefinition definition).visibleWhen = some predicate) : predicate.condition.WellFormed := by
  obtain ⟨spelling, _, read⟩ := List.exists_of_findSome?_eq_some read
  obtain ⟨value, found, read⟩ := Option.bind_eq_some_iff.mp read
  refine predicate_well_formed value ?_ predicate read
  cases spelling with
  | plain key => exact hereditary_get well_formed_hereditary definition whole key value found
  | nested outer key =>
      obtain ⟨container, held, inside⟩ := Option.bind_eq_some_iff.mp found
      apply hereditary_get well_formed_hereditary container _ key value inside
      exact hereditary_get well_formed_hereditary definition whole outer container held

theorem test_well_formed (test : Json) (whole : test.WellFormed) (tested : Test)
    (read : Test.ofJson? test = some tested) : tested.condition.WellFormed := by
  have values : ∀ value ∈ tested.values, value.WellFormed := by
    unfold Test.ofJson? at read
    split at read
    · rename_i trigger constraint only
      have listed : (trigger, constraint) ∈ properties test := by simp [properties, only]
      have inside := hereditary_properties well_formed_hereditary test whole _ listed
      split at read
      · rename_i value constant
        cases read
        intro inner same
        rw [List.mem_singleton.mp same]
        exact hereditary_get well_formed_hereditary constraint inside "const" value constant
      · rename_i first others _ enumerated
        cases read
        exact well_formed_hereditary.item _
          (hereditary_get well_formed_hereditary constraint inside "enum" _ enumerated)
      · cases read
    · cases read
  intro clause listed
  rw [List.mem_singleton.mp listed]
  obtain ⟨trigger, tests⟩ := tested
  rcases tests with _ | ⟨first, _ | ⟨second, others⟩⟩ <;> exact values

theorem branch_test_well_formed (root : Json) (whole : root.WellFormed) (group : Group) (test : Test)
    (branch : IsBranch root group test) : test.condition.WellFormed := by
  obtain ⟨conditional, ⟨listed, read⟩, _⟩ := branch_recognised root group test branch
  refine test_well_formed conditional.test ?_ test read
  rcases conditional_cases root conditional listed with ⟨entry, placed, inEntry⟩ | own
  · have inside := hereditary_items well_formed_hereditary root whole "allOf" entry placed
    exact hereditary_get well_formed_hereditary entry inside "if" _ inEntry.test
  · exact hereditary_get well_formed_hereditary root whole "if" _ own.test

section Visibility

variable (e : Evaluation) (group : Group)

theorem branch_visible (test : Test) (kind : group.kind = .branch test) (field : Attributes)
    (wholeTest : test.condition.WellFormed)
    (wholeOwn : ∀ predicate, field.markers.visibleWhen = some predicate → predicate.condition.WellFormed) :
    e.visible (group.scope field).markers = (test.condition.holds e.values && e.visible field.markers) := by
  simp only [Group.scope, kind]
  rw [visible_with_predicate]
  cases own : field.markers.visibleWhen with
  | none => simp [Predicate.ofCondition, Evaluation.visible, Evaluation.meets, own, Bool.and_assoc]
  | some existing =>
      have merged := both_holds existing.condition test.condition (wholeOwn existing own) wholeTest e.values
      simp only [Predicate.ofCondition, merged, Evaluation.visible, Evaluation.meets, own, Option.all_some]
      rw [Bool.and_comm (existing.condition.holds e.values), Bool.and_assoc, Bool.and_assoc, Bool.and_assoc]

theorem empty_unconditional : Markers.empty.Unconditional := ⟨rfl, rfl, rfl, rfl, rfl, rfl⟩

theorem branch_heading_visible (test : Test) (kind : group.kind = .branch test) :
    e.visible group.heading.markers = test.condition.holds e.values := by
  have marked := scope_unconditional group test
    { path := "__section_" ++ group.tag, name := "__section_" ++ group.tag,
      displayName := some group.label, heading := some group.label } kind empty_unconditional
  rw [Group.heading, marked]
  exact unconditional_visible e .empty _ empty_unconditional

theorem option_heading_visible (index : Nat) (kind : group.kind = .option index) :
    e.visible group.heading.markers = true := by
  have bare : group.heading.markers = .empty := by simp [Group.heading, Group.scope, kind]
  rw [bare]
  exact unmarked_visible e .empty empty_unconditional

theorem scope_other_markers (test : Test) (kind : group.kind = .branch test) (field : Attributes) :
    (group.scope field).markers =
      { field.markers with visibleWhen := (group.scope field).markers.visibleWhen } := by
  simp [Group.scope, kind]

end Visibility

theorem relevance_kept (before after : List Field) (field own : Field) (discriminator : String)
    (below : own.children = field.children)
    (others : field.markers = { own.markers with visibleWhen := field.markers.visibleWhen }) :
    groupRelevance (before ++ own :: after) discriminator =
      groupRelevance (before ++ field :: after) discriminator := by
  have group : own.markers.specificGroup = field.markers.specificGroup := by
    rw [others]
    rfl
  have keys : own.markers.discriminatorValues discriminator = field.markers.discriminatorValues discriminator := by
    rw [others]
    rfl
  simp only [groupRelevance, Field.walk_all_append, Field.walkAll, Field.walk_head, List.foldl_append,
    List.foldl_cons, below, group, keys]

def Field.unmerged (field : Field) (definition : Json) : Field :=
  { field with markers := Markers.ofDefinition definition }

theorem unmerged_in_place (form : Form) (values : Snapshot) (before after : List Field) (field : Field)
    (definition : Json) (split : form.fields = before ++ field :: after)
    (others : field.markers = { Markers.ofDefinition definition with visibleWhen := field.markers.visibleWhen }) :
    ({ form with fields := before ++ field.unmerged definition :: after } : Form).stateOf
      (field.unmerged definition) values = form.stateOf (field.unmerged definition) values := by
  have relevance := relevance_kept before after field (field.unmerged definition) form.discriminatorField rfl others
  rw [← split] at relevance
  exact congrArg (fun groups => Evaluation.state ⟨values, values.keyAt form.discriminatorField, groups⟩
    (field.unmerged definition).toAttributes) relevance

theorem section_field_emitted (options : Options) (document : Json) (part : Section) (field : Field)
    (compiled : part ∈ sections options (unwrap document).schema) (inPart : field ∈ part.fields) :
    field ∈ (Form.ofDocument options document).fields := by
  rw [form_fields]
  exact List.mem_append_right _ (List.mem_flatMap.mpr ⟨part, compiled, inPart⟩)

section BranchMember

variable {options : Options} {root : Json} {part : Section} {test : Test} {field : Field}
variable (member : BranchMember options root part test field) (whole : root.WellFormed)

include member whole

theorem branch_member_unmerged :
    ∃ definition, definition? (properties root) part.group.properties field.name = some definition ∧
      field.markers = { Markers.ofDefinition definition with visibleWhen := field.markers.visibleWhen } ∧
      ∀ e : Evaluation, e.visible field.markers =
        (test.condition.holds e.values && e.visible (Markers.ofDefinition definition)) := by
  obtain ⟨applies, anatomy⟩ := section_members _ _ _ _ _ part member.compiled
  obtain ⟨path, name, definition, listed, found, rfl⟩ := anatomy field member.emitted
  have defined : definition.WellFormed := defined_holds well_formed_hereditary.in_schemas root whole definition
    (.groupMember part.group name definition applies listed found)
  have wholeTest := branch_test_well_formed root whole part.group test (branch_member_group member)
  rw [member_name, member_attributes]
  refine ⟨definition, found, scope_other_markers part.group test member.kind _, fun e => ?_⟩
  apply branch_visible e part.group test member.kind _ wholeTest
  exact own_condition_well_formed definition defined

theorem branch_member_shown (form : Form) (values : Snapshot) :
    ∃ definition, definition? (properties root) part.group.properties field.name = some definition ∧
      field.markers = { Markers.ofDefinition definition with visibleWhen := field.markers.visibleWhen } ∧
      (form.stateOf field values).visible = ((form.stateOf part.group.heading values).visible &&
        (form.stateOf (field.unmerged definition) values).visible) := by
  obtain ⟨definition, found, others, visible⟩ := branch_member_unmerged member whole
  refine ⟨definition, found, others, ?_⟩
  simp only [Form.stateOf, state_visible]
  rw [visible, branch_heading_visible _ part.group test member.kind]
  rfl

end BranchMember

def Form.Evaluates (form : Form) (values : Snapshot) (field : Field) : Prop :=
  field ∈ form.fields ∧
    (form.LastAt field → (form.evaluate values).get? field.path = some (form.stateOf field values))

-- No object of a document repeats a name, as in every text that is read: else a clause might count as the same
-- as another one that does not count as the same as it.
theorem section_gates_members (options : Options) (document : Json) (part : Section) (values : Snapshot)
    (wellFormed : document.WellFormed) (compiled : part ∈ sections options (unwrap document).schema) :
    let form := Form.ofDocument options document
    let shown := fun field : Field => (form.stateOf field values).visible
    form.Evaluates values part.group.heading ∧
    ∀ field ∈ part.members,
      form.Evaluates values field ∧
      (shown field = true → shown part.group.heading = true) ∧
      ∀ test, part.group.kind = .branch test → ∃ definition,
        definition? (properties (unwrap document).schema) part.group.properties field.name = some definition ∧
        shown field = (shown part.group.heading && shown (field.unmerged definition)) ∧
        ∀ before after, form.fields = before ++ field :: after →
          ({ form with fields := before ++ field.unmerged definition :: after } : Form).stateOf
            (field.unmerged definition) values = form.stateOf (field.unmerged definition) values := by
  intro form shown
  have evaluates (field : Field) (inPart : field ∈ part.fields) : form.Evaluates values field :=
    ⟨section_field_emitted options document part field compiled inPart, evaluate_last form field values⟩
  have wholeRoot := hereditary_unwrap well_formed_hereditary document wellFormed
  refine ⟨evaluates _ List.mem_cons_self, fun field inPart => ?_⟩
  refine ⟨evaluates field (List.mem_cons_of_mem _ inPart), ?_, ?_⟩
  · intro visible
    cases kind : part.group.kind with
    | branch test =>
        obtain ⟨_, _, _, conjunction⟩ := branch_member_shown ⟨compiled, kind, inPart⟩ wholeRoot form values
        exact (Bool.and_eq_true_iff.mp (conjunction.symm.trans visible)).1
    | option index =>
        exact (state_visible _ _).trans (option_heading_visible _ part.group index kind)
  · intro test kind
    obtain ⟨definition, found, others, conjunction⟩ :=
      branch_member_shown ⟨compiled, kind, inPart⟩ wholeRoot form values
    refine ⟨definition, found, conjunction, fun before after split => ?_⟩
    exact unmerged_in_place form values before after field definition split others

def negativeZero : Json := .number (.double ⟨true, 0, Double.zero.isRepresentable⟩)

def sagDefinition : Json :=
  .object [("x-visible-when", .object [("MODE", negativeZero), ("LEVEL", .text "A")])]

def cableDocument : Json := .object
  [("properties", .object [("MODE", .object []), ("LEVEL", .object []), ("SAG", sagDefinition)]),
    ("allOf", .array
      [.object
        [("if", .object [("properties", .object
            [("MODE", .object [("const", .number (.double .zero))])])]),
          ("then", .object [("required", .array [.text "SAG"])])]])]

theorem sag_shown_with_section :
    cableDocument.WellFormed ∧ ∃ part ∈ sections {} cableDocument, ∃ field ∈ part.members,
      (field.markers.visibleWhen.map fun predicate => predicate.condition.clauses.length) = some 2 ∧
      (∀ values, ((Form.ofDocument {} cableDocument).stateOf field values).visible =
        (((Form.ofDocument {} cableDocument).stateOf part.group.heading values).visible &&
          ((Form.ofDocument {} cableDocument).stateOf (field.unmerged sagDefinition) values).visible)) ∧
      ((Form.ofDocument {} cableDocument).stateOf field [("MODE", .text "0"), ("LEVEL", .text "A")]).visible = true ∧
      ((Form.ofDocument {} cableDocument).stateOf field [("MODE", .text "0")]).visible = false := by
  have whole : cableDocument.WellFormed := by
    simp [cableDocument, sagDefinition, negativeZero, Json.WellFormed, Json.WellFormedItems, Json.WellFormedMembers,
      Members.keys]
  have compiled : (sections {} cableDocument)[0] ∈ sections {} cableDocument := List.getElem_mem _
  have inPart : (sections {} cableDocument)[0].members[0] ∈ (sections {} cableDocument)[0].members :=
    List.getElem_mem _
  refine ⟨whole, _, compiled, _, inPart, by decide +kernel, fun values => ?_, by decide +kernel, by decide +kernel⟩
  obtain ⟨_, _, member⟩ := (section_gates_members {} cableDocument _ values whole compiled).2 _ inPart
  obtain ⟨definition, found, conjunction, _⟩ := member ⟨"MODE", [.number (.double .zero)]⟩ rfl
  cases (rfl : some sagDefinition = _).trans found
  exact conjunction

end ConditionalForm
