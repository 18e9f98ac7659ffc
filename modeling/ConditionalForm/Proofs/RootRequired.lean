import ConditionalForm.Proofs.BranchStates
import ConditionalForm.Proofs.BuiltFields
import ConditionalForm.Proofs.ClaimedPaths
import ConditionalForm.Proofs.WellFormed

set_option autoImplicit false

namespace ConditionalForm

open Document

namespace Document

def Unmarked (root : Json) (name : String) : Prop :=
  (∀ definition, (name, definition) ∈ properties root → (Markers.ofDefinition definition).Unconditional) ∧
    ∀ group ∈ Group.all root, ∀ definition,
      definition? (properties root) group.properties name = some definition →
        (Markers.ofDefinition definition).Unconditional

structure RootRequired (root : Json) (name : String) : Prop where
  declared : name ∈ (properties root).keys
  required : name ∈ requiredNames root
  unmarked : Unmarked root name

inductive RequiredBy (root : Json) (name : String) (values : Snapshot) : Prop
  | ungrouped (common : name ∉ groupedNames (Group.all root))
  | option (group : Group) (member : group ∈ Group.options root) (required : name ∈ group.required)
  | branch (group : Group) (test : Test) (branch : IsBranch root group test)
      (member : name ∈ group.members) (applies : test.condition.holds values = true) (actual : Json)
      (entered : values.lookup test.trigger = some actual) (present : actual.isNull = false)
      (required : RequiredUnder root test.trigger actual.key name)

theorem overlaid_some (base own : Option Json) : (overlaid base own).isSome = (base.isSome || own.isSome) := by
  cases base with
  | none => cases own <;> rfl
  | some value =>
      cases own with
      | none => cases value <;> rfl
      | some other => cases value <;> cases other <;> rfl

theorem definition_some_iff (root own : Members) (name : String) :
    (definition? root own name).isSome = true ↔ name ∈ root.keys ∨ name ∈ own.keys := by
  have held (members : Members) : (Members.find? name members).isSome = true ↔ name ∈ members.keys := by
    rw [Option.isSome_iff_ne_none, Ne, Members.find_none_iff, Classical.not_not]
  rw [definition?, overlaid_some, Bool.or_eq_true, held, held]

theorem member_defined (root : Members) (group : Group) (name : String) (member : name ∈ group.members)
    (declared : name ∈ root.keys ∨ name ∈ group.properties.keys) :
    ∃ definition, (name, definition) ∈ group.definitions root := by
  have defined := (definition_some_iff root group.properties name).mpr declared
  obtain ⟨definition, defined⟩ := Option.isSome_iff_exists.mp defined
  exact ⟨definition, List.mem_filterMap.mpr ⟨name, member, by rw [defined]; rfl⟩⟩

theorem section_of_group (root : Members) (groups : List Group) (depth : Nat) (claimed : List String)
    (rest : List Group) (group : Group) (member : group ∈ rest) :
    ∃ part ∈ sectionsFrom root groups depth claimed rest, part.group = group ∧
      ∀ name definition, (name, definition) ∈ group.definitions root →
        ∃ path, group.field root groups depth path name definition ∈ part.members := by
  induction rest generalizing claimed with
  | nil => cases member
  | cons first others ih =>
      rcases List.mem_cons.mp member with rfl | later
      · refine ⟨_, List.mem_cons_self, rfl, fun name definition defined => ?_⟩
        -- There are as many paths as definitions, so that none is left without a field.
        have count := claim_paths_length id (fun name => group.tag ++ "." ++ name) claimed
          ((group.definitions root).map Prod.fst)
        rw [List.length_map] at count
        rw [← List.map_fst_zip (Nat.le_of_eq count.symm)] at defined
        obtain ⟨⟨_, path⟩, paired, rfl⟩ := List.mem_map.mp defined
        exact ⟨path, List.mem_map.mpr ⟨_, paired, rfl⟩⟩
      · obtain ⟨part, emitted, same, fields⟩ := ih _ later
        exact ⟨part, List.mem_cons_of_mem _ emitted, same, fields⟩

theorem defined_member_emitted (options : Options) (root : Json) (group : Group)
    (inAll : group ∈ Group.all root) (name : String) (definition : Json)
    (defined : (name, definition) ∈ group.definitions (properties root)) :
    ∃ part ∈ sections options root, part.group = group ∧ ∃ field ∈ part.members, field.name = name := by
  obtain ⟨part, emitted, same, members⟩ := section_of_group (properties root) (Group.all root)
    options.maxDepth (commonProperties root (Group.all root)).keys _ group inAll
  obtain ⟨path, built⟩ := members name definition defined
  exact ⟨part, emitted, same, _, built, member_name _ _ _ _ path name definition⟩

end Document

section Evaluation

variable (e : Evaluation)

theorem unmarked_visible (markers : Markers) (plain : markers.Unconditional) : e.visible markers = true := by
  rw [Evaluation.visible, plain.1, plain.2.1, unconditional_current e markers plain]
  rfl

theorem unmarked_state (field : Attributes) (plain : field.markers.Unconditional) :
    (e.state field).visible = true ∧ (e.state field).requiredNow = (e.required field).2 := by
  simp [Evaluation.state, unmarked_visible e field.markers plain]

theorem fixed_required (field : Attributes) (required : Bool) (unmarked : field.markers.requiredWhen = none)
    (requirement : field.requirement = .fixed required) : (e.required field).2 = required := by
  cases required <;>
    simp [Evaluation.required, RequirementRule.ofField, requirement, unmarked, Status.isRequired]

theorem wildcard_required (field : Attributes) (status : Status)
    (unmarked : field.markers.requiredWhen = none) (requirement : field.requirement = .wildcard status) :
    (e.required field).2 = status.isRequired := by
  simp [Evaluation.required, RequirementRule.ofField, requirement, unmarked]

theorem required_rule (field : Attributes) (required : (e.state field).requiredNow = true) :
    (e.required field).2 = true := by
  rw [Evaluation.state] at required
  split at required
  · exact required
  · cases required

theorem heading_not_required (group : Group) : (e.state group.heading.toAttributes).requiredNow = false := by
  have unmarked : group.heading.markers.requiredWhen = none := scope_required_when group _
  have unneeded := fixed_required e group.heading.toAttributes false unmarked (scope_requirement group _)
  cases required : (e.state group.heading.toAttributes).requiredNow with
  | false => rfl
  | true => exact (required_rule e _ required).symm.trans unneeded

theorem required_not_heading (root : Json) (field : Attributes) (compiled : Compiled root field)
    (required : (e.state field).requiredNow = true) : field.heading = none := by
  cases compiled with
  | common path property => rfl
  | heading group => cases (heading_not_required e group).symm.trans required
  | groupMember group path name definition => exact scope_heading group _
  | below field inner =>
      cases inner with
      | heading level path label optionIndex => cases required_rule e _ required
      | property level path property settled => rfl

theorem option_member_state (options : Options) (root : Json) (part : Section) (index : Nat)
    (field : Field) (emitted : part ∈ sections options root) (kind : part.group.kind = .option index)
    (member : field ∈ part.members) (plain : ∀ definition,
      definition? (properties root) part.group.properties field.name = some definition →
        (Markers.ofDefinition definition).Unconditional) :
    (e.state field.toAttributes).visible = true ∧
      ((e.state field.toAttributes).requiredNow = true ↔ field.name ∈ part.group.required) := by
  obtain ⟨path, definition, found, body⟩ :=
    option_member_attributes options root part index field emitted kind member
  have markers : field.markers = Markers.ofDefinition definition := by
    rw [body, Group.scope, kind]
    rfl
  have requirement : field.requirement =
      .wildcard (if part.group.required.contains field.name then .required else .optional) :=
    (congrArg Attributes.requirement body).trans (scope_requirement part.group _)
  have unmarked : field.markers.Unconditional := markers ▸ plain definition found
  obtain ⟨visible, required⟩ := unmarked_state e field.toAttributes unmarked
  refine ⟨visible, ?_⟩
  rw [required, wildcard_required e field.toAttributes _ unmarked.2.1 requirement]
  by_cases listed : field.name ∈ part.group.required <;> simp [listed, Status.isRequired]

end Evaluation

def Evaluation.Requires (e : Evaluation) (fields : List Field) (name : String) : Prop :=
  ∃ field ∈ fields, field.name = name ∧
    (e.state field.toAttributes).visible = true ∧ (e.state field.toAttributes).requiredNow = true

section RootRequired

variable {root : Json} {name : String} (e : Evaluation) (options : Options)

theorem ungrouped_required (rule : RootRequired root name)
    (common : name ∉ groupedNames (Group.all root)) : e.Requires (fields options root) name := by
  obtain ⟨⟨_, definition⟩, declared, rfl⟩ := List.mem_map.mp rule.declared
  have kept : (_, definition) ∈ commonProperties root (Group.all root) :=
    List.mem_filter.mpr ⟨declared, by simpa using common⟩
  refine ⟨_, List.mem_append_left _ (List.mem_map_of_mem kept), ?_⟩
  rw [build_attributes]
  have plain := rule.unmarked.1 definition declared
  obtain ⟨visible, required⟩ := unmarked_state e (attributes 0 _ ⟨_, definition, _, none⟩) plain
  refine ⟨rfl, visible, ?_⟩
  rw [required, fixed_required e _ _ plain.2.1 rfl]
  exact List.contains_iff_mem.mpr rule.required

theorem group_member_emitted (rule : RootRequired root name) (group : Group)
    (inAll : group ∈ Group.all root) (member : name ∈ group.members) :
    ∃ part ∈ sections options root, part.group = group ∧ ∃ field ∈ part.members, field.name = name := by
  obtain ⟨definition, defined⟩ := member_defined _ group name member (.inl rule.declared)
  exact defined_member_emitted options root group inAll name definition defined

theorem option_required (rule : RootRequired root name) (group : Group)
    (member : group ∈ Group.options root) (listed : name ∈ group.required) :
    e.Requires (fields options root) name := by
  have inAll : group ∈ Group.all root := List.mem_append_right _ member
  obtain ⟨part, emitted, rfl, field, built, rfl⟩ :=
    group_member_emitted options rule group inAll (List.mem_append_left _ listed)
  obtain ⟨index, _, _, made⟩ := mem_options root part.group member
  have kind : part.group.kind = .option index := by
    rw [made]
    rfl
  have state := option_member_state e options root part index field emitted kind built
    (rule.unmarked.2 part.group inAll)
  exact ⟨field, member_emitted options root part field emitted built, rfl, state.1, state.2.mpr listed⟩

theorem branch_required (rule : RootRequired root name) (group : Group) (test : Test)
    (branch : IsBranch root group test) (member : name ∈ group.members)
    (applies : test.condition.holds e.values = true) (actual : Json)
    (entered : e.values.lookup test.trigger = some actual) (present : actual.isNull = false)
    (required : RequiredUnder root test.trigger actual.key name) :
    e.Requires (fields options root) name := by
  have inAll : group ∈ Group.all root := List.mem_append_left _ branch.1
  obtain ⟨part, emitted, rfl, field, built, rfl⟩ :=
    group_member_emitted options rule group inAll member
  have place : BranchMember options root part test field := ⟨emitted, branch.2, built⟩
  have shown := branch_member_visible e place (rule.unmarked.2 part.group inAll)
  have visible := (state_visible e field.toAttributes).trans (shown.trans applies)
  refine ⟨field, member_emitted options root part field emitted built, rfl, visible, ?_⟩
  exact (branch_member_required e place visible).mpr ⟨actual, entered, present, required⟩

theorem requires_only (rule : RootRequired root name) (required : e.Requires (fields options root) name) :
    RequiredBy root name e.values := by
  obtain ⟨field, inFields, rfl, visible, required⟩ := required
  rcases top_field_cases options root field inFields with common | ⟨part, emitted, rfl | member⟩
  · obtain ⟨property, kept, rfl⟩ := List.mem_map.mp common
    have ungrouped : property.1 ∉ groupedNames (Group.all root) := by
      simpa using (List.mem_filter.mp kept).2
    rw [build_attributes]
    exact .ungrouped ungrouped
  · cases (heading_not_required e part.group).symm.trans required
  · obtain ⟨inAll, anatomy⟩ := section_members _ _ _ _ _ part emitted
    have plain := rule.unmarked.2 part.group inAll
    cases kind : part.group.kind with
    | branch test =>
        have place : BranchMember options root part test field := ⟨emitted, kind, member⟩
        have applies := (branch_member_visible e place plain).symm.trans
          ((state_visible e field.toAttributes).symm.trans visible)
        obtain ⟨actual, entered, present, under⟩ := (branch_member_required e place visible).mp required
        obtain ⟨path, name, definition, listed, _, made⟩ := anatomy field member
        have named : field.name = name := made ▸ member_name _ _ _ _ path name definition
        exact .branch part.group test (branch_member_group place) (named ▸ listed) applies actual entered
          present under
    | option index =>
        have state := option_member_state e options root part index field emitted kind member plain
        exact .option part.group (mem_all_option root part.group index inAll kind) (state.2.mp required)

theorem requires_iff (rule : RootRequired root name) :
    e.Requires (fields options root) name ↔ RequiredBy root name e.values := by
  constructor
  · exact requires_only e options rule
  · intro required
    cases required with
    | ungrouped common => exact ungrouped_required e options rule common
    | option group member listed => exact option_required e options rule group member listed
    | branch group test branch member applies actual entered present under =>
        exact branch_required e options rule group test branch member applies actual entered present under

end RootRequired

theorem required_contained (form : Form) (states : StateMap) (values : Snapshot) (field : Field)
    (member : field ∈ form.fields) (data : field.isHeading = false)
    (visible : (StateMap.stateAt states field.path).visible = true)
    (required : (StateMap.stateAt states field.path).requiredNow = true) :
    ∃ value, (form.payload states values).get? field.name = some value := by
  have sent := required_entry_sent states values field visible required
  have held := (assemble_contains_iff states values field.name form.fields).mpr
    ⟨field, member, data, rfl, sent⟩
  exact Option.isSome_iff_exists.mp held

theorem root_required_iff (options : Options) (document : Json) (name : String) (values : Snapshot)
    (rule : RootRequired (unwrap document).schema name) :
    let form := Form.ofDocument options document
    ((∃ field ∈ form.fields, field.name = name ∧ (form.stateOf field values).visible = true ∧
        (form.stateOf field values).requiredNow = true) ↔
      RequiredBy (unwrap document).schema name values) ∧
    ∀ field ∈ form.fields, field.name = name → form.LastAt field →
      (form.evaluate values).get? field.path = some (form.stateOf field values) ∧
      ((form.stateOf field values).visible = true → (form.stateOf field values).requiredNow = true →
        ∃ value, (form.payload (form.evaluate values) values).get? name = some value) := by
  intro form
  have made : form.fields = fields options (unwrap document).schema := form_fields options document
  constructor
  · have decided := requires_iff (Evaluation.start form.fields form.discriminatorField values) options rule
    rw [← made] at decided
    exact decided
  · intro field member named last
    have kept := evaluate_last form field values last
    have state : StateMap.stateAt (form.evaluate values) field.path = form.stateOf field values := by
      rw [StateMap.stateAt, kept]
      rfl
    refine ⟨kept, fun visible required => ?_⟩
    have walked : field ∈ form.allFields := (Field.mem_walk_all_iff _ _).mpr ⟨field, member, .inl rfl⟩
    have compiled := form_compiled options document field walked
    have plain := required_not_heading _ _ field.toAttributes compiled required
    have data : field.isHeading = false := by
      rw [Field.isHeading, plain]
      rfl
    subst named
    exact required_contained form _ values field member data (state ▸ visible) (state ▸ required)

def spanDocument : Json := .object
  [("properties", .object
      [("TYPE", .object [("type", .text "string"), ("enum", .array [.text "BEAM", .text "TRUSS"])]),
        ("SPAN", .object [("type", .text "number")])]),
    ("required", .array [.text "TYPE", .text "SPAN"]),
    ("allOf", .array
      [.object
        [("if", .object [("properties", .object [("TYPE", .object [("const", .text "BEAM")])])]),
          ("then", .object [("required", .array [.text "SPAN"])])]])]

def spanForm : Form := Form.ofDocument {} spanDocument

theorem span_root_required : RootRequired (unwrap spanDocument).schema "SPAN" := by
  have plain : (Markers.ofDefinition (.object [("type", .text "number")])).Unconditional :=
    ⟨rfl, rfl, rfl, rfl, rfl, rfl⟩
  refine ⟨by decide +kernel, by decide +kernel, fun definition declared => ?_,
    fun group inAll definition found => ?_⟩
  · rcases List.mem_cons.mp declared with first | second
    · have renamed : "SPAN" = "TYPE" := congrArg Prod.fst first
      exact absurd renamed (by decide)
    · cases List.mem_singleton.mp second
      exact plain
  · cases List.mem_singleton.mp inAll
    cases (rfl : some (Json.object [("type", .text "number")]) = _).trans found
    exact plain

theorem span_of_beam_sent : ∃ value,
    (spanForm.payload (spanForm.evaluate [("TYPE", .text "BEAM")]) [("TYPE", .text "BEAM")]).get? "SPAN" =
      some value := by
  have rule := root_required_iff {} spanDocument "SPAN" [("TYPE", .text "BEAM")] span_root_required
  have branch : RequiredBy (unwrap spanDocument).schema "SPAN" [("TYPE", .text "BEAM")] :=
    .branch (Group.all spanDocument)[0] ⟨"TYPE", [.text "BEAM"]⟩ ⟨List.mem_cons_self, rfl⟩
      (by decide +kernel) (by decide +kernel) (.text "BEAM") rfl rfl
      ⟨_, _, ⟨List.mem_cons_self, rfl⟩, rfl, by decide +kernel, .text "BEAM", List.mem_cons_self, rfl⟩
  obtain ⟨field, member, named, visible, required⟩ := rule.1.mpr branch
  have walked : field ∈ spanForm.allFields := (Field.mem_walk_all_iff _ _).mpr ⟨field, member, .inl rfl⟩
  have last := distinct_last_at spanForm field walked (by decide +kernel)
  exact (rule.2 field member named last).2 visible required

theorem span_of_truss_missing :
    RootRequired (unwrap spanDocument).schema "SPAN" ∧
      (∀ field ∈ spanForm.fields, field.name = "SPAN" →
        StateMap.stateAt (spanForm.evaluate [("TYPE", .text "TRUSS")]) field.path = .hidden) ∧
      spanForm.payload (spanForm.evaluate [("TYPE", .text "TRUSS")]) [("TYPE", .text "TRUSS")] =
        .object [("TYPE", .text "TRUSS")] :=
  ⟨span_root_required, by decide +kernel, rfl⟩

end ConditionalForm
