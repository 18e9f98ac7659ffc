import ConditionalForm.Proofs.Batches
import ConditionalForm.Proofs.CheckedPayload
import ConditionalForm.Proofs.LookUps
import ConditionalForm.Proofs.RootRequired

set_option autoImplicit false

namespace ConditionalForm

open Document

namespace Attributes

structure Accepts (field : Attributes) (value : Json) : Prop where
  type : field.typeFault? value = none
  choice : field.choiceFault? value = none
  count : field.countFault? value = none
  bound : field.boundFault? value = none

instance (field : Attributes) (value : Json) : Decidable (field.Accepts value) :=
  decidable_of_iff (field.typeFault? value = none ∧ field.choiceFault? value = none ∧
      field.countFault? value = none ∧ field.boundFault? value = none)
    ⟨fun checks => ⟨checks.1, checks.2.1, checks.2.2.1, checks.2.2.2⟩,
      fun accepted => ⟨accepted.type, accepted.choice, accepted.count, accepted.bound⟩⟩

def Passes (field : Attributes) (values : Snapshot) : Prop :=
  ∀ value, field.entered values = some value → value.isFilled = true → field.Accepts value

def Given (field : Attributes) (values : Snapshot) : Prop :=
  ∃ value, field.entered values = some value ∧ value.isFilled = true ∧ field.Accepts value

instance (field : Attributes) (values : Snapshot) : Decidable (field.Given values) :=
  decidable_of_iff (∃ value ∈ field.entered values, value.isFilled = true ∧ field.Accepts value) Iff.rfl

instance (field : Attributes) (values : Snapshot) : Decidable (field.Passes values) :=
  decidable_of_iff (∀ value ∈ field.entered values, value.isFilled = true → field.Accepts value) Iff.rfl

theorem given_passes (field : Attributes) (values : Snapshot) (given : field.Given values) :
    hasValue (field.entered values) = true ∧ field.Passes values := by
  obtain ⟨value, entered, filled, accepted⟩ := given
  rw [Passes, entered]
  exact ⟨filled, fun other same _ => Option.some.inj same ▸ accepted⟩

theorem value_fault_none_iff (field : Attributes) (current : Option String) (value : Json)
    (unlisted : field.markers.choices = none) :
    field.valueFault? current value = none ↔ field.Accepts value := by
  have unlimited : field.currentChoiceFault? current value = none := by
    cases current <;> simp [currentChoiceFault?, unlisted]
  simp only [valueFault?, unlimited, Option.or_eq_none_iff]
  constructor
  · intro checks
    exact ⟨checks.1, checks.2.1, checks.2.2.2.1, checks.2.2.2.2⟩
  · intro accepted
    exact ⟨accepted.type, accepted.choice, trivial, accepted.count, accepted.bound⟩

end Attributes

def Requirement.Settled (requirement : Requirement) : Prop :=
  (∃ required, requirement = .fixed required) ∨ ∃ status, requirement = .wildcard status

theorem settled_required (e : Evaluation) (field : Attributes) (unmarked : field.markers.requiredWhen = none)
    (settled : field.requirement.Settled) :
    (e.required field).2 = field.requirement.isAlwaysRequired := by
  rcases settled with ⟨required, requirement⟩ | ⟨status, requirement⟩
  · rw [fixed_required e field required unmarked requirement, requirement]
    rfl
  · rw [wildcard_required e field status unmarked requirement, requirement]
    rfl

theorem state_at_last (form : Form) (field : Field) (values : Snapshot) (last : form.LastAt field) :
    StateMap.stateAt (form.evaluate values) field.path = form.stateOf field values := by
  rw [StateMap.stateAt, evaluate_last form field values last]
  rfl

theorem settled_issue_iff (form : Form) (field : Field) (values : Snapshot) (current : Option String)
    (last : form.LastAt field) (data : field.isHeading = false) (plain : field.markers.Unconditional)
    (settled : field.requirement.Settled) :
    field.toAttributes.issue? (form.evaluate values) current values = none ↔
      (field.requirement.isAlwaysRequired = true → hasValue (field.entered values) = true) ∧
        field.toAttributes.Passes values := by
  have state := state_at_last form field values last
  obtain ⟨visible, required⟩ := unmarked_state
    (Evaluation.start form.fields form.discriminatorField values) field.toAttributes plain
  rw [settled_required _ _ plain.2.1 settled] at required
  rw [issue_none_iff _ values field.toAttributes current data (state ▸ visible), fault_none_iff, state]
  refine and_congr (by rw [← required]; rfl) (forall_congr' fun value => ?_)
  exact imp_congr_right fun _ => imp_congr_right fun _ =>
    Attributes.value_fault_none_iff field.toAttributes current value plain.2.2.2.1

namespace Document

theorem sections_bare (root : Members) (groups : List Group) (depth : Nat) (claimed : List String)
    (rest : List Group) (distinct : (groupedNames rest).Nodup)
    (free : ∀ name ∈ groupedNames rest, name ∉ claimed) :
    ∀ part ∈ sectionsFrom root groups depth claimed rest, ∀ field ∈ part.members,
      field.path = field.name := by
  induction rest generalizing claimed with
  | nil => exact nofun
  | cons group others ih =>
      obtain ⟨own, later, apart⟩ := List.nodup_append.mp distinct
      have names := batch_names root group
      have paths : claimPaths id (fun name => group.tag ++ "." ++ name) claimed
          ((group.definitions root).map Prod.fst) = (group.definitions root).map Prod.fst := by
        rw [claim_paths_free id _ claimed _ (by simpa [Group.batch] using own.sublist names), List.map_id]
        exact fun name member => free name (List.mem_append_left _ (names.subset member))
      intro part emitted field member
      rcases List.mem_cons.mp emitted with rfl | after
      · obtain ⟨entry, paired, rfl⟩ := List.mem_map.mp member
        rw [paths, ← List.map_prod_left_eq_zip] at paired
        obtain ⟨_, _, rfl⟩ := List.mem_map.mp paired
        rw [group_field_path, member_name]
      · rw [paths] at after
        refine ih _ later (fun name inOthers taken => ?_) part after field member
        rcases List.mem_append.mp taken with here | before
        · exact apart name (names.subset here) name inOthers rfl
        · exact free name (List.mem_append_right _ inOthers) before

-- No name is a member of two alternatives, so that every member has the plain path.
theorem alternative_member_bare (options : Options) (root : Json)
    (distinct : (groupedNames (Group.all root)).Nodup) (part : Section)
    (emitted : part ∈ sections options root) : ∀ field ∈ part.members, field.path = field.name := by
  refine sections_bare _ _ _ _ _ distinct (fun name grouped common => ?_) part emitted
  obtain ⟨property, kept, rfl⟩ := List.mem_map.mp common
  exact absurd grouped (by simpa using (List.mem_filter.mp kept).2)

theorem unbranched_kind (root : Json) (unbranched : Group.branches root = []) (group : Group)
    (member : group ∈ Group.all root) : group ∈ Group.options root ∧ ∃ index, group.kind = .option index := by
  rw [Group.all, unbranched, List.nil_append] at member
  obtain ⟨index, _, _, made⟩ := mem_options root group member
  exact ⟨member, index, by rw [made]; rfl⟩

theorem below_settled (field : Attributes) (inner : BelowProperty field) : field.requirement.Settled := by
  cases inner with
  | heading level path label optionIndex => exact .inl ⟨false, rfl⟩
  | property level path property settled => exact settled

theorem nested_below (options : Options) (root : Json) (top : Field) (member : top ∈ fields options root) :
    ∀ field ∈ Field.walkAll top.children, BelowProperty field.toAttributes := by
  rcases top_field_cases options root top member with common | ⟨part, emitted, rfl | own⟩
  · obtain ⟨property, _, rfl⟩ := List.mem_map.mp common
    exact build_below _ _ _ _
  · exact nofun
  · obtain ⟨path, name, definition, _, _, rfl⟩ := (section_members _ _ _ _ _ part emitted).2 top own
    exact build_below _ _ _ _

inductive TopField (options : Options) (root : Json) (field : Field) : Prop
  | common (ungrouped : field.name ∉ groupedNames (Group.all root))
      (requirement : field.requirement = .fixed ((requiredNames root).contains field.name))
  | member (part : Section) (emitted : part ∈ sections options root)
      (option : part.group ∈ Group.options root) (defined :
        (definition? (properties root) part.group.properties field.name).isSome = true)
      (requirement : field.requirement =
        .wildcard (if part.group.required.contains field.name then .required else .optional))

theorem top_field (options : Options) (root : Json) (unbranched : Group.branches root = [])
    (field : Field) (member : field ∈ fields options root) (data : field.isHeading = false) :
    TopField options root field := by
  rcases data_field_cases options root field member data with common | ⟨part, emitted, own⟩
  · obtain ⟨property, kept, rfl⟩ := List.mem_map.mp common
    have ungrouped := (List.mem_filter.mp kept).2
    rw [Bool.not_eq_true', List.contains_eq_mem, decide_eq_false_iff_not] at ungrouped
    have made := build_attributes options.maxDepth 0 property.1
      ⟨property.1, property.2, .fixed ((requiredNames root).contains property.1), none⟩
    refine .common ?_ ?_
    · rw [made]
      exact ungrouped
    · rw [made]
      rfl
  · obtain ⟨option, index, kind⟩ := unbranched_kind root unbranched part.group
      (section_members _ _ _ _ _ part emitted).1
    obtain ⟨path, definition, found, body⟩ :=
      option_member_attributes options root part index field emitted kind own
    exact .member part emitted option (by rw [found]; rfl)
      ((congrArg Attributes.requirement body).trans (scope_requirement part.group _))

theorem top_field_settled {options : Options} {root : Json} {field : Field}
    (source : TopField options root field) : field.requirement.Settled := by
  cases source with
  | common _ requirement => exact .inl ⟨_, requirement⟩
  | member _ _ _ _ requirement => exact .inr ⟨_, requirement⟩

def Awaited (root : Json) (chosen : Group) (name : String) : Prop :=
  name ∈ chosen.required ∨ name ∈ requiredNames root ∧ name ∉ groupedNames (Group.all root)

instance (root : Json) (chosen : Group) (name : String) : Decidable (Awaited root chosen name) :=
  inferInstanceAs (Decidable (_ ∨ _ ∧ _))

end Document

-- What has been entered follows the chosen alternative: all that is awaited is given, and the members
-- of the other alternatives are left empty.
structure Completion (options : Options) (document : Json) (chosen : Group) (values : Snapshot) :
    Prop where
  unbranched : Group.branches (unwrap document).schema = []
  distinct : (groupedNames (Group.all (unwrap document).schema)).Nodup
  unmarked : ∀ field ∈ (Form.ofDocument options document).allFields, field.markers.Unconditional
  option : chosen ∈ Group.options (unwrap document).schema
  given : ∀ field ∈ (Form.ofDocument options document).fields, field.isHeading = false →
    Awaited (unwrap document).schema chosen field.name → field.Given values
  absent : ∀ other ∈ Group.options (unwrap document).schema, other ≠ chosen →
    ∀ name ∈ other.members, values.lookup name = none

theorem completion_of_two (options : Options) (document : Json) (chosen other : Group) (values : Snapshot)
    (two : Group.options (unwrap document).schema = [chosen, other])
    (unbranched : Group.branches (unwrap document).schema = [])
    (distinct : (groupedNames (Group.all (unwrap document).schema)).Nodup)
    (unmarked : ∀ field ∈ (Form.ofDocument options document).allFields, field.markers.Unconditional)
    (given : ∀ field ∈ (Form.ofDocument options document).fields, field.isHeading = false →
      Awaited (unwrap document).schema chosen field.name → field.Given values)
    (absent : ∀ name ∈ other.members, '.' ∉ name.toList ∧ Members.find? name values = none) :
    Completion options document chosen values := by
  refine ⟨unbranched, distinct, unmarked, two ▸ List.mem_cons_self, given, fun group member different => ?_⟩
  rw [two] at member
  rcases List.mem_cons.mp member with same | second
  · exact absurd same different
  · intro name inMembers
    rw [List.mem_singleton.mp second] at inMembers
    obtain ⟨whole, unentered⟩ := absent name inMembers
    rw [Snapshot.lookup_whole values name whole, unentered]

section Completion

variable {options : Options} {document : Json} {chosen : Group} {values : Snapshot}

theorem required_top_field (field : Field)
    (source : TopField options (unwrap document).schema field)
    (required : field.requirement.isAlwaysRequired = true) :
    Awaited (unwrap document).schema chosen field.name ∨
      ∃ other ∈ Group.options (unwrap document).schema, other ≠ chosen ∧ field.name ∈ other.required ∧
        (definition? (properties (unwrap document).schema) other.properties field.name).isSome = true := by
  cases source with
  | common ungrouped requirement =>
      rw [requirement] at required
      exact .inl (.inr ⟨List.contains_iff_mem.mp required, ungrouped⟩)
  | member part emitted option defined requirement =>
      have listed : field.name ∈ part.group.required := by
        rw [requirement] at required
        by_cases listed : field.name ∈ part.group.required
        · exact listed
        · simp [listed, Requirement.isAlwaysRequired, Status.isRequired] at required
      by_cases same : part.group = chosen
      · exact .inl (.inl (same ▸ listed))
      · exact .inr ⟨part.group, option, same, listed, defined⟩

theorem unchosen_field (completion : Completion options document chosen values) (other : Group)
    (member : other ∈ Group.options (unwrap document).schema) (different : other ≠ chosen) (name : String)
    (listed : name ∈ other.required) (definition : Json)
    (found : definition? (properties (unwrap document).schema) other.properties name = some definition) :
    ∃ field ∈ (Form.ofDocument options document).fields, field.isHeading = false ∧ field.name = name ∧
      field.requirement = .wildcard .required ∧ field.entered values = none := by
  have inAll : other ∈ Group.all (unwrap document).schema := List.mem_append_right _ member
  have inMembers : name ∈ other.members := List.mem_append_left _ listed
  have defined : (name, definition) ∈ other.definitions (properties (unwrap document).schema) :=
    List.mem_filterMap.mpr ⟨name, inMembers, by rw [found]; rfl⟩
  obtain ⟨part, emitted, rfl, field, built, named⟩ :=
    defined_member_emitted options _ other inAll name definition defined
  obtain ⟨_, index, kind⟩ := unbranched_kind _ completion.unbranched part.group inAll
  obtain ⟨_, _, _, body⟩ := option_member_attributes options _ part index field emitted kind built
  have bare := alternative_member_bare options _ completion.distinct part emitted field built
  refine ⟨field, (form_fields options document).symm ▸ member_emitted options _ part field emitted built,
    ?_, named, ?_, ?_⟩
  · rw [Field.isHeading, body, scope_heading]
    rfl
  · have requirement := (congrArg Attributes.requirement body).trans (scope_requirement part.group _)
    rw [named] at requirement
    simpa [attributes, listed] using requirement
  · rw [Attributes.entered, bare, named, completion.absent part.group member different name inMembers]
    rfl

theorem completed_issue_iff (completion : Completion options document chosen values)
    (paths : ((Form.ofDocument options document).allFields.map fun field => field.path).Nodup)
    (current : Option String) (field : Field) (member : field ∈ (Form.ofDocument options document).allFields)
    (data : field.isHeading = false) (settled : field.requirement.Settled) :
    field.toAttributes.issue? ((Form.ofDocument options document).evaluate values) current values = none ↔
      (field.requirement.isAlwaysRequired = true → hasValue (field.entered values) = true) ∧
        field.toAttributes.Passes values :=
  settled_issue_iff _ field values current (distinct_last_at _ field member paths) data
    (completion.unmarked field member) settled

theorem form_top_field (completion : Completion options document chosen values) (field : Field)
    (member : field ∈ (Form.ofDocument options document).fields) (data : field.isHeading = false) :
    TopField options (unwrap document).schema field := by
  rw [form_fields] at member
  exact top_field options _ completion.unbranched field member data

theorem form_nested_settled (top : Field) (member : top ∈ (Form.ofDocument options document).fields)
    (field : Field) (inside : field ∈ Field.walkAll top.children) : field.requirement.Settled := by
  rw [form_fields] at member
  exact below_settled _ (nested_below options _ top member field inside)

end Completion

theorem completion_accepted_iff (options : Options) (document : Json) (chosen : Group) (values : Snapshot)
    (completion : Completion options document chosen values)
    (paths : ((Form.ofDocument options document).allFields.map fun field => field.path).Nodup) :
    let root := (unwrap document).schema
    let form := Form.ofDocument options document
    form.check (form.evaluate values) values = .ok () ↔
      (∀ other ∈ Group.options root, other ≠ chosen → ∀ name ∈ other.required,
        definition? (properties root) other.properties name = none) ∧
      (∀ field ∈ form.fields, field.isHeading = false → ¬ Awaited root chosen field.name →
        field.toAttributes.Passes values) ∧
      ∀ top ∈ form.fields, ∀ field ∈ Field.walkAll top.children, field.isHeading = false →
        (field.requirement.isAlwaysRequired = true → hasValue (field.entered values) = true) ∧
          field.toAttributes.Passes values := by
  intro root form
  have decided := completed_issue_iff completion paths (values.keyAt form.discriminatorField)
  have topWalked (field : Field) (member : field ∈ form.fields) : field ∈ form.allFields :=
    (Field.mem_walk_all_iff _ _).mpr ⟨field, member, .inl rfl⟩
  have nestedWalked (top field : Field) (member : top ∈ form.fields)
      (inside : field ∈ Field.walkAll top.children) : field ∈ form.allFields :=
    (Field.mem_walk_all_iff _ _).mpr ⟨top, member, .inr inside⟩
  rw [check_ok_iff]
  constructor
  · intro unfaulted
    refine ⟨fun other member different name listed => ?_, fun field member data _ => ?_,
      fun top member field inside data => ?_⟩
    · cases found : definition? (properties root) other.properties name with
      | none => rfl
      | some definition =>
          obtain ⟨field, inFields, data, _, required, empty⟩ :=
            unchosen_field completion other member different name listed definition found
          have checked := (decided field (topWalked field inFields) data (.inr ⟨_, required⟩)).mp
            (unfaulted field (topWalked field inFields))
          have filled := checked.1 (by rw [required]; rfl)
          rw [empty] at filled
          cases filled
    · have settled := top_field_settled (form_top_field completion field member data)
      exact ((decided field (topWalked field member) data settled).mp
        (unfaulted field (topWalked field member))).2
    · have walked := nestedWalked top field member inside
      exact (decided field walked data (form_nested_settled top member field inside)).mp
        (unfaulted field walked)
  · intro whole field walked
    obtain ⟨unneeded, kept, nested⟩ := whole
    cases data : field.isHeading with
    | true => simp [Attributes.issue?, show field.heading.isSome = true from data]
    | false =>
        obtain ⟨top, member, rfl | inside⟩ := (Field.mem_walk_all_iff _ _).mp walked
        · have source := form_top_field completion field member data
          refine (decided field walked data (top_field_settled source)).mpr ?_
          by_cases awaited : Awaited root chosen field.name
          · have given := Attributes.given_passes _ _ (completion.given field member data awaited)
            exact ⟨fun _ => given.1, given.2⟩
          · refine ⟨fun required => ?_, kept field member data awaited⟩
            rcases required_top_field field source required with named | ⟨other, option, different, listed, held⟩
            · exact absurd named awaited
            · rw [unneeded other option different field.name listed] at held
              cases held
        · exact (decided field walked data (form_nested_settled top member field inside)).mpr
            (nested top member field inside data)

def nodeDocument (second : Json) : Json := .object
  [("properties", .object
      [("NAME", .object [("type", .text "string")]),
        ("NODE_ID", .object [("type", .text "integer")]),
        ("COORD", .object [("type", .text "array"),
          ("items", .object [("type", .text "number")])])]),
    ("oneOf", .array [.object [("required", .array [.text "NODE_ID"])], second])]

def optionalCoordinates : Json := .object [("properties", .object [("COORD", .object [])])]

def requiredCoordinates : Json := .object [("required", .array [.text "COORD"])]

theorem numbered_node_accepted :
    let form := Form.ofDocument {} (nodeDocument optionalCoordinates)
    let values : Snapshot := [("NODE_ID", .number (.whole 3))]
    form.check (form.evaluate values) values = .ok () := by
  intro form values
  have completion : Completion {} (nodeDocument optionalCoordinates)
      (Group.options (nodeDocument optionalCoordinates))[0] values :=
    completion_of_two _ _ _ (Group.options (nodeDocument optionalCoordinates))[1] _ rfl rfl
      (by decide +kernel) (by decide +kernel) (by decide +kernel) (by decide +kernel)
  refine (completion_accepted_iff {} _ _ values completion (by decide +kernel)).mpr ⟨?_, ?_, ?_⟩
  · intro other member different name listed
    rcases List.mem_cons.mp member with same | second
    · exact absurd same different
    · cases List.mem_singleton.mp second
      cases listed
  · decide +kernel
  · decide +kernel

theorem numbered_node_rejected :
    let form := Form.ofDocument {} (nodeDocument requiredCoordinates)
    let values : Snapshot := [("NODE_ID", .number (.whole 3))]
    Completion {} (nodeDocument requiredCoordinates)
        (Group.options (nodeDocument requiredCoordinates))[0] values ∧
      (form.allFields.map fun field => field.path).Nodup ∧
      form.check (form.evaluate values) values =
        .error (.invalid [⟨"COORD", "COORD is required"⟩]) :=
  ⟨completion_of_two _ _ _ (Group.options (nodeDocument requiredCoordinates))[1] _ rfl rfl
    (by decide +kernel) (by decide +kernel) (by decide +kernel) (by decide +kernel),
    by decide +kernel, rfl⟩

end ConditionalForm
