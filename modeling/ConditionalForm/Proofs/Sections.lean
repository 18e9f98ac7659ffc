import ConditionalForm.Document.Compile

set_option autoImplicit false

namespace ConditionalForm.Document

def IsBranch (root : Json) (group : Group) (test : Test) : Prop :=
  group ∈ Group.branches root ∧ group.kind = .branch test

def RequiredUnder (root : Json) (trigger key name : String) : Prop :=
  ∃ group test, IsBranch root group test ∧ test.trigger = trigger ∧ name ∈ group.required ∧
    ∃ value ∈ test.values, value.key = key

theorem properties_cases (schema : Json) :
    properties schema = [] ∨ schema.get? "properties" = some (.object (properties schema)) := by
  rw [properties]
  cases schema.get? "properties" with
  | none => exact .inl rfl
  | some value =>
      cases value with
      | object members => exact .inr rfl
      | _ => exact .inl rfl

theorem items_cases (keyword : String) (schema : Json) :
    ((schema.get? keyword).bind Json.items?).getD [] = [] ∨
      schema.get? keyword = some (.array (((schema.get? keyword).bind Json.items?).getD [])) := by
  cases schema.get? keyword with
  | none => exact .inl rfl
  | some value =>
      cases value with
      | array items => exact .inr rfl
      | _ => exact .inl rfl

def entries (root : Json) : List Json := ((root.get? "allOf").bind Json.items?).getD []

structure ConditionalIn (schema : Json) (conditional : Conditional) : Prop where
  test : schema.get? "if" = some conditional.test
  consequence : schema.get? "then" = some conditional.consequence

theorem conditional_in (title : Option String) (schema : Json) (conditional : Conditional)
    (made : conditional? title schema = some conditional) : ConditionalIn schema conditional := by
  obtain ⟨test, tested, made⟩ := Option.bind_eq_some_iff.mp made
  obtain ⟨consequence, found, made⟩ := Option.bind_eq_some_iff.mp made
  cases made
  exact ⟨tested, found⟩

theorem conditional_cases (root : Json) (conditional : Conditional) (member : conditional ∈ conditionals root) :
    (∃ entry ∈ entries root, ConditionalIn entry conditional) ∨ ConditionalIn root conditional := by
  rcases List.mem_append.mp member with inEntry | own
  · obtain ⟨entry, listed, made⟩ := List.mem_filterMap.mp inEntry
    exact .inl ⟨entry, listed, conditional_in _ entry conditional made⟩
  · exact .inr (conditional_in none root conditional (Option.mem_toList.mp own))

theorem mem_branches (root : Json) (group : Group) (member : group ∈ Group.branches root) :
    ∃ number conditional test, conditional ∈ conditionals root ∧
      group = Group.ofConditional number conditional test := by
  obtain ⟨⟨⟨conditional, test⟩, number⟩, inAll, rfl⟩ := List.mem_map.mp member
  obtain ⟨known, inConditionals, recognised⟩ :=
    List.mem_filterMap.mp (List.fst_mem_of_mem_zipIdx inAll)
  obtain ⟨_, _, same⟩ := Option.map_eq_some_iff.mp recognised
  cases same
  exact ⟨number, conditional, test, inConditionals, rfl⟩

theorem mem_options (root : Json) (group : Group) (member : group ∈ Group.options root) :
    ∃ number alternative, alternative ∈ Group.alternatives root ∧
      group = Group.ofAlternative (properties root) number alternative := by
  obtain ⟨⟨alternative, number⟩, inAll, made⟩ := List.mem_filterMap.mp member
  obtain ⟨_, _, rfl⟩ := Option.map_eq_some_iff.mp made
  exact ⟨number, alternative, List.fst_mem_of_mem_zipIdx inAll, rfl⟩

theorem mem_all_branch (root : Json) (group : Group) (test : Test)
    (member : group ∈ Group.all root) (kind : group.kind = .branch test) :
    IsBranch root group test := by
  rcases List.mem_append.mp member with branch | option
  · exact ⟨branch, kind⟩
  · obtain ⟨_, _, _, rfl⟩ := mem_options root group option
    cases kind

theorem mem_all_option (root : Json) (group : Group) (index : Nat) (member : group ∈ Group.all root)
    (kind : group.kind = .option index) : group ∈ Group.options root := by
  rcases List.mem_append.mp member with branch | option
  · obtain ⟨_, _, _, _, rfl⟩ := mem_branches root group branch
    cases kind
  · exact option

theorem mem_requiring_keys (root : Json) (trigger name key : String) :
    key ∈ requiringKeys (Group.all root) trigger name ↔ RequiredUnder root trigger key name := by
  rw [requiringKeys]
  constructor
  · intro member
    obtain ⟨group, inAll, keys⟩ := List.mem_flatMap.mp member
    split at keys
    · rename_i test kind
      split at keys
      · rename_i matching
        simp only [Bool.and_eq_true, beq_iff_eq, List.contains_iff_mem] at matching
        obtain ⟨value, tested, same⟩ := List.mem_map.mp keys
        exact ⟨group, test, mem_all_branch root group test inAll kind, matching.1, matching.2,
          value, tested, same⟩
      · cases keys
    · cases keys
  · intro required
    obtain ⟨group, test, ⟨branch, kind⟩, rfl, named, value, tested, rfl⟩ := required
    refine List.mem_flatMap.mpr ⟨group, List.mem_append_left _ branch, ?_⟩
    simp only [kind, named, beq_self_eq_true, List.contains_iff_mem.mpr, Bool.and_self, if_true]
    exact List.mem_map_of_mem tested

theorem get_status_table (root : Members) (groups : List Group) (trigger name key : String) :
    (statusTable root groups trigger name).get? key =
      if key ∈ requiringKeys groups trigger name then some .required
      else if key ∈ knownKeys root groups trigger then some .optional else none := by
  rw [statusTable, SortedMap.ofList, List.foldl_append, SortedMap.get_fill, SortedMap.get_fill]
  rfl

theorem table_requires_iff (root : Json) (trigger name key : String) :
    (statusTable (properties root) (Group.all root) trigger name).get? key = some .required ↔
      RequiredUnder root trigger key name := by
  rw [get_status_table, ← mem_requiring_keys]
  by_cases requiring : key ∈ requiringKeys (Group.all root) trigger name
  · simp [requiring]
  · by_cases known : key ∈ knownKeys (properties root) (Group.all root) trigger <;>
      simp [requiring, known]

theorem form_fields (options : Options) (document : Json) :
    (Form.ofDocument options document).fields = fields options (unwrap document).schema := by
  dsimp only [Form.ofDocument]
  cases (unwrap document).schema with
  | object members => rfl
  | _ => simp [fields, commonFields, commonProperties, properties, sections, sectionsFrom, Group.all,
      Group.branches, Group.options, Group.alternatives, conditionals, conditional?, Json.get?]

theorem top_field_cases (options : Options) (root : Json) (field : Field)
    (member : field ∈ fields options root) :
    field ∈ commonFields root (Group.all root) options.maxDepth ∨
      ∃ part ∈ sections options root, field = part.group.heading ∨ field ∈ part.members := by
  rcases List.mem_append.mp member with common | sectioned
  · exact .inl common
  · obtain ⟨part, emitted, inPart⟩ := List.mem_flatMap.mp sectioned
    exact .inr ⟨part, emitted, List.mem_cons.mp inPart⟩

theorem member_emitted (options : Options) (root : Json) (part : Section) (field : Field)
    (emitted : part ∈ sections options root) (member : field ∈ part.members) :
    field ∈ fields options root :=
  List.mem_append_right _ (List.mem_flatMap.mpr ⟨part, emitted, List.mem_cons_of_mem _ member⟩)

theorem build_attributes (depth level : Nat) (path : String) (property : Property) :
    (build depth level path property).toAttributes = attributes level path property := by
  cases depth <;> rfl

theorem build_path (depth level : Nat) (path : String) (property : Property) :
    (build depth level path property).path = path :=
  congrArg Attributes.path (build_attributes depth level path property)

theorem build_name (depth level : Nat) (path : String) (property : Property) :
    (build depth level path property).name = property.name :=
  congrArg Attributes.name (build_attributes depth level path property)

theorem scope_requirement (group : Group) (field : Attributes) :
    (group.scope field).requirement = field.requirement := by
  rw [Group.scope]
  cases group.kind <;> rfl

theorem scope_path (group : Group) (field : Attributes) : (group.scope field).path = field.path := by
  rw [Group.scope]
  cases group.kind <;> rfl

theorem scope_name (group : Group) (field : Attributes) : (group.scope field).name = field.name := by
  rw [Group.scope]
  cases group.kind <;> rfl

theorem scope_type (group : Group) (field : Attributes) : (group.scope field).type = field.type := by
  rw [Group.scope]
  cases group.kind <;> rfl

theorem scope_heading (group : Group) (field : Attributes) : (group.scope field).heading = field.heading := by
  rw [Group.scope]
  cases group.kind <;> rfl

theorem scope_required_when (group : Group) (field : Attributes) :
    (group.scope field).markers.requiredWhen = field.markers.requiredWhen := by
  rw [Group.scope]
  cases group.kind <;> rfl

theorem heading_no_data (group : Group) : group.heading.isHeading = true := by
  have marked : group.heading.heading = some group.label := scope_heading group _
  rw [Field.isHeading, marked]
  rfl

theorem data_field_cases (options : Options) (root : Json) (field : Field)
    (member : field ∈ fields options root) (data : field.isHeading = false) :
    field ∈ commonFields root (Group.all root) options.maxDepth ∨
      ∃ part ∈ sections options root, field ∈ part.members := by
  rcases top_field_cases options root field member with common | ⟨part, emitted, rfl | inPart⟩
  · exact .inl common
  · rw [heading_no_data] at data
    cases data
  · exact .inr ⟨part, emitted, inPart⟩

-- Which paths were claimed before a section shows in the paths of its members only.
theorem section_members (root : Members) (groups : List Group) (depth : Nat) (claimed : List String)
    (rest : List Group) (part : Section) (member : part ∈ sectionsFrom root groups depth claimed rest) :
    part.group ∈ rest ∧ ∀ field ∈ part.members, ∃ path name definition,
      name ∈ part.group.members ∧ definition? root part.group.properties name = some definition ∧
        field = part.group.field root groups depth path name definition := by
  induction rest generalizing claimed with
  | nil => cases member
  | cons group others ih =>
      rcases List.mem_cons.mp member with here | later
      · subst here
        refine ⟨List.mem_cons_self, fun field emitted => ?_⟩
        obtain ⟨⟨⟨name, definition⟩, path⟩, zipped, rfl⟩ := List.mem_map.mp emitted
        obtain ⟨_, listed, found⟩ := List.mem_filterMap.mp (List.of_mem_zip zipped).1
        obtain ⟨_, found, same⟩ := Option.map_eq_some_iff.mp found
        cases same
        exact ⟨path, name, definition, listed, found, rfl⟩
      · obtain ⟨inRest, anatomy⟩ := ih _ later
        exact ⟨List.mem_cons_of_mem _ inRest, anatomy⟩

theorem member_attributes (root : Members) (groups : List Group) (depth : Nat) (group : Group)
    (path name : String) (definition : Json) :
    (group.field root groups depth path name definition).toAttributes = group.scope (attributes 0 path
      { name := name, definition := definition, requirement := group.requirement root groups name }) :=
  congrArg group.scope (build_attributes depth 0 path _)

theorem member_name (root : Members) (groups : List Group) (depth : Nat) (group : Group)
    (path name : String) (definition : Json) :
    (group.field root groups depth path name definition).name = name := by
  rw [member_attributes, scope_name]
  rfl

theorem group_field_path (root : Members) (groups : List Group) (depth : Nat) (group : Group)
    (path name : String) (definition : Json) :
    (group.field root groups depth path name definition).path = path := by
  rw [member_attributes, scope_path]
  rfl

theorem member_data (root : Members) (groups : List Group) (depth : Nat) (group : Group)
    (path name : String) (definition : Json) :
    (group.field root groups depth path name definition).isHeading = false := by
  rw [Field.isHeading, member_attributes, scope_heading]
  rfl

structure BranchMember (options : Options) (root : Json) (part : Section) (test : Test)
    (field : Field) : Prop where
  compiled : part ∈ sections options root
  kind : part.group.kind = .branch test
  emitted : field ∈ part.members

section BranchMember

variable {options : Options} {root : Json} {part : Section} {test : Test} {field : Field}

theorem branch_member_group (member : BranchMember options root part test field) :
    IsBranch root part.group test :=
  mem_all_branch root part.group test
    (section_members _ _ _ _ _ part member.compiled).1 member.kind

theorem branch_member_attributes (member : BranchMember options root part test field) :
    ∃ path definition,
      definition? (properties root) part.group.properties field.name = some definition ∧
      field.toAttributes = part.group.scope (attributes 0 path
        { name := field.name
          definition := definition
          requirement := .byTrigger (some test.trigger)
            (statusTable (properties root) (Group.all root) test.trigger field.name) }) := by
  obtain ⟨path, name, definition, _, found, rfl⟩ :=
    (section_members _ _ _ _ _ part member.compiled).2 field member.emitted
  have body := member_attributes (properties root) (Group.all root) options.maxDepth part.group path
    name definition
  rw [member_name]
  refine ⟨path, definition, found, ?_⟩
  simpa only [Group.requirement, member.kind] using body

theorem branch_member_requirement (member : BranchMember options root part test field) :
    field.requirement = .byTrigger (some test.trigger)
      (statusTable (properties root) (Group.all root) test.trigger field.name) := by
  obtain ⟨_, _, _, body⟩ := branch_member_attributes member
  exact (congrArg Attributes.requirement body).trans (scope_requirement part.group _)

theorem branch_member_emitted (document : Json)
    (member : BranchMember options (unwrap document).schema part test field) :
    field ∈ (Form.ofDocument options document).fields := by
  rw [form_fields]
  exact member_emitted options _ part field member.compiled member.emitted

end BranchMember

theorem option_member_attributes (options : Options) (root : Json) (part : Section) (index : Nat)
    (field : Field) (emitted : part ∈ sections options root) (kind : part.group.kind = .option index)
    (member : field ∈ part.members) : ∃ path definition,
      definition? (properties root) part.group.properties field.name = some definition ∧
      field.toAttributes = part.group.scope (attributes 0 path
        { name := field.name
          definition := definition
          requirement :=
            .wildcard (if part.group.required.contains field.name then .required else .optional) }) := by
  obtain ⟨path, name, definition, _, found, rfl⟩ :=
    (section_members _ _ _ _ _ part emitted).2 field member
  have body := member_attributes (properties root) (Group.all root) options.maxDepth part.group path
    name definition
  rw [member_name]
  refine ⟨path, definition, found, ?_⟩
  simpa only [Group.requirement, kind] using body

end ConditionalForm.Document
