import ConditionalForm.Proofs.AscendingMaps
import ConditionalForm.Proofs.Sections

set_option autoImplicit false

namespace ConditionalForm.Document

def Recognised (root : Json) (conditional : Conditional) (test : Test) : Prop :=
  conditional ∈ conditionals root ∧ Test.ofJson? conditional.test = some test

def Test.HasKey (test : Test) (trigger key : String) : Prop :=
  test.trigger = trigger ∧ ∃ value ∈ test.values, value.key = key

def ListedKey (root : Json) (trigger key : String) : Prop :=
  ∃ definition items, Members.find? trigger (properties root) = some definition ∧
    definition.get? "enum" = some (.array items) ∧ ∃ value ∈ items, value.key = key

def TestedKey (root : Json) (trigger key : String) : Prop :=
  ∃ conditional test, Recognised root conditional test ∧ test.HasKey trigger key

def RequiringKey (root : Json) (trigger key name : String) : Prop :=
  ∃ conditional test, Recognised root conditional test ∧ test.HasKey trigger key ∧
    name ∈ requiredNames conditional.consequence

structure ExactTable (root : Json) (trigger name : String) (table : StatusTable) : Prop where
  ascending : SortedMap.Ascending table
  keys : ∀ key, key ∈ SortedMap.keys table ↔ ListedKey root trigger key ∨ TestedKey root trigger key
  required : ∀ key, table.get? key = some .required ↔ RequiringKey root trigger key name
  optional : ∀ key ∈ SortedMap.keys table, table.get? key = some .optional ↔ ¬ RequiringKey root trigger key name

theorem branch_recognised (root : Json) (group : Group) (test : Test) (branch : IsBranch root group test) :
    ∃ conditional, Recognised root conditional test ∧ group.required = requiredNames conditional.consequence := by
  obtain ⟨⟨⟨conditional, read⟩, number⟩, numbered, rfl⟩ := List.mem_map.mp branch.1
  obtain ⟨found, listed, recognised⟩ := List.mem_filterMap.mp (List.fst_mem_of_mem_zipIdx numbered)
  obtain ⟨_, same, pair⟩ := Option.map_eq_some_iff.mp recognised
  cases pair
  cases branch.2
  exact ⟨conditional, ⟨listed, same⟩, rfl⟩

theorem recognised_branch (root : Json) (conditional : Conditional) (test : Test)
    (recognised : Recognised root conditional test) :
    ∃ group, IsBranch root group test ∧ group.required = requiredNames conditional.consequence := by
  have kept : (conditional, test) ∈ (conditionals root).filterMap fun conditional =>
      (Test.ofJson? conditional.test).map (conditional, ·) :=
    List.mem_filterMap.mpr ⟨conditional, recognised.1, by simp [recognised.2]⟩
  obtain ⟨number, placed⟩ := List.getElem?_of_mem kept
  have numbered := List.mk_mem_zipIdx_iff_getElem?.mpr placed
  exact ⟨_, ⟨List.mem_map_of_mem numbered, rfl⟩, rfl⟩

theorem required_under_iff (root : Json) (trigger key name : String) :
    RequiredUnder root trigger key name ↔ RequiringKey root trigger key name := by
  constructor
  · rintro ⟨group, test, branch, same, named, tested⟩
    obtain ⟨conditional, recognised, required⟩ := branch_recognised root group test branch
    exact ⟨conditional, test, recognised, ⟨same, tested⟩, required ▸ named⟩
  · rintro ⟨conditional, test, recognised, ⟨same, tested⟩, named⟩
    obtain ⟨group, branch, required⟩ := recognised_branch root conditional test recognised
    exact ⟨group, test, branch, same, required ▸ named, tested⟩

theorem mem_listed_keys (root : Json) (trigger key : String) :
    key ∈ ((((Members.find? trigger (properties root)).bind (Json.get? "enum")).bind Json.items?).getD []).map
        Json.key ↔ ListedKey root trigger key := by
  constructor
  · intro member
    obtain ⟨value, listed, made⟩ := List.mem_map.mp member
    cases found : Members.find? trigger (properties root) with
    | none => simp [found] at listed
    | some definition =>
        rw [found, Option.bind_some] at listed
        rcases items_cases "enum" definition with empty | items
        · rw [empty] at listed
          cases listed
        · exact ⟨definition, _, found, items, value, listed, made⟩
  · rintro ⟨definition, items, found, enumerated, value, listed, made⟩
    simp only [found, Option.bind_some, enumerated, Json.items?, Option.getD_some]
    exact List.mem_map.mpr ⟨value, listed, made⟩

theorem mem_tested_keys (root : Json) (trigger key : String) :
    key ∈ (((Group.all root).filterMap Group.test?).flatMap fun test =>
        if test.trigger == trigger then test.values.map Json.key else []) ↔ TestedKey root trigger key := by
  constructor
  · intro member
    obtain ⟨test, inTests, inValues⟩ := List.mem_flatMap.mp member
    obtain ⟨group, inAll, kind⟩ := List.mem_filterMap.mp inTests
    have branch : IsBranch root group test := by
      cases made : group.kind with
      | branch other =>
          have same : other = test := by simpa [Group.test?, made] using kind
          exact mem_all_branch root group test inAll (made.trans (congrArg GroupKind.branch same))
      | option index => simp [Group.test?, made] at kind
    obtain ⟨conditional, recognised, _⟩ := branch_recognised root group test branch
    by_cases same : test.trigger = trigger
    · rw [if_pos (beq_iff_eq.mpr same)] at inValues
      exact ⟨conditional, test, recognised, same, List.mem_map.mp inValues⟩
    · simp [same] at inValues
  · rintro ⟨conditional, test, recognised, rfl, tested⟩
    obtain ⟨group, ⟨branch, kind⟩, _⟩ := recognised_branch root conditional test recognised
    refine List.mem_flatMap.mpr ⟨test, List.mem_filterMap.mpr ⟨group, List.mem_append_left _ branch, ?_⟩, ?_⟩
    · simp [Group.test?, kind]
    · simpa using tested

theorem mem_known_keys (root : Json) (trigger key : String) :
    key ∈ knownKeys (properties root) (Group.all root) trigger ↔
      ListedKey root trigger key ∨ TestedKey root trigger key := by
  rw [knownKeys, List.mem_append, mem_listed_keys, mem_tested_keys]

theorem requiring_key_known (root : Json) (trigger key name : String)
    (requiring : key ∈ requiringKeys (Group.all root) trigger name) :
    key ∈ knownKeys (properties root) (Group.all root) trigger := by
  rw [mem_requiring_keys, required_under_iff] at requiring
  obtain ⟨conditional, test, recognised, has, _⟩ := requiring
  exact (mem_known_keys root trigger key).mpr (.inr ⟨conditional, test, recognised, has⟩)

theorem status_table_exact (root : Json) (trigger name : String) :
    ExactTable root trigger name (statusTable (properties root) (Group.all root) trigger name) := by
  have held (key : String) : key ∈ SortedMap.keys (statusTable (properties root) (Group.all root) trigger name) ↔
      key ∈ knownKeys (properties root) (Group.all root) trigger := by
    rw [SortedMap.mem_keys_iff, get_status_table]
    by_cases requiring : key ∈ requiringKeys (Group.all root) trigger name
    · simp [requiring, requiring_key_known root trigger key name requiring]
    · by_cases known : key ∈ knownKeys (properties root) (Group.all root) trigger <;> simp [requiring, known]
  refine ⟨SortedMap.of_list_ascending _, fun key => ?_, fun key => ?_, fun key inTable => ?_⟩
  · exact (held key).trans (mem_known_keys root trigger key)
  · exact (table_requires_iff root trigger name key).trans (required_under_iff root trigger key name)
  · rw [get_status_table, ← required_under_iff, ← mem_requiring_keys]
    by_cases requiring : key ∈ requiringKeys (Group.all root) trigger name
    · simp [requiring]
    · simp [requiring, (held key).mp inTable]

theorem exact_table_unique (root : Json) (trigger name : String) (left right : StatusTable)
    (exactLeft : ExactTable root trigger name left) (exactRight : ExactTable root trigger name right) :
    left = right := by
  apply SortedMap.ascending_ext left right exactLeft.ascending exactRight.ascending
  intro key
  by_cases requires : RequiringKey root trigger key name
  · rw [(exactLeft.required key).mpr requires, (exactRight.required key).mpr requires]
  · by_cases held : key ∈ SortedMap.keys left
    · have other : key ∈ SortedMap.keys right := (exactRight.keys key).mpr ((exactLeft.keys key).mp held)
      rw [(exactLeft.optional key held).mpr requires, (exactRight.optional key other).mpr requires]
    · have other : key ∉ SortedMap.keys right := fun inRight =>
        held ((exactLeft.keys key).mpr ((exactRight.keys key).mp inRight))
      rw [SortedMap.mem_keys_iff, ← Option.isSome_iff_exists, Option.not_isSome_iff_eq_none] at held other
      rw [held, other]

theorem member_table_exact (options : Options) (document : Json) (part : Section) (test : Test) (field : Field)
    (member : BranchMember options (unwrap document).schema part test field) :
    field ∈ (Form.ofDocument options document).fields ∧
    (∃ table, field.requirement = .byTrigger (some test.trigger) table ∧
      ExactTable (unwrap document).schema test.trigger field.name table) ∧
    ∀ otherPart otherTest copy, BranchMember options (unwrap document).schema otherPart otherTest copy →
      otherTest.trigger = test.trigger → copy.name = field.name → copy.requirement = field.requirement := by
  have exact (part : Section) (test : Test) (field : Field)
      (member : BranchMember options (unwrap document).schema part test field) :
      ∃ table, field.requirement = .byTrigger (some test.trigger) table ∧
        ExactTable (unwrap document).schema test.trigger field.name table :=
    ⟨_, branch_member_requirement member, status_table_exact _ _ _⟩
  refine ⟨branch_member_emitted document member, exact part test field member, ?_⟩
  intro otherPart otherTest copy copied sameTrigger sameName
  obtain ⟨table, carried, tableExact⟩ := exact part test field member
  obtain ⟨other, alsoCarried, otherExact⟩ := exact otherPart otherTest copy copied
  rw [sameTrigger, sameName] at otherExact
  rw [carried, alsoCarried, sameTrigger, exact_table_unique _ _ _ other table otherExact tableExact]

def roundDouble (n : Int) : Json := .number (.double ((Double.ofInt? n).getD .zero))

def gaugeTest (values : List Json) : Json :=
  .object [("properties", .object [("MODE", .object [("enum", .array values)])])]

def gaugeDocument : Json := .object
  [("properties", .object
      [("MODE", .object [("enum", .array [.number (.whole 1), roundDouble 2, .text "A"])]), ("LOAD", .object [])]),
    ("allOf", .array
      [.object [("if", gaugeTest [roundDouble 1]), ("then", .object [("required", .array [.text "LOAD"])])],
        .object
          [("if", gaugeTest [.number (.whole 3), .text "1"]),
            ("then", .object [("properties", .object [("LOAD", .object [])])])]])]

theorem load_copy_table :
    ∃ part ∈ sections {} gaugeDocument, ∃ field ∈ part.members, field.path = "branch_1.LOAD" ∧
      RequiringKey gaugeDocument "MODE" "1" "LOAD" ∧
      field.requirement = .byTrigger (some "MODE")
        [("1", .required), ("2", .optional), ("3", .optional), ("A", .optional)] := by
  have member : BranchMember {} gaugeDocument (sections {} gaugeDocument)[1]
      ⟨"MODE", [.number (.whole 3), .text "1"]⟩ (sections {} gaugeDocument)[1].members[0] :=
    ⟨List.getElem_mem _, rfl, List.getElem_mem _⟩
  obtain ⟨_, ⟨table, carried, exact⟩, _⟩ := member_table_exact {} gaugeDocument _ _ _ member
  have shown : (sections {} gaugeDocument)[1].members[0].requirement = .byTrigger (some "MODE")
      [("1", .required), ("2", .optional), ("3", .optional), ("A", .optional)] := by decide +kernel
  obtain ⟨_, rfl⟩ := Requirement.byTrigger.inj (carried.symm.trans shown)
  exact ⟨_, member.compiled, _, member.emitted, by decide +kernel, (exact.required "1").mp rfl, shown⟩

end ConditionalForm.Document
