import ConditionalForm.Proofs.Batches
import ConditionalForm.Proofs.BranchStates
import ConditionalForm.Proofs.Entries
import ConditionalForm.Proofs.LookUps
import ConditionalForm.Proofs.Senders

set_option autoImplicit false

namespace ConditionalForm

open Document

namespace Document

theorem section_member_path (root : Members) (groups : List Group) (depth : Nat)
    (claimed : List String) (rest : List Group) (part : Section)
    (emitted : part ∈ sectionsFrom root groups depth claimed rest) :
    ∀ field ∈ part.members,
      field.path = field.name ∨ field.path = part.group.tag ++ "." ++ field.name := by
  induction rest generalizing claimed with
  | nil => cases emitted
  | cons group others ih =>
      rcases List.mem_cons.mp emitted with rfl | later
      · intro field member
        obtain ⟨entry, paired, rfl⟩ := List.mem_map.mp member
        rw [group_field_path, member_name]
        exact claim_paths_paired id _ claimed (group.definitions root) entry paired
      · exact ih _ later

def PathBelow (parent separator path name : String) : Prop :=
  path = parent ++ separator ++ name ∨
    ∃ index : Nat, path = parent ++ ".option_" ++ toString index ++ "." ++ name

theorem below_path (parent separator : String) (schema : Json) (path : String) (property : Property)
    (below : Below parent separator schema path property) : PathBelow parent separator path property.name := by
  cases below with
  | own => exact .inl rfl
  | alternative alternative declared status index path listed member placed =>
      rcases placed with plain | tagged
      · exact .inl plain
      · exact .inr ⟨index, tagged⟩

theorem child_path (depth level : Nat) (path separator : String) (schema : Json) (property : Property)
    (child : Field) (laidOut : entriesOf path property.definition = entriesBelow path separator schema)
    (member : child ∈ (build depth level path property).children) (data : child.isHeading = false) :
    PathBelow path separator child.path child.name := by
  cases depth with
  | zero => cases member
  | succ depth =>
      obtain ⟨entry, inEntries, rfl⟩ := List.mem_map.mp member
      rw [laidOut] at inEntries
      cases entry with
      | heading path label optionIndex => cases data
      | property inner below =>
          have place := below_path path separator _ inner below (entries_below path separator _ inner below inEntries)
          rwa [build_attributes]

theorem object_child_path (depth level : Nat) (path : String) (property : Property) (child : Field)
    (object : FieldType.ofDefinition property.definition = .object)
    (member : child ∈ (build depth level path property).children) (data : child.isHeading = false) :
    PathBelow path "." child.path child.name :=
  child_path depth level path "." property.definition property child (by simp only [entriesOf, object]) member data

theorem group_child_path (options : Options) (root : Json) (group child : Field)
    (member : group ∈ fields options root) (data : group.isHeading = false) (outer : group.isGroup = true)
    (inner : child ∈ group.children) (childData : child.isHeading = false) :
    PathBelow group.path "." child.path child.name := by
  obtain ⟨property, _, built⟩ := top_field_built anything_hereditary.in_schemas options root trivial group member data
  rw [built.children] at inner
  exact object_child_path options.maxDepth 0 group.path property child
    (group_object group options.maxDepth property built outer) inner childData

theorem branch_member_paths {options : Options} {root : Json} {part : Section} {test : Test}
    {copy : Field} (member : BranchMember options root part test copy) (group : copy.isGroup = true) :
    (copy.path = copy.name ∨ copy.path = part.group.tag ++ "." ++ copy.name) ∧
      ∀ child ∈ copy.children, child.isHeading = false →
        PathBelow copy.path "." child.path child.name := by
  refine ⟨section_member_path _ _ _ _ _ part member.compiled copy member.emitted, fun child inner data => ?_⟩
  have copyData : copy.isHeading = false := by
    obtain ⟨path, name, definition, _, _, rfl⟩ :=
      (section_members _ _ _ _ _ part member.compiled).2 copy member.emitted
    exact member_data _ _ _ _ path name definition
  exact group_child_path options root copy child
    (member_emitted options root part copy member.compiled member.emitted) copyData group inner data

theorem path_below_dotted (outer rest path name : String)
    (below : PathBelow (outer ++ "." ++ rest) "." path name) : ∃ more, path = outer ++ "." ++ more := by
  rcases below with rfl | ⟨index, rfl⟩
  · exact ⟨rest ++ "." ++ name, by simp only [String.append_assoc]⟩
  · exact ⟨rest ++ ".option_" ++ toString index ++ "." ++ name, by simp only [String.append_assoc]⟩

theorem branch_tag_whole (root : Json) (group : Group) (member : group ∈ Group.branches root) :
    '.' ∉ group.tag.toList := by
  obtain ⟨number, numbered⟩ := branch_tag root group member
  have plain := numbered_plain "branch_" number group.tag numbered (.inl rfl)
  exact fun broken => plain.whole '.' broken (.inl rfl)

end Document

section SharedValue

variable {options : Options} {root : Json} {part : Section} {test : Test} {copy child : Field}

theorem shown_leaf_entry_iff (states : StateMap) (values : Snapshot) (field : Field) (value : Json)
    (leaf : field.isGroup = false) (shown : Shown states field) (filled : value.isFilled = true) :
    field.entry states values = some value ↔
      (values.lookup field.path).or (values.lookup field.name) = some value := by
  rw [entry_leaf states values field leaf]
  exact leaf_entry_iff values field.toAttributes _ value shown filled

theorem bare_copy_lookup (values : Snapshot) (outer inner : String) (entered : Members) (value : Json)
    (wholeOuter : '.' ∉ outer.toList) (wholeInner : '.' ∉ inner.toList)
    (held : Members.find? outer values = some (.object entered))
    (found : Members.find? inner entered = some value) :
    (values.lookup (outer ++ "." ++ inner)).or (values.lookup inner) = some value ↔
      ∀ other, Members.find? (outer ++ "." ++ inner) values = some other → other = value := by
  rw [Snapshot.lookup_nested values outer inner wholeOuter wholeInner, held, Option.bind_some,
    Json.get?, found]
  cases Members.find? (outer ++ "." ++ inner) values <;> simp

theorem tagged_copy_lookup (values : Snapshot)
    (member : BranchMember options root part test copy) (group : copy.isGroup = true)
    (inChildren : child ∈ copy.children) (data : child.isHeading = false)
    (tagged : copy.path = part.group.tag ++ "." ++ copy.name)
    (untyped : Members.find? child.path values = none)
    (untagged : Members.find? part.group.tag values = none) : values.lookup child.path = none := by
  have below := (branch_member_paths member group).2 child inChildren data
  rw [tagged] at below
  obtain ⟨more, path⟩ := path_below_dotted _ _ _ _ below
  have whole := branch_tag_whole root part.group (branch_member_group member).1
  refine Snapshot.lookup_absent values child.path untyped ?_
  rw [path, Snapshot.first_segment_dotted _ _ whole]
  exact untagged

end SharedValue

theorem shared_value_sent_iff (options : Options) (document : Json) (part : Section) (test : Test)
    (copy child : Field) (values : Snapshot) (entered : Members) (value : Json)
    (member : BranchMember options (unwrap document).schema part test copy)
    (group : copy.isGroup = true) (leaf : child.isGroup = false)
    (alone : ShownAlone ((Form.ofDocument options document).evaluate values)
      (Form.ofDocument options document).fields copy)
    (inner : ShownAlone ((Form.ofDocument options document).evaluate values) copy.children child)
    (held : Members.find? copy.name values = some (.object entered))
    (found : Members.find? child.name entered = some value) (filled : value.isFilled = true) :
    let form := Form.ofDocument options document
    let sent := Snapshot.descend [copy.name, child.name] (form.payload (form.evaluate values) values)
    (sent = some value ↔ (values.lookup child.path).or (values.lookup child.name) = some value) ∧
    (copy.path = copy.name ∨ copy.path = part.group.tag ++ "." ++ copy.name) ∧
    PathBelow copy.path "." child.path child.name ∧
    (copy.path = copy.name → child.path = copy.name ++ "." ++ child.name →
      '.' ∉ copy.name.toList → '.' ∉ child.name.toList →
        (sent = some value ↔
          ∀ other, Members.find? child.path values = some other → other = value)) ∧
    (copy.path = part.group.tag ++ "." ++ copy.name → Members.find? child.path values = none →
      Members.find? part.group.tag values = none → values.lookup child.name = none →
        sent ≠ some value) := by
  intro form sent
  obtain ⟨placed, children⟩ := branch_member_paths member group
  have entry : sent = child.entry (form.evaluate values) values :=
    nested_sent _ values copy child form.fields group alone inner
  have decided : sent = some value ↔
      (values.lookup child.path).or (values.lookup child.name) = some value :=
    entry ▸ shown_leaf_entry_iff _ values child value leaf inner.shown filled
  refine ⟨decided, placed, children child inner.member inner.data,
    fun bare below wholeOuter wholeInner => ?_, fun tagged untyped untagged unnamed => ?_⟩
  · rw [decided, below]
    exact bare_copy_lookup values copy.name child.name entered value wholeOuter wholeInner held found
  · rw [Ne, decided, tagged_copy_lookup values member group inner.member inner.data tagged untyped untagged,
      unnamed]
    exact nofun

def sectionDocument : Json := .object
  [("properties", .object
      [("TYPE", .object [("enum", .array [.text "BEAM", .text "TRUSS"])]),
        ("SECTION", .object
          [("type", .text "object"),
            ("properties", .object [("WIDTH", .object [("type", .text "number")])])])]),
    ("allOf", .array
      [.object
        [("if", .object [("properties", .object [("TYPE", .object [("const", .text "BEAM")])])]),
          ("then", .object [("required", .array [.text "SECTION"])])],
        .object
        [("if", .object [("properties", .object [("TYPE", .object [("const", .text "TRUSS")])])]),
          ("then", .object [("required", .array [.text "SECTION"])])]])]

def sectionForm : Form := Form.ofDocument {} sectionDocument

def sectionEntries (type : String) : Snapshot :=
  [("TYPE", .text type), ("SECTION", .object [("WIDTH", .number (.whole 2))])]

theorem width_of_beam_sent :
    Snapshot.descend ["SECTION", "WIDTH"]
        (sectionForm.payload (sectionForm.evaluate (sectionEntries "BEAM")) (sectionEntries "BEAM")) =
      some (.number (.whole 2)) := by
  have member : BranchMember {} sectionDocument (sections {} sectionDocument)[0]
      ⟨"TYPE", [.text "BEAM"]⟩ (sections {} sectionDocument)[0].members[0] :=
    ⟨List.getElem_mem _, rfl, List.getElem_mem _⟩
  have alone := shown_alone_of_count (sectionForm.evaluate (sectionEntries "BEAM")) sectionForm.fields
    (sections {} sectionDocument)[0].members[0]
    (branch_member_emitted sectionDocument member) (by decide +kernel) (by decide +kernel)
    (by decide +kernel)
  have inner := shown_alone_of_count (sectionForm.evaluate (sectionEntries "BEAM"))
    (sections {} sectionDocument)[0].members[0].children
    (sections {} sectionDocument)[0].members[0].children[0]
    (List.getElem_mem _) (by decide +kernel) (by decide +kernel) (by decide +kernel)
  have shared := shared_value_sent_iff {} sectionDocument _ _ _ _ (sectionEntries "BEAM") _
    (.number (.whole 2)) member rfl rfl alone inner rfl rfl rfl
  exact (shared.2.2.2.1 rfl rfl (by decide) (by decide)).mpr nofun

theorem width_of_truss_lost :
    ∃ part test copy child, BranchMember {} (unwrap sectionDocument).schema part test copy ∧
      copy.isGroup = true ∧ child.isGroup = false ∧
      ShownAlone (sectionForm.evaluate (sectionEntries "TRUSS")) sectionForm.fields copy ∧
      ShownAlone (sectionForm.evaluate (sectionEntries "TRUSS")) copy.children child ∧
      Members.find? copy.name (sectionEntries "TRUSS") =
        some (.object [(child.name, .number (.whole 2))]) ∧
      Snapshot.descend [copy.name, child.name]
        (sectionForm.payload (sectionForm.evaluate (sectionEntries "TRUSS")) (sectionEntries "TRUSS")) =
          none := by
  have member : BranchMember {} sectionDocument (sections {} sectionDocument)[1]
      ⟨"TYPE", [.text "TRUSS"]⟩ (sections {} sectionDocument)[1].members[0] :=
    ⟨List.getElem_mem _, rfl, List.getElem_mem _⟩
  refine ⟨_, _, _, (sections {} sectionDocument)[1].members[0].children[0], member, rfl, rfl,
    shown_alone_of_count _ _ _ (branch_member_emitted sectionDocument member) ?_ ?_ ?_,
    shown_alone_of_count _ _ _ (List.getElem_mem _) ?_ ?_ ?_, rfl, rfl⟩
  all_goals decide +kernel

end ConditionalForm
