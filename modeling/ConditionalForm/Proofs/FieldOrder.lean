import ConditionalForm.Proofs.Definitions
import ConditionalForm.Proofs.RootRequired
import Mathlib.Data.List.Forall2

set_option autoImplicit false

namespace ConditionalForm

def Form.dataNames (form : Form) : List String :=
  (form.fields.filter fun field => !field.isHeading).map fun field => field.name

namespace Document

structure Source where
  kind : GroupKind
  required : List String
  properties : Members

namespace Source

-- The names that the source requires, as listed, and then those of its properties that are not among them.
def names (source : Source) : List String :=
  source.required ++ (source.properties.map Prod.fst).filter fun name => !source.required.contains name

def declares (root : Members) (source : Source) (name : String) : Bool :=
  root.contains name || source.properties.contains name

def Marks (source : Source) (field : Attributes) : Prop :=
  match source.kind with
  | .branch test => ∃ label, field.conditions = [⟨test.trigger, test.values, label, source.required⟩]
  | .option index => field.optionIndex = some index

end Source

def pairSource? (value : Json) : Option Source := do
  let test ← (value.get? "if").bind Test.ofJson?
  let consequence ← value.get? "then"
  return ⟨.branch test, requiredNames consequence, properties consequence⟩

def alternativeSource? : Json × Nat → Option Source
  | (.object members, index) =>
      some ⟨.option index, requiredNames (.object members), properties (.object members)⟩
  | _ => none

def alternatives (root : Json) : List Json :=
  match root.get? "oneOf", root.get? "anyOf" with
  | some (.array items), _ => items
  | none, some (.array items) => items
  | _, _ => []

def sources (root : Json) : List Source :=
  (entries root ++ [root]).filterMap pairSource? ++ (alternatives root).zipIdx.filterMap alternativeSource?

inductive Slot where
  | common (name : String) (definition : Json)
  | heading (source : Source)
  | member (source : Source) (name : String)

namespace Slot

def name? : Slot → Option String
  | .common name _ => some name
  | .heading _ => none
  | .member _ name => some name

def Filled (root : Json) : Slot → Field → Prop
  | .common name definition, field =>
      field.isHeading = false ∧ field.name = name ∧ field.path = name ∧
        field.requirement = .fixed ((requiredNames root).contains name) ∧ ReadFrom definition field.toAttributes
  | .heading source, field => field.isHeading = true ∧ field.children = [] ∧ source.Marks field.toAttributes
  | .member source name, field =>
      field.isHeading = false ∧ field.name = name ∧ source.Marks field.toAttributes ∧
        ∃ definition, definition? (properties root) source.properties name = some definition ∧
          ReadFrom definition field.toAttributes

end Slot

def Source.slots (root : Members) (source : Source) : List Slot :=
  .heading source ::
    (source.names.filter (source.declares root)).map (.member source)

def layout (root : Json) : List Slot :=
  ((properties root).filter fun declared => !(sources root).any fun source => source.names.contains declared.1).map
      (fun declared => .common declared.1 declared.2)
    ++ (sources root).flatMap (Source.slots (properties root))

def Group.source (group : Group) : Source := ⟨group.kind, group.required, group.properties⟩

def conditionalSource? (conditional : Conditional) : Option Source :=
  (Test.ofJson? conditional.test).map fun test =>
    ⟨.branch test, requiredNames conditional.consequence, properties conditional.consequence⟩

theorem conditional_source (title : Option String) (value : Json) :
    (conditional? title value).bind conditionalSource? = pairSource? value := by
  rw [conditional?, pairSource?]
  cases value.get? "if" with
  | none => rfl
  | some test =>
      cases value.get? "then" with
      | none => cases read : Test.ofJson? test <;> simp [read]
      | some consequence => cases read : Test.ofJson? test <;> simp [conditionalSource?, read]

theorem branch_sources (root : Json) :
    (Group.branches root).map Group.source = (entries root ++ [root]).filterMap pairSource? := by
  -- The number of a branch shows in its tag only.
  have numbered : (Group.branches root).map Group.source = (conditionals root).filterMap conditionalSource? := by
    rw [Group.branches, List.map_map]
    have forgotten := congrArg (List.map fun read : Conditional × Test =>
      (⟨.branch read.2, requiredNames read.1.consequence, properties read.1.consequence⟩ : Source))
      (List.zipIdx_map_fst 0 ((conditionals root).filterMap fun conditional =>
        (Test.ofJson? conditional.test).map (conditional, ·)))
    rw [List.map_map, List.map_filterMap] at forgotten
    refine forgotten.trans (List.filterMap_congr fun conditional _ => ?_)
    rw [Option.map_map]
    rfl
  have own : (conditional? none root).toList.filterMap conditionalSource? = [root].filterMap pairSource? := by
    have read := conditional_source none root
    cases made : conditional? none root with
    | none =>
        rw [made] at read
        rw [List.filterMap_cons_none read.symm]
        rfl
    | some conditional =>
        rw [made, Option.bind_some] at read
        rw [List.filterMap_cons, ← read]
        rfl
  rw [numbered, conditionals, List.filterMap_append, List.filterMap_append, List.filterMap_filterMap, own]
  exact congrArg (· ++ _) (List.filterMap_congr fun entry _ => conditional_source _ entry)

theorem group_alternatives (root : Json) : Group.alternatives root = alternatives root := by
  rw [Group.alternatives, alternatives]
  rcases root.get? "oneOf" with _ | value
  · rcases root.get? "anyOf" with _ | value
    · rfl
    · cases value <;> rfl
  · cases value <;> rfl

theorem group_sources (root : Json) : (Group.all root).map Group.source = sources root := by
  rw [Group.all, List.map_append, branch_sources, sources, Group.options, List.map_filterMap, group_alternatives]
  refine congrArg _ (List.filterMap_congr fun entry _ => ?_)
  obtain ⟨alternative, number⟩ := entry
  cases alternative with
  | object members => rfl
  | _ => rfl

theorem group_marks (group : Group) (field : Attributes) (fresh : field.conditions = []) :
    group.source.Marks (group.scope field) := by
  rw [Source.Marks, Group.source, Group.scope, fresh]
  cases kind : group.kind with
  | branch test => exact ⟨group.label, by simp [Group.condition, kind]⟩
  | option index => rfl

theorem heading_fills (root : Json) (group : Group) : (Slot.heading group.source).Filled root group.heading :=
  ⟨heading_no_data group, rfl, group_marks group _ rfl⟩

theorem member_fills (root : Json) (groups : List Group) (depth : Nat) (group : Group) (path name : String)
    (definition : Json) (found : definition? (properties root) group.properties name = some definition) :
    (Slot.member group.source name).Filled root
      (group.field (properties root) groups depth path name definition) := by
  refine ⟨member_data _ _ _ _ _ _ _, member_name _ _ _ _ _ _ _, ?_, definition, found, ?_⟩
  · rw [member_attributes]
    exact group_marks group _ rfl
  · rw [member_attributes]
    exact .scoped group path _ rfl

theorem common_fills (root : Json) (depth : Nat) (declared : String × Json) :
    (Slot.common declared.1 declared.2).Filled root (build depth 0 declared.1
      ⟨declared.1, declared.2, .fixed ((requiredNames root).contains declared.1), none⟩) := by
  rw [Slot.Filled, Field.isHeading, build_attributes]
  exact ⟨rfl, rfl, rfl, rfl, .plain 0 _ _ rfl⟩

theorem defined_names (root : Members) (group : Group) :
    (group.definitions root).map Prod.fst = group.source.names.filter (group.source.declares root) := by
  have declared (name : String) : group.source.declares root name =
      (definition? root group.properties name).isSome := (overlaid_some _ _).symm
  show (group.members.filterMap _).map Prod.fst = group.members.filter _
  induction group.members with
  | nil => rfl
  | cons name names ih =>
      have known := declared name
      cases found : definition? root group.properties name with
      | none =>
          rw [found] at known
          rw [List.filterMap_cons_none (by rw [found]; rfl), ih]
          exact (List.filter_cons_of_neg (p := group.source.declares root) (Bool.eq_false_iff.mp known)).symm
      | some definition =>
          rw [found] at known
          rw [List.filterMap_cons_some (by rw [found]; rfl), List.map_cons, ih]
          exact (List.filter_cons_of_pos known).symm

theorem sections_fill (root : Json) (groups : List Group) (depth : Nat) (claimed : List String) (rest : List Group) :
    List.Forall₂ (Slot.Filled root) ((rest.map Group.source).flatMap (Source.slots (properties root)))
      ((sectionsFrom (properties root) groups depth claimed rest).flatMap Section.fields) := by
  induction rest generalizing claimed with
  | nil => exact .nil
  | cons group others ih =>
      rw [sectionsFrom, List.map_cons, List.flatMap_cons, List.flatMap_cons]
      refine List.rel_append (.cons (heading_fills root group) ?_) (ih _)
      have count := claim_paths_length id (fun name => group.tag ++ "." ++ name) claimed
        ((group.definitions (properties root)).map Prod.fst)
      rw [List.length_map] at count
      generalize claimPaths id _ claimed ((group.definitions (properties root)).map Prod.fst) = paths at count ⊢
      -- Slots and fields are both made from the definitions with their paths.
      have named : ((group.definitions (properties root)).zip paths).map (Prod.fst ∘ Prod.fst) =
          group.source.names.filter (group.source.declares (properties root)) := by
        rw [← List.map_map, List.map_fst_zip (Nat.le_of_eq count.symm), defined_names]
      rw [← named, List.map_map]
      refine List.forall₂_map_left_iff.mpr (List.forall₂_map_right_iff.mpr (List.forall₂_same.mpr ?_))
      rintro ⟨⟨name, definition⟩, path⟩ paired
      obtain ⟨_, _, made⟩ := List.mem_filterMap.mp (List.of_mem_zip paired).1
      obtain ⟨_, found, same⟩ := Option.map_eq_some_iff.mp made
      cases same
      exact member_fills root groups depth group path name definition found

theorem layout_common (root : Json) :
    ((properties root).filter fun declared => !(sources root).any fun source => source.names.contains declared.1) =
      commonProperties root (Group.all root) := by
  refine List.filter_congr fun declared _ => congrArg not ?_
  rw [← group_sources, List.any_map, groupedNames, Bool.eq_iff_iff, List.any_eq_true, List.contains_iff_mem,
    List.mem_flatMap]
  exact exists_congr fun group => and_congr_right fun _ => List.contains_iff_mem

theorem fields_fill (options : Options) (root : Json) :
    List.Forall₂ (Slot.Filled root) (layout root) (fields options root) := by
  rw [layout, layout_common, ← group_sources]
  refine List.rel_append ?_ (sections_fill root _ _ _ _)
  refine List.forall₂_map_left_iff.mpr (List.forall₂_map_right_iff.mpr (List.forall₂_same.mpr ?_))
  exact fun declared _ => common_fills root options.maxDepth declared

theorem filled_names (root : Json) (slots : List Slot) (fields : List Field)
    (filled : List.Forall₂ (Slot.Filled root) slots fields) :
    (fields.filter fun field => !field.isHeading).map (fun field => field.name) = slots.filterMap Slot.name? := by
  induction filled with
  | nil => rfl
  | @cons slot field slots fields fills _ ih =>
      cases slot with
      | common name definition =>
          obtain ⟨data, named, _⟩ := fills
          simp [data, named, ih, Slot.name?]
      | heading source =>
          have silent : (Slot.heading source).name? = none := rfl
          simp [fills.1, ih, silent]
      | member source name =>
          obtain ⟨data, named, _⟩ := fills
          simp [data, named, ih, Slot.name?]

theorem layout_names_subset (root : Json) :
    (layout root).filterMap Slot.name? ⊆
      (properties root).keys ++ (sources root).flatMap fun source => source.properties.keys := by
  intro name member
  obtain ⟨slot, inLayout, named⟩ := List.mem_filterMap.mp member
  rcases List.mem_append.mp inLayout with common | grouped
  · obtain ⟨declared, kept, rfl⟩ := List.mem_map.mp common
    cases named
    exact List.mem_append_left _ (List.mem_map_of_mem (List.mem_filter.mp kept).1)
  · obtain ⟨source, listed, inSlots⟩ := List.mem_flatMap.mp grouped
    rcases List.mem_cons.mp inSlots with rfl | inMembers
    · cases named
    · obtain ⟨other, kept, rfl⟩ := List.mem_map.mp inMembers
      cases named
      rcases Bool.or_eq_true_iff.mp (List.mem_filter.mp kept).2 with above | own
      · exact List.mem_append_left _ ((Members.contains_iff name _).mp above)
      · exact List.mem_append_right _ (List.mem_flatMap.mpr ⟨source, listed, (Members.contains_iff name _).mp own⟩)

theorem properties_in_layout (root : Json) : (properties root).keys ⊆ (layout root).filterMap Slot.name? := by
  intro name member
  obtain ⟨declared, listed, rfl⟩ := List.mem_map.mp member
  by_cases grouped : (sources root).any (fun source => source.names.contains declared.1) = true
  · obtain ⟨source, inSources, named⟩ := List.any_eq_true.mp grouped
    have declares : source.declares (properties root) declared.1 = true := by
      rw [Source.declares, (Members.contains_iff declared.1 _).mpr member, Bool.true_or]
    have slot : Slot.member source declared.1 ∈ source.slots (properties root) :=
      List.mem_cons_of_mem _ (List.mem_map_of_mem
        (List.mem_filter.mpr ⟨List.contains_iff_mem.mp named, declares⟩))
    have inLayout : Slot.member source declared.1 ∈ layout root :=
      List.mem_append_right _ (List.mem_flatMap.mpr ⟨source, inSources, slot⟩)
    exact List.mem_filterMap.mpr ⟨_, inLayout, rfl⟩
  · have slot : Slot.common declared.1 declared.2 ∈ layout root :=
      List.mem_append_left _ (List.mem_map_of_mem (List.mem_filter.mpr ⟨listed, by simpa using grouped⟩))
    exact List.mem_filterMap.mpr ⟨_, slot, rfl⟩

theorem fields_laid_out (options : Options) (document : Json) :
    let root := (unwrap document).schema
    let form := Form.ofDocument options document
    List.Forall₂ (Slot.Filled root) (layout root) form.fields ∧
      form.dataNames = (layout root).filterMap Slot.name? ∧
      (properties root).keys ⊆ form.dataNames ∧
      form.dataNames ⊆ (properties root).keys ++ (sources root).flatMap fun source => source.properties.keys := by
  intro root form
  have filled : List.Forall₂ (Slot.Filled root) (layout root) form.fields := by
    rw [form_fields]
    exact fields_fill options root
  have names : form.dataNames = (layout root).filterMap Slot.name? := filled_names root _ _ filled
  refine ⟨filled, names, ?_, ?_⟩
  · rw [names]
    exact properties_in_layout root
  · rw [names]
    exact layout_names_subset root

def orderedDocument : Json := .object
  [("properties", .object [("TYPE", .object []), ("LOAD", .object []), ("NOTE", .object []), ("SPAN", .object [])]),
    ("allOf", .array [.object
      [("if", .object [("properties", .object [("TYPE", .object [("const", .text "BEAM")])])]),
        ("then", .object
          [("required", .array [.text "SPAN", .text "LOST", .text "LOAD"]),
            ("properties", .object [("GRADE", .object []), ("LOAD", .object [])])])]]),
    ("oneOf", .array [.bool true, .object [("properties", .object [("NODE", .object [])])]])]

theorem ordered_document_laid_out :
    (sources (unwrap orderedDocument).schema).map Source.names = [["SPAN", "LOST", "LOAD", "GRADE"], ["NODE"]] ∧
      (Form.ofDocument {} orderedDocument).dataNames = ["TYPE", "NOTE", "SPAN", "LOAD", "GRADE", "NODE"] ∧
      ((Form.ofDocument {} orderedDocument).fields.map fun field => field.path) =
        ["TYPE", "NOTE", "__section_branch_0", "SPAN", "LOAD", "GRADE", "__section_option_1_NODE", "NODE"] := by
  obtain ⟨_, names, _, _⟩ := fields_laid_out {} orderedDocument
  exact ⟨by decide +kernel, names.trans (by decide +kernel), by decide +kernel⟩

end Document

end ConditionalForm
