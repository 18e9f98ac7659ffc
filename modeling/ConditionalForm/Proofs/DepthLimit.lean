import ConditionalForm.Proofs.PlainPaths

set_option autoImplicit false

namespace ConditionalForm

namespace Field

mutual
def truncate (limit : Nat) : Field → Field
  | ⟨attributes, children⟩ => ⟨attributes, if limit ≤ attributes.level then [] else truncateAll limit children⟩

def truncateAll (limit : Nat) : List Field → List Field
  | [] => []
  | field :: fields => truncate limit field :: truncateAll limit fields
end

mutual
def Levelled (level : Nat) : Field → Prop
  | ⟨attributes, children⟩ => attributes.level = level ∧ LevelledAll (level + 1) children

def LevelledAll (level : Nat) : List Field → Prop
  | [] => True
  | field :: fields => Levelled level field ∧ LevelledAll level fields
end

theorem truncate_all_map (limit : Nat) (fields : List Field) :
    truncateAll limit fields = fields.map (truncate limit) := by
  induction fields with
  | nil => rfl
  | cons field fields ih => rw [truncateAll, ih, List.map_cons]

theorem levelled_all_iff (level : Nat) (fields : List Field) :
    LevelledAll level fields ↔ ∀ field ∈ fields, Levelled level field := by
  induction fields with
  | nil => simp [LevelledAll]
  | cons field fields ih => simp [LevelledAll, ih]

theorem truncate_deep (limit : Nat) (attributes : Attributes) (children : List Field)
    (deep : limit ≤ attributes.level) : truncate limit ⟨attributes, children⟩ = ⟨attributes, []⟩ := by
  simp [truncate, deep]

theorem truncate_shallow (limit : Nat) (attributes : Attributes) (children : List Field)
    (shallow : attributes.level < limit) :
    truncate limit ⟨attributes, children⟩ = ⟨attributes, children.map (truncate limit)⟩ := by
  simp [truncate, truncate_all_map, Nat.not_le.mpr shallow]

theorem truncate_with (limit : Nat) (field : Field) (attributes : Attributes) (same : attributes.level = field.level) :
    truncate limit ⟨attributes, field.children⟩ = ⟨attributes, (truncate limit field).children⟩ := by
  obtain ⟨own, children⟩ := field
  by_cases deep : limit ≤ own.level
  · rw [truncate_deep limit own children deep, truncate_deep limit attributes children (same ▸ deep)]
  · have shallow := Nat.not_le.mp deep
    rw [truncate_shallow limit own children shallow, truncate_shallow limit attributes children (same ▸ shallow)]

theorem truncate_childless (limit : Nat) (attributes : Attributes) :
    truncate limit ⟨attributes, []⟩ = ⟨attributes, []⟩ := by
  simp [truncate, truncateAll]

theorem levelled_with (level : Nat) (field : Field) (attributes : Attributes) (same : attributes.level = field.level)
    (levelled : Levelled level field) : Levelled level ⟨attributes, field.children⟩ := by
  obtain ⟨own, children⟩ := field
  exact ⟨same.trans levelled.1, levelled.2⟩

mutual
theorem levelled_walk (level : Nat) (field : Field) (levelled : Levelled level field) :
    ∀ inner ∈ walk field, level ≤ inner.level ∧ ∀ child ∈ inner.children, child.level = inner.level + 1 := by
  obtain ⟨attributes, children⟩ := field
  obtain ⟨here, below⟩ := levelled
  intro inner walked
  rcases List.mem_cons.mp walked with rfl | deeper
  · refine ⟨Nat.le_of_eq here.symm, fun child member => ?_⟩
    have childLevelled := (levelled_all_iff (level + 1) children).mp below child member
    obtain ⟨childAttributes, grandchildren⟩ := child
    rw [childLevelled.1, here]
  · obtain ⟨deep, steps⟩ := levelled_walk_all (level + 1) children below inner deeper
    exact ⟨by omega, steps⟩

theorem levelled_walk_all (level : Nat) (fields : List Field) (levelled : LevelledAll level fields) :
    ∀ inner ∈ walkAll fields, level ≤ inner.level ∧ ∀ child ∈ inner.children, child.level = inner.level + 1 := by
  cases fields with
  | nil => exact nofun
  | cons field fields =>
      intro inner walked
      rcases List.mem_append.mp walked with first | later
      · exact levelled_walk level field levelled.1 inner first
      · exact levelled_walk_all level fields levelled.2 inner later
end

mutual
theorem walk_truncated (limit level : Nat) (field : Field) (levelled : Levelled level field)
    (shallow : level ≤ limit) : (walk (truncate limit field)).map toAttributes =
      ((walk field).filter fun inner => inner.level ≤ limit).map toAttributes := by
  obtain ⟨attributes, children⟩ := field
  obtain ⟨rfl, below⟩ := levelled
  by_cases reached : limit ≤ attributes.level
  · have dropped : (walkAll children).filter (fun inner => inner.level ≤ limit) = [] := by
      refine List.filter_eq_nil_iff.mpr fun inner walked => ?_
      have deep := (levelled_walk_all (attributes.level + 1) children below inner walked).1
      rw [decide_eq_true_eq]
      omega
    simp [truncate, reached, walk, walkAll, dropped, shallow]
  · have kept := walk_all_truncated limit (attributes.level + 1) children below (by omega)
    simp [truncate, reached, walk, kept, shallow]

theorem walk_all_truncated (limit level : Nat) (fields : List Field) (levelled : LevelledAll level fields)
    (shallow : level ≤ limit) : (walkAll (truncateAll limit fields)).map toAttributes =
      ((walkAll fields).filter fun inner => inner.level ≤ limit).map toAttributes := by
  cases fields with
  | nil => rfl
  | cons field fields =>
      rw [truncateAll, walkAll, walkAll, List.map_append, List.filter_append, List.map_append,
        walk_truncated limit level field levelled.1 shallow, walk_all_truncated limit level fields levelled.2 shallow]
end

end Field

namespace Document

open ConditionalForm.Field

theorem build_childless (level : Nat) (path : String) (property : Property) :
    build 0 level path property = ⟨attributes level path property, []⟩ := rfl

theorem build_made (depth level : Nat) (path : String) (property : Property) :
    build (depth + 1) level path property = ⟨attributes level path property,
      (entriesOf path property.definition).map (Entry.field depth (level + 1))⟩ := by
  rw [← build_children]
  rfl

-- The induction is on the smaller depth: with each level the limit comes one level closer.
theorem build_truncated (depth more level : Nat) (path : String) (property : Property) :
    (build (depth + more) level path property).truncate (level + depth) = build depth level path property := by
  induction depth generalizing level path property with
  | zero =>
      have cut (children : List Field) :=
        truncate_deep level (attributes level path property) children (Nat.le_refl level)
      rw [build_childless, Nat.zero_add]
      cases more with
      | zero => rw [build_childless, Nat.add_zero, cut]
      | succ more => rw [build_made, Nat.add_zero, cut]
  | succ depth ih =>
      have above : (attributes level path property).level < level + (depth + 1) := by
        apply Nat.lt_add_of_pos_right
        exact Nat.succ_pos depth
      have deeper : depth + 1 + more = depth + more + 1 := by omega
      have closer : level + 1 + depth = level + (depth + 1) := by omega
      rw [deeper, build_made, build_made, truncate_shallow _ _ _ above, List.map_map]
      refine congrArg (Field.mk (attributes level path property)) (List.map_congr_left fun entry _ => ?_)
      cases entry with
      | heading inner label optionIndex => exact truncate_childless _ _
      | property inner below =>
          have cut := ih (level + 1) inner below
          rwa [closer] at cut

theorem build_levelled (depth level : Nat) (path : String) (property : Property) :
    Levelled level (build depth level path property) := by
  induction depth generalizing level path property with
  | zero => exact ⟨rfl, trivial⟩
  | succ depth ih =>
      refine ⟨rfl, (levelled_all_iff _ _).mpr fun child member => ?_⟩
      obtain ⟨entry, _, rfl⟩ := List.mem_map.mp member
      cases entry with
      | heading path label optionIndex => exact ⟨rfl, trivial⟩
      | property path inner => exact ih (level + 1) path inner

theorem scope_level (group : Group) (field : Attributes) : (group.scope field).level = field.level := by
  rw [Group.scope]
  cases group.kind <;> rfl

section Groups

variable (root : Members) (groups : List Group) (depth more : Nat)

theorem member_truncated (group : Group) (path name : String) (definition : Json) :
    (group.field root groups (depth + more) path name definition).truncate depth =
      group.field root groups depth path name definition := by
  have cut := build_truncated depth more 0 path ⟨name, definition, group.requirement root groups name, none⟩
  rw [Nat.zero_add] at cut
  rw [Group.field, truncate_with depth _ _ (scope_level group _), cut, build_attributes, Group.field, build_attributes]

theorem member_levelled (group : Group) (path name : String) (definition : Json) :
    Levelled 0 (group.field root groups depth path name definition) :=
  levelled_with 0 _ _ (scope_level group _) (build_levelled depth 0 path _)

theorem heading_levelled (group : Group) : Levelled 0 group.heading := ⟨scope_level group _, trivial⟩

theorem sections_truncated (claimed : List String) (rest : List Group) :
    ((sectionsFrom root groups (depth + more) claimed rest).flatMap Section.fields).map (truncate depth) =
      (sectionsFrom root groups depth claimed rest).flatMap Section.fields := by
  induction rest generalizing claimed with
  | nil => rfl
  | cons group others ih =>
      rw [sectionsFrom, sectionsFrom, List.flatMap_cons, List.flatMap_cons, List.map_append, ih]
      have heading : group.heading.truncate depth = group.heading := truncate_childless depth _
      rw [Section.fields, Section.fields, List.map_cons, heading, List.map_map]
      congr 2
      exact List.map_congr_left fun entry _ => member_truncated root groups depth more group _ _ _

end Groups

theorem common_truncated (root : Json) (groups : List Group) (depth more : Nat) :
    (commonFields root groups (depth + more)).map (truncate depth) = commonFields root groups depth := by
  rw [commonFields, commonFields, List.map_map]
  refine List.map_congr_left fun declared _ => ?_
  have cut := build_truncated depth more 0 declared.1
    ⟨declared.1, declared.2, .fixed ((requiredNames root).contains declared.1), none⟩
  rwa [Nat.zero_add] at cut

theorem fields_truncated (options : Options) (root : Json) (limit : Nat) (within : limit ≤ options.maxDepth) :
    truncateAll limit (fields options root) = fields { options with maxDepth := limit } root := by
  obtain ⟨more, total⟩ := Nat.exists_eq_add_of_le within
  rw [truncate_all_map, fields, fields, List.map_append, sections, sections, total, common_truncated,
    sections_truncated]

theorem fields_levelled (options : Options) (root : Json) : LevelledAll 0 (fields options root) := by
  refine (levelled_all_iff 0 _).mpr fun field member => ?_
  rcases top_field_cases options root field member with common | ⟨part, emitted, rfl | inPart⟩
  · obtain ⟨declared, _, rfl⟩ := List.mem_map.mp common
    exact build_levelled _ 0 _ _
  · exact heading_levelled part.group
  · obtain ⟨path, name, definition, _, _, rfl⟩ := (section_members _ _ _ _ _ part emitted).2 field inPart
    exact member_levelled _ _ _ part.group path name definition

theorem form_truncated (options : Options) (document : Json) (limit : Nat) (within : limit ≤ options.maxDepth) :
    Form.ofDocument { options with maxDepth := limit } document =
      { Form.ofDocument options document with
        fields := truncateAll limit (Form.ofDocument options document).fields } := by
  dsimp only [Form.ofDocument]
  cases (unwrap document).schema with
  | object members => simp only [fields_truncated options _ limit within]; rfl
  | _ => rfl

theorem form_levelled (options : Options) (document : Json) :
    LevelledAll 0 (Form.ofDocument options document).fields := by
  rw [form_fields]
  exact fields_levelled options _

theorem surviving_fields (options : Options) (document : Json) (limit : Nat) (within : limit ≤ options.maxDepth) :
    (Form.ofDocument { options with maxDepth := limit } document).allFields.map toAttributes =
      ((Form.ofDocument options document).allFields.filter fun field => field.level ≤ limit).map toAttributes := by
  rw [form_truncated options document limit within]
  exact walk_all_truncated limit 0 _ (form_levelled options document) (Nat.zero_le limit)

theorem level_bounded (options : Options) (document : Json) (field : Field)
    (member : field ∈ (Form.ofDocument options document).allFields) : field.level ≤ options.maxDepth := by
  have listed : field.toAttributes ∈ (Form.ofDocument options document).allFields.map toAttributes :=
    List.mem_map_of_mem member
  rw [surviving_fields options document options.maxDepth (Nat.le_refl _)] at listed
  obtain ⟨survivor, kept, same⟩ := List.mem_map.mp listed
  rw [← same]
  exact of_decide_eq_true (List.mem_filter.mp kept).2

theorem depth_limit_truncates (options : Options) (document : Json) (limit : Nat)
    (within : limit ≤ options.maxDepth) :
    let whole := Form.ofDocument options document
    let cut := Form.ofDocument { options with maxDepth := limit } document
    cut = { whole with fields := truncateAll limit whole.fields } ∧
      cut.allFields.map toAttributes = (whole.allFields.filter fun field => field.level ≤ limit).map toAttributes ∧
      (∀ field ∈ whole.fields, field.level = 0) ∧
      ∀ field ∈ whole.allFields, field.level ≤ options.maxDepth ∧
        ∀ child ∈ field.children, child.level = field.level + 1 := by
  intro whole cut
  have levelled := form_levelled options document
  refine ⟨form_truncated options document limit within, surviving_fields options document limit within,
    fun field member => ?_, fun field member => ⟨level_bounded options document field member, ?_⟩⟩
  · obtain ⟨attributes, children⟩ := field
    exact ((levelled_all_iff 0 _).mp levelled _ member).1
  · exact (levelled_walk_all 0 _ levelled field member).2

def girderDocument : Json := .object
  [("properties", .object
      [("TRUSS", .object
          [("required", .array [.text "BAR"]),
            ("properties", .object
              [("BAR", .object [("properties", .object [("AREA", .object [("type", .text "number")])])])]),
            ("oneOf", .array [.object [("properties", .object [("BAR", .object []), ("CABLE", .object [])])]])]),
        ("LOADS", .object
          [("type", .text "array"), ("items", .object [("properties", .object [("FX", .object [])])])])])]

theorem girder_cut_at_one :
    1 ≤ ({} : Options).maxDepth ∧ Form.ofDocument { maxDepth := 1 } girderDocument =
        { Form.ofDocument {} girderDocument with
          fields := truncateAll 1 (Form.ofDocument {} girderDocument).fields } ∧
      ((Form.ofDocument { maxDepth := 1 } girderDocument).allFields.map fun field => (field.path, field.level)) =
        [("TRUSS", 0), ("TRUSS.BAR", 1), ("TRUSS.__section_0", 1), ("TRUSS.option_0.BAR", 1), ("TRUSS.CABLE", 1),
          ("LOADS", 0), ("LOADS[].FX", 1)] ∧
      ((Form.ofDocument {} girderDocument).find? "TRUSS.BAR.AREA").isSome = true := by
  have cut := depth_limit_truncates {} girderDocument 1 (by decide)
  exact ⟨by decide, cut.1, by decide +kernel, by decide +kernel⟩

end Document

end ConditionalForm
