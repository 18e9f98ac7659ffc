import ConditionalForm.Proofs.Sections
import ConditionalForm.Proofs.WellFormed

set_option autoImplicit false

namespace ConditionalForm.Document

structure Hereditary (holds : Json → Prop) : Prop where
  member : ∀ members, holds (.object members) → ∀ member ∈ members, holds member.2
  item : ∀ items, holds (.array items) → ∀ item ∈ items, holds item
  overlay : ∀ base own, holds (.object base) → holds (.object own) →
    holds (.object (Members.overlay base own))

structure SchemaHereditary (holds : Json → Prop) : Prop where
  property : ∀ schema, holds schema → ∀ member ∈ properties schema, holds member.2
  items : ∀ schema, holds schema → ∀ inner, schema.get? "items" = some inner → holds inner
  listed : ∀ keyword ∈ ["allOf", "oneOf", "anyOf"], ∀ schema, holds schema →
    ∀ item ∈ ((schema.get? keyword).bind Json.items?).getD [], holds item
  consequence : ∀ schema, holds schema → ∀ inner, schema.get? "then" = some inner → holds inner
  overlay : ∀ base own, holds (.object base) → holds (.object own) →
    holds (.object (Members.overlay base own))

theorem well_formed_hereditary : Hereditary Json.WellFormed where
  member := fun members whole => (Json.well_formed_members_iff members).mp whole.2
  item := fun items whole => (Json.well_formed_items_iff items).mp whole
  overlay := fun base own wholeBase wholeOwn => Json.well_formed_overlay base own wholeBase wholeOwn.2

theorem anything_hereditary : Hereditary fun _ => True where
  member := fun _ _ _ _ => trivial
  item := fun _ _ _ _ => trivial
  overlay := fun _ _ _ _ => trivial

structure BuiltFor (depth : Nat) (field : Field) (property : Property) : Prop where
  name : field.name = property.name
  type : field.type = FieldType.ofDefinition property.definition
  children : field.children = (build depth 0 field.path property).children

theorem group_object (field : Field) (depth : Nat) (property : Property) (built : BuiltFor depth field property)
    (group : field.isGroup = true) : FieldType.ofDefinition property.definition = .object :=
  built.type ▸ beq_iff_eq.mp (Bool.and_eq_true_iff.mp group).1

variable {holds : Json → Prop}

section Values

variable (hereditary : Hereditary holds)

include hereditary

theorem hereditary_get (value : Json) (whole : holds value) (name : String) (inner : Json)
    (found : value.get? name = some inner) : holds inner := by
  cases value with
  | object members => exact hereditary.member members whole _ (Members.mem_of_find name members inner found)
  | _ => cases found

theorem hereditary_items (value : Json) (whole : holds value) (name : String) :
    ∀ item ∈ ((value.get? name).bind Json.items?).getD [], holds item := by
  rcases items_cases name value with empty | found
  · rw [empty]
    exact List.forall_mem_nil _
  · exact hereditary.item _ (hereditary_get hereditary value whole name _ found)

theorem hereditary_properties (schema : Json) (whole : holds schema) :
    ∀ member ∈ properties schema, holds member.2 := by
  rcases properties_cases schema with empty | found
  · rw [empty]
    exact List.forall_mem_nil _
  · exact hereditary.member _ (hereditary_get hereditary schema whole "properties" _ found)

theorem Hereditary.in_schemas : SchemaHereditary holds where
  property := hereditary_properties hereditary
  items := fun schema whole => hereditary_get hereditary schema whole "items"
  listed := fun keyword _ schema whole => hereditary_items hereditary schema whole keyword
  consequence := fun schema whole => hereditary_get hereditary schema whole "then"
  overlay := hereditary.overlay

theorem hereditary_layer (document : Json) (whole : holds document) (layer : Layer) (inner : Json)
    (found : layer? document = some (layer, inner)) : holds inner := by
  unfold layer? at found
  split at found
  · rename_i members
    split at found
    · split at found
      · rename_i inProperties
        obtain ⟨_, made⟩ := Option.ite_none_right_eq_some.mp found
        cases made
        have inside := hereditary_get hereditary (.object members) whole "properties" _ inProperties
        exact hereditary.member _ inside _ List.mem_cons_self
      · cases found
    · split at found
      · cases found
        exact hereditary.member _ whole _ List.mem_cons_self
      · cases found
  · cases found

theorem hereditary_unwrap_within (most named argument : Nat) (document : Json) (whole : holds document) :
    holds (unwrapWithin most named argument document).schema := by
  induction most generalizing named argument document with
  | zero => exact whole
  | succ most ih =>
      unfold unwrapWithin
      split
      · rename_i found
        exact ih _ _ _ (hereditary_layer hereditary document whole _ _ found)
      · rename_i found
        exact ih _ _ _ (hereditary_layer hereditary document whole _ _ found)
      · exact whole

theorem hereditary_unwrap (document : Json) (whole : holds document) : holds (unwrap document).schema :=
  hereditary_unwrap_within hereditary 4 2 2 document whole

end Values

variable (hereditary : SchemaHereditary holds)

include hereditary

theorem hereditary_conditional (root : Json) (whole : holds root) (conditional : Conditional)
    (member : conditional ∈ conditionals root) : holds conditional.consequence := by
  rcases conditional_cases root conditional member with ⟨entry, listed, inEntry⟩ | own
  · have inside := hereditary.listed "allOf" (by decide) root whole entry listed
    exact hereditary.consequence entry inside _ inEntry.consequence
  · exact hereditary.consequence root whole _ own.consequence

theorem hereditary_alternative (root : Json) (whole : holds root) (alternative : Json)
    (member : alternative ∈ Group.alternatives root) : holds alternative := by
  rw [Group.alternatives] at member
  cases found : root.get? "oneOf" with
  | none =>
      rw [found, Option.none_or] at member
      exact hereditary.listed "anyOf" (by decide) root whole alternative member
  | some inner =>
      rw [found, Option.some_or, ← found] at member
      exact hereditary.listed "oneOf" (by decide) root whole alternative member

theorem group_source (root : Json) (whole : holds root) (group : Group) (member : group ∈ Group.all root) :
    ∃ source, holds source ∧ group.required = requiredNames source ∧ group.properties = properties source := by
  rcases List.mem_append.mp member with branch | option
  · obtain ⟨_, conditional, _, inConditionals, rfl⟩ := mem_branches root group branch
    exact ⟨_, hereditary_conditional hereditary root whole conditional inConditionals, rfl, rfl⟩
  · obtain ⟨_, alternative, inAlternatives, rfl⟩ := mem_options root group option
    exact ⟨alternative, hereditary_alternative hereditary root whole alternative inAlternatives, rfl, rfl⟩

theorem hereditary_definition (root own : Members) (wholeRoot : ∀ member ∈ root, holds member.2)
    (wholeOwn : ∀ member ∈ own, holds member.2) (name : String) (definition : Json)
    (found : definition? root own name = some definition) : holds definition := by
  have inRoot (value : Json) (held : Members.find? name root = some value) : holds value :=
    wholeRoot _ (Members.mem_of_find name root value held)
  have inOwn (value : Json) (held : Members.find? name own = some value) : holds value :=
    wholeOwn _ (Members.mem_of_find name own value held)
  unfold definition? overlaid at found
  split at found
  · rename_i base above heldBase heldAbove
    cases found
    exact hereditary.overlay base above (inRoot _ heldBase) (inOwn _ heldAbove)
  · rename_i held _
    cases found
    exact inOwn _ held
  · rename_i held _
    cases found
    exact inRoot _ held
  · cases found

theorem top_field_built (options : Options) (root : Json) (whole : holds root) (field : Field)
    (member : field ∈ fields options root) (data : field.isHeading = false) :
    ∃ property, holds property.definition ∧ BuiltFor options.maxDepth field property := by
  have wholeRoot := hereditary.property root whole
  rcases data_field_cases options root field member data with common | ⟨part, emitted, inPart⟩
  · obtain ⟨entry, inCommon, rfl⟩ := List.mem_map.mp common
    refine ⟨⟨entry.1, entry.2, .fixed ((requiredNames root).contains entry.1), none⟩,
      wholeRoot entry (List.mem_filter.mp inCommon).1, ?_, ?_, ?_⟩
    · exact build_name _ _ _ _
    · exact congrArg Attributes.type (build_attributes _ _ _ _)
    · rw [build_attributes]
      rfl
  · obtain ⟨inGroups, anatomy⟩ := section_members _ _ _ _ _ part emitted
    obtain ⟨path, name, definition, _, found, rfl⟩ := anatomy field inPart
    obtain ⟨source, wholeSource, _, own⟩ := group_source hereditary root whole part.group inGroups
    rw [own] at found
    have defined := hereditary_definition hereditary _ _ wholeRoot
      (hereditary.property source wholeSource) name definition found
    refine ⟨⟨name, definition, part.group.requirement (properties root) (Group.all root) name, none⟩,
      defined, ?_, ?_, ?_⟩
    · exact member_name _ _ _ _ path name definition
    · rw [member_attributes, scope_type]
      rfl
    · rw [group_field_path]
      rfl

end ConditionalForm.Document
