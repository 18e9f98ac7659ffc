import ConditionalForm.Proofs.KeywordLibrary

set_option autoImplicit false

namespace ConditionalForm

namespace Json

mutual
def unmarked : Json → Bool
  | .object members => unmarkedMembers members
  | .array items => unmarkedItems items
  | _ => true

def unmarkedMembers : List (String × Json) → Bool
  | [] => true
  | (key, value) :: members => !isMarkerKey key && unmarked value && unmarkedMembers members

def unmarkedItems : List Json → Bool
  | [] => true
  | item :: items => unmarked item && unmarkedItems items
end

mutual
theorem strip_unmarked (value : Json) (plain : value.unmarked = true) : value.stripMarkers = value := by
  cases value with
  | object members => rw [stripMarkers, strip_unmarked_members members plain]
  | array items => rw [stripMarkers, strip_unmarked_items items plain]
  | _ => rfl

theorem strip_unmarked_members (members : List (String × Json)) (plain : unmarkedMembers members = true) :
    stripMembers members = members := by
  cases members with
  | nil => rfl
  | cons member members =>
      obtain ⟨key, value⟩ := member
      simp only [unmarkedMembers, Bool.and_eq_true, Bool.not_eq_true'] at plain
      rw [stripMembers, if_neg (Bool.eq_false_iff.mp plain.1.1), strip_unmarked value plain.1.2,
        strip_unmarked_members members plain.2]

theorem strip_unmarked_items (items : List Json) (plain : unmarkedItems items = true) :
    stripItems items = items := by
  cases items with
  | nil => rfl
  | cons item items =>
      obtain ⟨first, others⟩ := Bool.and_eq_true_iff.mp plain
      rw [stripItems, strip_unmarked item first, strip_unmarked_items items others]
end

theorem scalar_stripped (value : Json) : value.stripMarkers.isScalar = value.isScalar := by
  cases value <;> rfl

theorem scalar_kept (value : Json) (scalar : value.isScalar = true) : value.stripMarkers = value := by
  cases value with
  | array items => cases scalar
  | object members => cases scalar
  | _ => rfl

theorem scalars_stripped (items : List Json) : (stripItems items).all isScalar = items.all isScalar := by
  induction items with
  | nil => rfl
  | cons item items ih => rw [stripItems, List.all_cons, List.all_cons, scalar_stripped, ih]

theorem scalars_kept (items : List Json) (scalars : items.all isScalar = true) : stripItems items = items := by
  induction items with
  | nil => rfl
  | cons item items ih =>
      obtain ⟨first, others⟩ := Bool.and_eq_true_iff.mp scalars
      rw [stripItems, scalar_kept item first, ih others]

theorem flat_stripped (value : Json) : value.stripMarkers.isFlat = value.isFlat := by
  cases value with
  | array items => exact scalars_stripped items
  | _ => rfl

theorem flat_kept (value : Json) (flat : value.isFlat = true) : value.stripMarkers = value := by
  cases value with
  | array items => rw [stripMarkers, scalars_kept items flat]
  | object members => cases flat
  | _ => rfl

theorem marker_unknown (key : String) (marker : isMarkerKey key = true) : keywordKind? key = none := by
  unfold keywordKind?
  split
  case h_14 => rfl
  all_goals cases marker

def PlainMember (member : String × Json) : Prop :=
  (keywordKind? member.1 = some .data → member.2.unmarked = true) ∧
    (keywordKind? member.1 = some .properties → ∀ property ∈ member.2.members?.getD [], isMarkerKey property.1 = false)

instance (member : String × Json) : Decidable (PlainMember member) := inferInstanceAs (Decidable (_ ∧ _))

def PlainNames (schema : Json) : Prop :=
  ∀ inner ∈ schema.subschemas, ∀ member ∈ inner.members?.getD [], PlainMember member

instance (schema : Json) : Decidable schema.PlainNames :=
  inferInstanceAs (Decidable (∀ inner ∈ schema.subschemas, ∀ member ∈ inner.members?.getD [], PlainMember member))

mutual
theorem part_stripped (schema : Json) (plain : PlainNames schema) :
    knownPart? schema.stripMarkers = knownPart? schema := by
  cases schema with
  | object members =>
      obtain ⟨own, inside⟩ := List.forall_mem_cons.mp plain
      rw [stripMarkers, knownPart?, knownPart?, members_stripped members own inside]
  | _ => rfl

theorem members_stripped (members : List (String × Json)) (own : ∀ member ∈ members, PlainMember member)
    (inside : ∀ inner ∈ memberSchemas members, ∀ member ∈ inner.members?.getD [], PlainMember member) :
    knownMembers? (stripMembers members) = knownMembers? members := by
  cases members with
  | nil => rfl
  | cons member members =>
      obtain ⟨key, value⟩ := member
      obtain ⟨first, others⟩ := List.forall_mem_cons.mp own
      obtain ⟨within, deeper⟩ := List.forall_mem_append.mp inside
      have rest := members_stripped members others deeper
      rw [stripMembers]
      by_cases marker : isMarkerKey key = true
      · rw [if_pos marker, rest, known_members_unknown key value members (marker_unknown key marker)]
      · rw [if_neg marker]
        cases known : keywordKind? key with
        | none => rw [known_members_unknown key _ _ known, known_members_unknown key _ _ known, rest]
        | some kind =>
            rw [known_members_cons key _ _ kind known, known_members_cons key _ _ kind known, rest]
            rw [known] at within
            congr 1
            cases kind with
            | schema => exact part_stripped value within
            | schemas => exact list_stripped value within
            | properties => exact properties_stripped value (first.2 known) within
            | data => rw [strip_unmarked value (first.1 known)]
            | plain =>
                rw [knownValue?, knownValue?, flat_stripped]
                cases flat : value.isFlat with
                | false => rfl
                | true => rw [flat_kept value flat]

theorem list_stripped (value : Json)
    (inside : ∀ inner ∈ listSchemas value, ∀ member ∈ inner.members?.getD [], PlainMember member) :
    knownList? value.stripMarkers = knownList? value := by
  cases value with
  | array items => rw [stripMarkers, knownList?, knownList?, items_stripped items inside]
  | _ => rfl

theorem items_stripped (items : List Json)
    (inside : ∀ inner ∈ itemSchemas items, ∀ member ∈ inner.members?.getD [], PlainMember member) :
    knownItems? (stripItems items) = knownItems? items := by
  cases items with
  | nil => rfl
  | cons item items =>
      obtain ⟨first, others⟩ := List.forall_mem_append.mp inside
      rw [stripItems, knownItems?, knownItems?, part_stripped item first, items_stripped items others]

theorem properties_stripped (value : Json)
    (names : ∀ property ∈ value.members?.getD [], isMarkerKey property.1 = false)
    (inside : ∀ inner ∈ propertySchemas value, ∀ member ∈ inner.members?.getD [], PlainMember member) :
    knownProperties? value.stripMarkers = knownProperties? value := by
  cases value with
  | object members => rw [stripMarkers, knownProperties?, knownProperties?, named_stripped members names inside]
  | _ => rfl

theorem named_stripped (members : List (String × Json)) (names : ∀ member ∈ members, isMarkerKey member.1 = false)
    (inside : ∀ inner ∈ namedSchemas members, ∀ member ∈ inner.members?.getD [], PlainMember member) :
    knownNamed? (stripMembers members) = knownNamed? members := by
  cases members with
  | nil => rfl
  | cons member members =>
      obtain ⟨name, schema⟩ := member
      obtain ⟨unmarked, otherNames⟩ := List.forall_mem_cons.mp names
      obtain ⟨first, others⟩ := List.forall_mem_append.mp inside
      rw [stripMembers, if_neg (Bool.eq_false_iff.mp unmarked), knownNamed?, knownNamed?, part_stripped schema first,
        named_stripped members otherNames others]
end

theorem both_stripped {first second firstOrigins secondOrigins : List Json}
    (own : first ⊆ firstOrigins.map stripMarkers) (others : second ⊆ secondOrigins.map stripMarkers) :
    first ++ second ⊆ (firstOrigins ++ secondOrigins).map stripMarkers := by
  rw [List.map_append]
  exact List.append_subset.mpr
    ⟨List.subset_append_of_subset_left _ own, List.subset_append_of_subset_right _ others⟩

theorem later_stripped {stripped origins : List Json} (earlier : List Json)
    (others : stripped ⊆ origins.map stripMarkers) : stripped ⊆ (earlier ++ origins).map stripMarkers := by
  rw [List.map_append]
  exact List.subset_append_of_subset_right _ others

mutual
theorem subschemas_stripped (schema : Json) :
    schema.stripMarkers.subschemas ⊆ schema.subschemas.map stripMarkers := by
  cases schema with
  | object members => exact List.cons_subset_cons _ (member_schemas_stripped members)
  | _ => exact List.Subset.refl _

theorem member_schemas_stripped (members : List (String × Json)) :
    memberSchemas (stripMembers members) ⊆ (memberSchemas members).map stripMarkers := by
  cases members with
  | nil => exact List.nil_subset _
  | cons member members =>
      obtain ⟨key, value⟩ := member
      have rest := member_schemas_stripped members
      have own : valueSchemas (keywordKind? key) value.stripMarkers ⊆
          (valueSchemas (keywordKind? key) value).map stripMarkers := by
        cases keywordKind? key with
        | none => exact List.nil_subset _
        | some kind =>
            cases kind with
            | schema => exact subschemas_stripped value
            | schemas => exact list_schemas_stripped value
            | properties => exact property_schemas_stripped value
            | data => exact List.nil_subset _
            | plain => exact List.nil_subset _
      rw [stripMembers]
      split
      · exact later_stripped _ rest
      · exact both_stripped own rest

theorem list_schemas_stripped (value : Json) :
    listSchemas value.stripMarkers ⊆ (listSchemas value).map stripMarkers := by
  cases value with
  | array items => exact item_schemas_stripped items
  | _ => exact List.nil_subset _

theorem item_schemas_stripped (items : List Json) :
    itemSchemas (stripItems items) ⊆ (itemSchemas items).map stripMarkers := by
  cases items with
  | nil => exact List.nil_subset _
  | cons item items => exact both_stripped (subschemas_stripped item) (item_schemas_stripped items)

theorem property_schemas_stripped (value : Json) :
    propertySchemas value.stripMarkers ⊆ (propertySchemas value).map stripMarkers := by
  cases value with
  | object members => exact named_schemas_stripped members
  | _ => exact List.nil_subset _

theorem named_schemas_stripped (members : List (String × Json)) :
    namedSchemas (stripMembers members) ⊆ (namedSchemas members).map stripMarkers := by
  cases members with
  | nil => exact List.nil_subset _
  | cons member members =>
      obtain ⟨name, schema⟩ := member
      have rest := named_schemas_stripped members
      rw [stripMembers]
      split
      · exact later_stripped _ rest
      · exact both_stripped (subschemas_stripped schema) rest
end

theorem mem_strip_members (members : List (String × Json)) (member : String × Json)
    (kept : member ∈ stripMembers members) : ∃ value, (member.1, value) ∈ members := by
  induction members with
  | nil => cases kept
  | cons first members ih =>
      obtain ⟨key, value⟩ := first
      rw [stripMembers] at kept
      split at kept
      · obtain ⟨value, found⟩ := ih kept
        exact ⟨value, List.mem_cons_of_mem _ found⟩
      · rcases List.mem_cons.mp kept with rfl | later
        · exact ⟨value, List.mem_cons_self⟩
        · obtain ⟨value, found⟩ := ih later
          exact ⟨value, List.mem_cons_of_mem _ found⟩

theorem covered_stripped (knows : String → Bool) (schema : Json) (covered : schema.Covered knows) :
    schema.stripMarkers.Covered knows := by
  intro inner listed member own
  obtain ⟨origin, found, rfl⟩ := List.mem_map.mp (subschemas_stripped schema listed)
  cases origin with
  | object members =>
      obtain ⟨value, inOrigin⟩ := mem_strip_members members member own
      exact covered _ found (member.1, value) inOrigin
  | _ => cases own

end Json

end ConditionalForm
