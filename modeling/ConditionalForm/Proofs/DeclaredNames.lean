import ConditionalForm.Proofs.Hereditary
import ConditionalForm.Proofs.Paths

set_option autoImplicit false

namespace ConditionalForm.Document

def declaredBy (key : String) (value : Json) : List String :=
  if key = "properties" then Members.keys (value.members?.getD [])
  else if key = "required" then Json.textItems (some value)
  else []

mutual
def declaredNames : Json → List String
  | .array items => declaredInItems items
  | .object members => declaredInMembers members
  | _ => []
def declaredInItems : List Json → List String
  | [] => []
  | item :: items => declaredNames item ++ declaredInItems items
def declaredInMembers : List (String × Json) → List String
  | [] => []
  | (key, value) :: members =>
      declaredBy key value ++ declaredNames value ++ declaredInMembers members
end

structure Regular (value : Json) : Prop where
  wellFormed : value.WellFormed
  plain : ∀ name ∈ declaredNames value, PlainName name

theorem plain_in_items_iff (items : List Json) :
    (∀ name ∈ declaredInItems items, PlainName name) ↔
      ∀ item ∈ items, ∀ name ∈ declaredNames item, PlainName name := by
  induction items with
  | nil => simp [declaredInItems]
  | cons item items ih =>
      rw [declaredInItems, List.forall_mem_append, List.forall_mem_cons, ih]

theorem plain_in_members_iff (members : Members) :
    (∀ name ∈ declaredInMembers members, PlainName name) ↔
      ∀ member ∈ members, (∀ name ∈ declaredBy member.1 member.2, PlainName name) ∧
        ∀ name ∈ declaredNames member.2, PlainName name := by
  induction members with
  | nil => simp [declaredInMembers]
  | cons member members ih =>
      rw [declaredInMembers, List.forall_mem_append, List.forall_mem_append, List.forall_mem_cons, ih]

theorem regular_array_iff (items : List Json) :
    Regular (.array items) ↔ ∀ item ∈ items, Regular item := by
  constructor
  · intro whole item member
    obtain ⟨wells, plain⟩ := whole
    exact ⟨(Json.well_formed_items_iff items).mp wells item member,
      (plain_in_items_iff items).mp plain item member⟩
  · intro each
    exact ⟨(Json.well_formed_items_iff items).mpr fun item member => (each item member).wellFormed,
      (plain_in_items_iff items).mpr fun item member => (each item member).plain⟩

theorem regular_object_iff (members : Members) :
    Regular (.object members) ↔ (Members.keys members).Nodup ∧ ∀ member ∈ members,
      (∀ name ∈ declaredBy member.1 member.2, PlainName name) ∧ Regular member.2 := by
  constructor
  · intro whole
    obtain ⟨wells, plain⟩ := whole
    refine ⟨wells.1, fun member inMembers => ?_⟩
    have declared := (plain_in_members_iff members).mp plain member inMembers
    exact ⟨declared.1, (Json.well_formed_members_iff members).mp wells.2 member inMembers, declared.2⟩
  · intro whole
    obtain ⟨distinct, each⟩ := whole
    exact ⟨⟨distinct, (Json.well_formed_members_iff members).mpr fun member inMembers =>
        (each member inMembers).2.wellFormed⟩,
      (plain_in_members_iff members).mpr fun member inMembers =>
        ⟨(each member inMembers).1, (each member inMembers).2.plain⟩⟩

theorem regular_member (members : Members) (regular : Regular (.object members)) (name : String)
    (value : Json) (found : Members.find? name members = some value) :
    (∀ declared ∈ declaredBy name value, PlainName declared) ∧ Regular value :=
  ((regular_object_iff members).mp regular).2 (name, value) (Members.mem_of_find name members value found)

theorem regular_get (value : Json) (regular : Regular value) (name : String) (inner : Json)
    (found : value.get? name = some inner) :
    (∀ declared ∈ declaredBy name inner, PlainName declared) ∧ Regular inner := by
  cases value with
  | object members => exact regular_member members regular name inner found
  | _ => cases found

theorem regular_null : Regular .null := ⟨trivial, nofun⟩

theorem regular_properties (schema : Json) (regular : Regular schema) :
    Regular (.object (properties schema)) ∧
      ∀ name ∈ (properties schema).keys, PlainName name := by
  rcases properties_cases schema with empty | found
  · rw [empty]
    exact ⟨⟨⟨List.nodup_nil, trivial⟩, nofun⟩, List.forall_mem_nil _⟩
  · obtain ⟨declared, whole⟩ := regular_get schema regular "properties" _ found
    exact ⟨whole, declared⟩

theorem regular_required (schema : Json) (regular : Regular schema) :
    ∀ name ∈ requiredNames schema, PlainName name := by
  rw [requiredNames]
  cases found : schema.get? "required" with
  | none => exact nofun
  | some inner => exact (regular_get schema regular "required" inner found).1

theorem regular_hereditary : Hereditary Regular where
  member := fun members regular member inMembers =>
    (((regular_object_iff members).mp regular).2 member inMembers).2
  item := fun items regular => (regular_array_iff items).mp regular
  overlay := by
    intro base own regularBase regularOwn
    have wholeBase := (regular_object_iff base).mp regularBase
    have wholeOwn := (regular_object_iff own).mp regularOwn
    refine (regular_object_iff _).mpr ⟨Members.overlay_keys_nodup base own wholeBase.1, ?_⟩
    intro member inBoth
    rcases Members.mem_of_overlay base own member inBoth with inBase | inOwn
    · exact wholeBase.2 member inBase
    · exact wholeOwn.2 member inOwn

end ConditionalForm.Document
