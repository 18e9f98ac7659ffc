import ConditionalForm.Proofs.ClaimedPaths

set_option autoImplicit false

namespace ConditionalForm.Document

inductive Below (parent separator : String) (schema : Json) : String → Property → Prop
  | own (declared : String × Json) (required : Bool) (member : declared ∈ properties schema) :
      Below parent separator schema (parent ++ separator ++ declared.1)
        ⟨declared.1, declared.2, .fixed required, none⟩
  | alternative (alternative : Json) (declared : String × Json) (status : Status) (index : Nat) (path : String)
      (listed : alternative ∈ ((schema.get? "oneOf").bind Json.items?).getD [])
      (member : declared ∈ properties alternative)
      (placed : path = parent ++ separator ++ declared.1 ∨
        path = parent ++ ".option_" ++ toString index ++ "." ++ declared.1) :
      Below parent separator schema path ⟨declared.1, declared.2, .wildcard status, some index⟩

-- Which paths were claimed before an alternative decides between its plain paths and its tagged ones only.
theorem mem_alternatives_below (parent separator : String) (claimed : List String) (index : Nat)
    (alternatives : List Json) (path : String) (property : Property)
    (member : .property path property ∈ alternativesBelow parent separator claimed index alternatives) :
    ∃ alternative ∈ alternatives, ∃ declared ∈ properties alternative, ∃ (status : Status) (number : Nat),
      property = ⟨declared.1, declared.2, .wildcard status, some number⟩ ∧
        (path = parent ++ separator ++ declared.1 ∨
          path = parent ++ ".option_" ++ toString number ++ "." ++ declared.1) := by
  induction alternatives generalizing claimed index with
  | nil => cases member
  | cons alternative others ih =>
      rw [alternativesBelow] at member
      split at member
      · obtain ⟨other, listed, found⟩ := ih _ _ member
        exact ⟨other, List.mem_cons_of_mem _ listed, found⟩
      · rename_i own declares
        rcases List.mem_append.mp member with here | later
        · rcases List.mem_cons.mp here with heading | here
          · cases heading
          · obtain ⟨entry, paired, made⟩ := List.mem_map.mp here
            cases made
            have inOwn : entry.1 ∈ properties alternative := by
              rw [properties, declares]
              exact (List.of_mem_zip paired).1
            exact ⟨alternative, List.mem_cons_self, entry.1, inOwn, _, index, rfl,
              claim_paths_paired _ _ claimed own entry paired⟩
        · obtain ⟨other, listed, found⟩ := ih _ _ later
          exact ⟨other, List.mem_cons_of_mem _ listed, found⟩

theorem entries_below (parent separator : String) (schema : Json) (path : String) (property : Property)
    (member : .property path property ∈ entriesBelow parent separator schema) :
    Below parent separator schema path property := by
  rcases List.mem_append.mp member with own | inAlternatives
  · obtain ⟨entry, paired, made⟩ := List.mem_map.mp own
    cases made
    rw [Members.keys, List.map_map, ← List.map_prod_left_eq_zip] at paired
    obtain ⟨declared, inOwn, rfl⟩ := List.mem_map.mp paired
    exact .own declared _ inOwn
  · obtain ⟨alternative, listed, declared, inOwn, status, index, rfl, placed⟩ :=
      mem_alternatives_below parent separator _ 0 _ path property inAlternatives
    exact .alternative alternative declared status index path listed inOwn placed

theorem entries_of_cases (path : String) (definition : Json) :
    entriesOf path definition = entriesBelow path "." definition ∨
      entriesOf path definition = entriesBelow path "[]." ((definition.get? "items").getD .null) ∨
      entriesOf path definition = [] := by
  rw [entriesOf]
  cases FieldType.ofDefinition definition with
  | object => exact .inl rfl
  | array items =>
      cases items with
      | none => exact .inr (.inr rfl)
      | some item =>
          cases item with
          | object => exact .inr (.inl rfl)
          | _ => exact .inr (.inr rfl)
  | _ => exact .inr (.inr rfl)

theorem entries_of_below (path : String) (definition : Json) (inner : String) (property : Property)
    (member : .property inner property ∈ entriesOf path definition) :
    Below path "." definition inner property ∨
      ∃ items, definition.get? "items" = some items ∧ Below path "[]." items inner property := by
  rcases entries_of_cases path definition with own | inItems | nothing
  · rw [own] at member
    exact .inl (entries_below path "." definition inner property member)
  · rw [inItems] at member
    cases found : definition.get? "items" with
    | none =>
        rw [found] at member
        cases member
    | some items =>
        rw [found] at member
        exact .inr ⟨items, rfl, entries_below path "[]." items inner property member⟩
  · rw [nothing] at member
    cases member

end ConditionalForm.Document
