import ConditionalForm.Lint.Document
import ConditionalForm.Proofs.Sections
import ConditionalForm.Proofs.Wrappers

set_option autoImplicit false

namespace ConditionalForm.Lint

def namesInScope (inherited : List String) (schema : Json) : List String :=
  inherited ++ (Document.properties schema).keys

def ownFindings (pointer : Pointer) (inherited : List String) (schema : Json) : List Diagnostic :=
  unknownTypes pointer schema ++ malformedConditions pointer schema
    ++ undeclaredNames pointer (namesInScope inherited schema) schema

-- The schemas right within a schema. Properties and items may require what they declare themselves;
-- conditional parts may also require what the schema around them declares.
inductive Leads (inherited : List String) (schema : Json) : Pointer → List String → Json → Prop
  | property (members : Members) (name : String) (inner : Json)
      (found : schema.get? "properties" = some (.object members)) (member : (name, inner) ∈ members) :
      Leads inherited schema ["properties", name] [] inner
  | items (inner : Json) (found : schema.get? "items" = some inner) : Leads inherited schema ["items"] [] inner
  | listed (keyword : String) (known : keyword ∈ ["allOf", "oneOf", "anyOf"]) (items : List Json)
      (position : Nat) (inner : Json) (found : schema.get? keyword = some (.array items))
      (item : items[position]? = some inner) :
      Leads inherited schema [keyword, toString position] (namesInScope inherited schema) inner
  | part (keyword : String) (known : keyword ∈ ["then", "else"]) (inner : Json)
      (found : schema.get? keyword = some inner) :
      Leads inherited schema [keyword] (namesInScope inherited schema) inner

inductive Visited : List String → Json → Pointer → List String → Json → Prop
  | here (inherited : List String) (schema : Json) : Visited inherited schema [] inherited schema
  | within {inherited names others : List String} {schema inner last : Json} {place later : Pointer}
      (step : Leads inherited schema place names inner) (rest : Visited names inner later others last) :
      Visited inherited schema (place ++ later) others last

theorem leads_property (inherited : List String) (schema : Json) (member : String × Json)
    (inProperties : member ∈ Document.properties schema) :
    Leads inherited schema ["properties", member.1] [] member.2 := by
  rcases Document.properties_cases schema with empty | found
  · rw [empty] at inProperties
    cases inProperties
  · exact .property _ _ _ found inProperties

theorem leads_listed (inherited : List String) (keyword : String) (known : keyword ∈ ["allOf", "oneOf", "anyOf"])
    (schema item : Json) (inList : item ∈ ((schema.get? keyword).bind Json.items?).getD []) :
    ∃ position : Nat, Leads inherited schema [keyword, toString position] (namesInScope inherited schema) item := by
  rcases Document.items_cases keyword schema with empty | found
  · rw [empty] at inList
    cases inList
  · obtain ⟨position, placed⟩ := List.getElem?_of_mem inList
    exact ⟨position, .listed keyword known _ position item found placed⟩

section Walk

variable (pointer : Pointer) (inherited : List String) (d : Diagnostic)

theorem mem_findings_under (keyword : String) (members : Members) :
    d ∈ findingsUnder keyword pointer inherited members ↔
      ∃ inner, Members.find? keyword members = some inner ∧
        d ∈ schemaFindings (pointer ++ [keyword]) inherited inner := by
  induction members with
  | nil => simp [findingsUnder, Members.find?]
  | cons member members ih =>
      by_cases same : member.1 = keyword
      · simp [findingsUnder, Members.find?, same]
      · simp [findingsUnder, Members.find?, same, Ne.symm same, ih]

theorem mem_numbered_findings (index : Nat) (items : List Json) :
    d ∈ numberedFindings pointer inherited index items ↔ ∃ (position : Nat) (inner : Json),
      items[position]? = some inner ∧
        d ∈ schemaFindings (pointer ++ [toString (index + position)]) inherited inner := by
  induction items generalizing index with
  | nil => simp [numberedFindings]
  | cons item items ih =>
      rw [numberedFindings, List.mem_append, ih]
      constructor
      · rintro (first | ⟨position, inner, listed, later⟩)
        · exact ⟨0, item, rfl, first⟩
        · refine ⟨position + 1, inner, listed, ?_⟩
          rwa [Nat.add_comm position 1, ← Nat.add_assoc]
      · rintro ⟨position, inner, listed, inside⟩
        cases position with
        | zero =>
            cases listed
            exact .inl inside
        | succ position =>
            refine .inr ⟨position, inner, listed, ?_⟩
            rwa [Nat.add_assoc, Nat.add_comm 1 position]

theorem mem_list_findings (keyword : String) (members : Members) :
    d ∈ listFindings keyword pointer inherited members ↔
      ∃ (items : List Json) (position : Nat) (inner : Json),
        Members.find? keyword members = some (.array items) ∧ items[position]? = some inner ∧
          d ∈ schemaFindings (pointer ++ [keyword, toString position]) inherited inner := by
  induction members with
  | nil => simp [listFindings, Members.find?]
  | cons member members ih =>
      obtain ⟨key, value⟩ := member
      by_cases same : key = keyword
      · cases value <;> simp [listFindings, itemFindings, Members.find?, same, mem_numbered_findings]
      · simp [listFindings, Members.find?, same, Ne.symm same, ih]

theorem mem_named_findings (members : Members) :
    d ∈ namedFindings pointer members ↔
      ∃ name inner, (name, inner) ∈ members ∧ d ∈ schemaFindings (pointer ++ [name]) [] inner := by
  induction members with
  | nil => simp [namedFindings]
  | cons member members ih =>
      obtain ⟨key, value⟩ := member
      rw [namedFindings, List.mem_append, ih]
      constructor
      · rintro (first | ⟨name, inner, listed, later⟩)
        · exact ⟨key, value, List.mem_cons_self, first⟩
        · exact ⟨name, inner, List.mem_cons_of_mem _ listed, later⟩
      · rintro ⟨name, inner, listed, inside⟩
        rcases List.mem_cons.mp listed with same | later
        · cases same
          exact .inl inside
        · exact .inr ⟨name, inner, later, inside⟩

theorem mem_property_findings (members : Members) :
    d ∈ propertyFindings pointer members ↔
      ∃ own name inner, Members.find? "properties" members = some (.object own) ∧ (name, inner) ∈ own ∧
        d ∈ schemaFindings (pointer ++ ["properties", name]) [] inner := by
  induction members with
  | nil => simp [propertyFindings, Members.find?]
  | cons member members ih =>
      obtain ⟨key, value⟩ := member
      by_cases same : key = "properties"
      · cases value <;> simp [propertyFindings, objectFindings, Members.find?, same, mem_named_findings]
      · simp [propertyFindings, Members.find?, same, Ne.symm same, ih]

theorem own_findings_object (schema : Json) (member : d ∈ ownFindings pointer inherited schema) :
    ∃ members, schema = .object members := by
  cases schema with
  | object members => exact ⟨members, rfl⟩
  | _ => simp [ownFindings, unknownTypes, malformedConditions, undeclaredNames, conditionMarkers, Spelling.find?,
      Json.get?] at member

theorem leads_object (schema : Json) (place : Pointer) (names : List String) (inner : Json)
    (leads : Leads inherited schema place names inner) : ∃ members, schema = .object members := by
  cases schema with
  | object members => exact ⟨members, rfl⟩
  | _ => cases leads <;> contradiction

theorem leads_smaller (schema : Json) (place : Pointer) (names : List String) (inner : Json)
    (leads : Leads inherited schema place names inner) : sizeOf inner < sizeOf schema := by
  cases leads with
  | property members name inner found member =>
      have outer := Document.contained_smaller "properties" schema _ found
      have inside := List.sizeOf_lt_of_mem member
      simp only [Prod.mk.sizeOf_spec] at inside
      simp only [Json.object.sizeOf_spec] at outer
      omega
  | items inner found => exact Document.contained_smaller "items" schema inner found
  | listed keyword known items position inner found item =>
      have outer := Document.contained_smaller keyword schema _ found
      have inside := List.sizeOf_lt_of_mem (List.mem_of_getElem? item)
      simp only [Json.array.sizeOf_spec] at outer
      omega
  | part keyword known inner found => exact Document.contained_smaller keyword schema inner found

theorem object_findings (members : Members) :
    schemaFindings pointer inherited (.object members) =
      let declared := namesInScope inherited (.object members)
      ownFindings pointer inherited (.object members) ++ (propertyFindings pointer members
        ++ (findingsUnder "items" pointer [] members ++ (listFindings "allOf" pointer declared members
        ++ (listFindings "oneOf" pointer declared members ++ (listFindings "anyOf" pointer declared members
        ++ (findingsUnder "then" pointer declared members ++ findingsUnder "else" pointer declared members)))))) := by
  simp [schemaFindings, ownFindings, namesInScope]

theorem mem_schema_findings (schema : Json) :
    d ∈ schemaFindings pointer inherited schema ↔ d ∈ ownFindings pointer inherited schema ∨
      ∃ place names inner, Leads inherited schema place names inner ∧
        d ∈ schemaFindings (pointer ++ place) names inner := by
  by_cases object : ∃ members, schema = .object members
  · obtain ⟨members, rfl⟩ := object
    simp only [object_findings, List.mem_append, mem_property_findings, mem_findings_under, mem_list_findings]
    constructor
    · rintro (own | ⟨own, name, inner, found, member, inside⟩ | ⟨inner, found, inside⟩ |
        ⟨items, position, inner, found, item, inside⟩ | ⟨items, position, inner, found, item, inside⟩ |
        ⟨items, position, inner, found, item, inside⟩ | ⟨inner, found, inside⟩ | ⟨inner, found, inside⟩)
      · exact .inl own
      · exact .inr ⟨_, _, inner, .property own name inner found member, inside⟩
      · exact .inr ⟨_, _, inner, .items inner found, inside⟩
      · exact .inr ⟨_, _, inner, .listed "allOf" (by decide) items position inner found item, inside⟩
      · exact .inr ⟨_, _, inner, .listed "oneOf" (by decide) items position inner found item, inside⟩
      · exact .inr ⟨_, _, inner, .listed "anyOf" (by decide) items position inner found item, inside⟩
      · exact .inr ⟨_, _, inner, .part "then" (by decide) inner found, inside⟩
      · exact .inr ⟨_, _, inner, .part "else" (by decide) inner found, inside⟩
    · rintro (own | ⟨place, names, inner, leads, inside⟩)
      · exact .inl own
      · refine .inr ?_
        cases leads with
        | property own name inner found member => exact .inl ⟨own, name, inner, found, member, inside⟩
        | items inner found => exact .inr (.inl ⟨inner, found, inside⟩)
        | listed keyword known items position inner found item =>
            simp only [List.mem_cons, List.not_mem_nil, or_false] at known
            rcases known with rfl | rfl | rfl
            · exact .inr (.inr (.inl ⟨items, position, inner, found, item, inside⟩))
            · exact .inr (.inr (.inr (.inl ⟨items, position, inner, found, item, inside⟩)))
            · exact .inr (.inr (.inr (.inr (.inl ⟨items, position, inner, found, item, inside⟩))))
        | part keyword known inner found =>
            simp only [List.mem_cons, List.not_mem_nil, or_false] at known
            rcases known with rfl | rfl
            · exact .inr (.inr (.inr (.inr (.inr (.inl ⟨inner, found, inside⟩)))))
            · exact .inr (.inr (.inr (.inr (.inr (.inr ⟨inner, found, inside⟩)))))
  · have nothing : schemaFindings pointer inherited schema = [] := by
      cases schema with
      | object members => exact absurd ⟨members, rfl⟩ object
      | _ => rfl
    rw [nothing]
    refine ⟨nofun, ?_⟩
    rintro (own | ⟨place, names, inner, leads, _⟩)
    · exact absurd (own_findings_object pointer inherited d schema own) object
    · exact absurd (leads_object inherited schema place names inner leads) object

theorem mem_schema_findings_iff (schema : Json) :
    d ∈ schemaFindings pointer inherited schema ↔ ∃ place names inner,
      Visited inherited schema place names inner ∧ d ∈ ownFindings (pointer ++ place) names inner := by
  constructor
  · intro found
    induction size : sizeOf schema using Nat.strongRecOn generalizing schema pointer inherited with
    | ind n ih =>
        rcases (mem_schema_findings pointer inherited d schema).mp found with own | ⟨place, names, inner, leads, inside⟩
        · refine ⟨[], inherited, schema, .here inherited schema, ?_⟩
          rwa [List.append_nil]
        · have smaller := leads_smaller inherited schema place names inner leads
          obtain ⟨later, others, last, visited, own⟩ := ih _ (size ▸ smaller) _ names inner inside rfl
          refine ⟨place ++ later, others, last, .within leads visited, ?_⟩
          rwa [← List.append_assoc]
  · rintro ⟨place, names, last, visited, own⟩
    induction visited generalizing pointer with
    | here inherited schema =>
        rw [List.append_nil] at own
        exact (mem_schema_findings pointer inherited d schema).mpr (.inl own)
    | within leads _ ih =>
        rw [← List.append_assoc] at own
        exact (mem_schema_findings pointer _ d _).mpr (.inr ⟨_, _, _, leads, ih _ own⟩)

end Walk

variable {holds : Finding → Prop}

structure OfEachSchema (holds : Finding → Prop) : Prop where
  types : ∀ pointer schema, ∀ d ∈ unknownTypes pointer schema, holds d.finding
  markers : ∀ pointer schema, ∀ d ∈ malformedConditions pointer schema, holds d.finding
  names : ∀ pointer declared schema, ∀ d ∈ undeclaredNames pointer declared schema, holds d.finding

theorem schema_findings_hold (own : OfEachSchema holds) (pointer : Pointer) (inherited : List String) (schema : Json) :
    ∀ d ∈ schemaFindings pointer inherited schema, holds d.finding := by
  intro d member
  obtain ⟨place, names, inner, _, found⟩ := (mem_schema_findings_iff pointer inherited d schema).mp member
  rw [ownFindings, List.mem_append, List.mem_append] at found
  rcases found with (types | markers) | required
  · exact own.types _ inner d types
  · exact own.markers _ inner d markers
  · exact own.names _ _ inner d required

theorem unknown_types_code (pointer : Pointer) (schema : Json) :
    ∀ d ∈ unknownTypes pointer schema, d.finding.code = "W002" := by
  intro d member
  obtain ⟨_, _, rfl⟩ := List.mem_map.mp member
  rfl

theorem malformed_conditions_code (pointer : Pointer) (schema : Json) :
    ∀ d ∈ malformedConditions pointer schema, d.finding.code = "E003" := by
  intro d member
  obtain ⟨spelling, _, made⟩ := List.mem_filterMap.mp member
  obtain ⟨value, _, made⟩ := Option.bind_eq_some_iff.mp made
  split at made
  · cases made
  · cases made
    rfl

theorem undeclared_names_code (pointer : Pointer) (declared : List String) (schema : Json) :
    ∀ d ∈ undeclaredNames pointer declared schema, d.finding.code = "E004" := by
  intro d member
  obtain ⟨item, _, made⟩ := List.mem_filterMap.mp member
  obtain ⟨name, _, made⟩ := Option.bind_eq_some_iff.mp made
  split at made
  · cases made
  · cases made
    rfl

theorem ignored_conditional_cases (pointer : Pointer) (value : Json) (d : Diagnostic)
    (member : d ∈ ignoredConditional pointer value) :
    ∃ test, value.get? "if" = some test ∧ Document.Test.ofJson? test = none ∧
      d = ⟨pointer ++ ["if"], .ignoredConditional⟩ := by
  rw [ignoredConditional] at member
  split at member
  · rename_i test consequence tested _
    split at member
    · cases member
    · rename_i unread
      exact ⟨test, tested, unread, List.mem_singleton.mp member⟩
  · cases member

theorem ignored_conditionals_code (pointer : Pointer) (schema : Json) :
    ∀ d ∈ ignoredConditionals pointer schema, d.finding.code = "W001" := by
  intro d member
  rcases List.mem_append.mp member with inEntry | own
  · obtain ⟨entry, _, reported⟩ := List.mem_flatMap.mp inEntry
    obtain ⟨_, _, _, rfl⟩ := ignored_conditional_cases _ _ d reported
    rfl
  · obtain ⟨_, _, _, rfl⟩ := ignored_conditional_cases _ _ d own
    rfl

theorem mem_findings_inside (document : Json) (d : Diagnostic)
    (coded : d.finding.code = "E003" ∨ d.finding.code = "E004") :
    d ∈ findings document ↔ ∃ place names schema, Visited [] (Document.unwrap document).schema place names schema ∧
      d ∈ ownFindings ((Document.unwrap document).pointer ++ place) names schema := by
  rw [← mem_schema_findings_iff]
  constructor
  · intro member
    rcases List.mem_append.mp member with general | inside
    · rcases List.mem_append.mp general with empty | ignored
      · split at empty
        · cases List.mem_singleton.mp empty
          simp [Finding.code] at coded
        · cases empty
      · simp [ignored_conditionals_code _ _ d ignored] at coded
    · exact inside
  · exact List.mem_append_right _

theorem malformed_condition_found_iff (document : Json) (d : Diagnostic) :
    d ∈ findings document ∧ d.finding.code = "E003" ↔
      ∃ place names schema, Visited [] (Document.unwrap document).schema place names schema ∧
        d ∈ malformedConditions ((Document.unwrap document).pointer ++ place) schema := by
  constructor
  · rintro ⟨member, code⟩
    obtain ⟨place, names, schema, visited, own⟩ := (mem_findings_inside document d (.inl code)).mp member
    refine ⟨place, names, schema, visited, ?_⟩
    rw [ownFindings, List.mem_append, List.mem_append] at own
    rcases own with (types | markers) | required
    · simp [unknown_types_code _ _ d types] at code
    · exact markers
    · simp [undeclared_names_code _ _ _ d required] at code
  · rintro ⟨place, names, schema, visited, markers⟩
    have code := malformed_conditions_code _ _ d markers
    refine ⟨(mem_findings_inside document d (.inl code)).mpr ⟨place, names, schema, visited, ?_⟩, code⟩
    exact List.mem_append_left _ (List.mem_append_right _ markers)

theorem undeclared_name_found_iff (document : Json) (d : Diagnostic) :
    d ∈ findings document ∧ d.finding.code = "E004" ↔
      ∃ place names schema, Visited [] (Document.unwrap document).schema place names schema ∧
        d ∈ undeclaredNames ((Document.unwrap document).pointer ++ place) (namesInScope names schema) schema := by
  constructor
  · rintro ⟨member, code⟩
    obtain ⟨place, names, schema, visited, own⟩ := (mem_findings_inside document d (.inr code)).mp member
    refine ⟨place, names, schema, visited, ?_⟩
    rw [ownFindings, List.mem_append, List.mem_append] at own
    rcases own with (types | markers) | required
    · simp [unknown_types_code _ _ d types] at code
    · simp [malformed_conditions_code _ _ d markers] at code
    · exact required
  · rintro ⟨place, names, schema, visited, required⟩
    have code := undeclared_names_code _ _ _ d required
    refine ⟨(mem_findings_inside document d (.inr code)).mpr ⟨place, names, schema, visited, ?_⟩, code⟩
    exact List.mem_append_right _ required

end ConditionalForm.Lint
