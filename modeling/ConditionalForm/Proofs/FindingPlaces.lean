import ConditionalForm.Proofs.Pointers
import ConditionalForm.Proofs.SchemaFindings

set_option autoImplicit false

namespace ConditionalForm

namespace Document

def TestsOneProperty (test : Json) : Prop :=
  ∃ name rule, test.get? "properties" = some (.object [(name, rule)]) ∧
    ((∃ value, rule.get? "const" = some value) ∨
      ∃ first others, rule.get? "enum" = some (.array (first :: others)))

theorem test_none (test : Json) (unread : Test.ofJson? test = none) : ¬ TestsOneProperty test := by
  intro tested
  obtain ⟨name, rule, properties, constant | list⟩ := tested
  · obtain ⟨value, constant⟩ := constant
    simp [Test.ofJson?, properties, Json.members?, constant] at unread
  · obtain ⟨first, others, list⟩ := list
    cases constant : rule.get? "const" with
    | none => simp [Test.ofJson?, properties, Json.members?, constant, list] at unread
    | some value => simp [Test.ofJson?, properties, Json.members?, constant] at unread

theorem entry_follows (root entry : Json) (position : Nat) (listed : (entry, position) ∈ (entries root).zipIdx) :
    Pointer.follow ["allOf", toString position] root = some entry := by
  rw [List.mk_mem_zipIdx_iff_getElem?] at listed
  rcases items_cases "allOf" root with empty | found
  · rw [entries, empty] at listed
    cases listed
  · exact (Pointer.follow_position ["allOf"] root _ position (Pointer.follow_of_get "allOf" root _ found)).trans listed

theorem layer_follows (document : Json) (layer : Layer) (inner : Json)
    (found : layer? document = some (layer, inner)) :
    Pointer.follow layer.pointer document = some inner := by
  unfold layer? at found
  split at found
  · rename_i members
    split at found
    · split at found
      · rename_i key inside properties
        obtain ⟨_, made⟩ := Option.ite_none_right_eq_some.mp found
        cases made
        simp [Layer.pointer, Pointer.follow, Pointer.step?, properties, Members.find?]
      · cases found
    · split at found
      · cases found
        simp [Layer.pointer, Pointer.follow, Pointer.step?, Members.find?]
      · cases found
  · cases found

theorem unwrap_within_follows (most named argument : Nat) (document : Json) :
    Pointer.follow (unwrapWithin most named argument document).pointer document =
      some (unwrapWithin most named argument document).schema := by
  induction most generalizing named argument document with
  | zero => rfl
  | succ most ih =>
      unfold unwrapWithin
      split
      · rename_i found
        rw [Unwrapped.within, Unwrapped.pointer, List.flatMap_cons, Pointer.follow_append,
          layer_follows document _ _ found]
        exact ih _ _ _
      · rename_i found
        rw [Unwrapped.within, Unwrapped.pointer, List.flatMap_cons, Pointer.follow_append,
          layer_follows document _ _ found]
        exact ih _ _ _
      · rfl

end Document

namespace Lint

def knownTags : List String := ["null", "string", "number", "integer", "boolean", "object", "array"]

theorem unknown_tag (tag : String)
    (unknown : (tag != "null" && (FieldType.primitive? tag).isNone) = true) : tag ∉ knownTags := by
  intro known
  have read : ∀ tag ∈ knownTags, (tag != "null" && (FieldType.primitive? tag).isNone) = false := by
    decide +kernel
  rw [read tag known] at unknown
  cases unknown

inductive Shows (document : Json) : Pointer → Finding → Prop
  | condition (outer : Pointer) (test : Json)
      (found : Pointer.follow (outer ++ ["if"]) document = some test)
      (ignored : ¬ Document.TestsOneProperty test) : Shows document (outer ++ ["if"]) .ignoredConditional
  | tag (outer : Pointer) (value : Json) (tag : String)
      (found : Pointer.follow (outer ++ ["type"]) document = some value)
      (listed : value = .text tag ∨ ∃ tags, value = .array tags ∧ .text tag ∈ tags)
      (unknown : tag ∉ knownTags) : Shows document (outer ++ ["type"]) (.unknownType tag)
  | marker (outer : Pointer) (key : String) (value : Json)
      (found : Pointer.follow (outer ++ [key]) document = some value)
      (rejected : Predicate.ofJson? value = none) :
      Shows document (outer ++ [key]) (.malformedCondition key value)
  | required (outer : Pointer) (names : List Json) (position : Nat) (name : String)
      (list : Pointer.follow (outer ++ ["required"]) document = some (.array names))
      (found : Pointer.follow (outer ++ ["required", toString position]) document = some (.text name)) :
      Shows document (outer ++ ["required", toString position]) (.undeclared name)

section Schema

variable {document : Json} (pointer : Pointer) (members : Members)
variable (found : Pointer.follow pointer document = some (.object members))

include found in
theorem unknown_types_shown :
    ∀ d ∈ unknownTypes pointer (.object members), Shows document d.pointer d.finding := by
  intro d member
  obtain ⟨tag, inTags, rfl⟩ := List.mem_map.mp member
  obtain ⟨inTags, unknown⟩ := List.mem_filter.mp inTags
  have place := Pointer.follow_get pointer document members "type" found
  cases declared : Members.find? "type" members with
  | none => simp [Json.get?, declared] at inTags
  | some value =>
      rw [declared] at place
      refine .tag pointer value tag place ?_ (unknown_tag tag unknown)
      cases value with
      | text other =>
          have same : tag = other := by simpa [Json.get?, declared] using inTags
          exact .inl (same ▸ rfl)
      | array tags =>
          simp only [Json.get?, declared] at inTags
          obtain ⟨item, listed, read⟩ := List.mem_filterMap.mp inTags
          cases item with
          | text other =>
              cases read
              exact .inr ⟨tags, rfl, listed⟩
          | _ => cases read
      | _ => simp [Json.get?, declared] at inTags

include found in
theorem malformed_conditions_shown :
    ∀ d ∈ malformedConditions pointer (.object members), Shows document d.pointer d.finding := by
  intro d member
  obtain ⟨spelling, _, made⟩ := List.mem_filterMap.mp member
  obtain ⟨value, spelled, made⟩ := Option.bind_eq_some_iff.mp made
  split at made
  · cases made
  · rename_i rejected
    cases made
    cases spelling with
    | plain key =>
        exact .marker pointer key value
          ((Pointer.follow_get pointer document members key found).trans spelled) rejected
    | nested outer key =>
        obtain ⟨container, held, inside⟩ := Option.bind_eq_some_iff.mp spelled
        have place := (Pointer.follow_get pointer document members outer found).trans held
        have nested : Pointer.follow (pointer ++ [outer] ++ [key]) document = some value := by
          rw [Pointer.follow_append, place]
          exact Pointer.follow_of_get key container value inside
        have split : pointer ++ [outer, key] = pointer ++ [outer] ++ [key] := by simp
        change Shows document (pointer ++ [outer, key]) _
        rw [split]
        exact .marker _ key value nested rejected

include found in
theorem undeclared_names_shown (declared : List String) :
    ∀ d ∈ undeclaredNames pointer declared (.object members), Shows document d.pointer d.finding := by
  intro d member
  obtain ⟨⟨item, position⟩, numbered, made⟩ := List.mem_filterMap.mp member
  obtain ⟨name, text, made⟩ := Option.bind_eq_some_iff.mp made
  have listed := List.mk_mem_zipIdx_iff_getElem?.mp numbered
  rcases Document.items_cases "required" (.object members) with empty | required
  · rw [empty] at listed
    cases listed
  · split at made
    · cases made
    · cases made
      have list := (Pointer.follow_get pointer document members "required" found).trans required
      have place := Pointer.follow_position _ document _ position list
      cases item with
      | text other =>
          cases text
          rw [listed, List.append_assoc] at place
          exact .required pointer _ position _ list place
      | _ => cases text

end Schema

theorem leads_follows {inherited names : List String} {schema inner : Json} {place : Pointer}
    (wellFormed : schema.WellFormed) (leads : Leads inherited schema place names inner) : Pointer.follow place schema = some inner := by
  cases leads with
  | property members name inner found member =>
      have place := Pointer.follow_of_get "properties" schema _ found
      have distinct := (Pointer.well_formed_follow _ schema _ wellFormed place).1
      have inside := Pointer.follow_get ["properties"] schema members name place
      rw [Members.find_of_mem members distinct _ member] at inside
      exact inside
  | items inner found => exact Pointer.follow_of_get "items" schema inner found
  | listed keyword known items position inner found item =>
      have place := Pointer.follow_of_get keyword schema _ found
      exact (Pointer.follow_position [keyword] schema items position place).trans item
  | part keyword known inner found => exact Pointer.follow_of_get keyword schema inner found

theorem visited_follows {inherited names : List String} {schema inner : Json} {place : Pointer}
    (wellFormed : schema.WellFormed) (visited : Visited inherited schema place names inner) : Pointer.follow place schema = some inner := by
  induction visited with
  | here inherited schema => rfl
  | within leads _ ih =>
      have step := leads_follows wellFormed leads
      rw [Pointer.follow_append, step]
      exact ih (Pointer.well_formed_follow _ _ _ wellFormed step)

theorem schema_findings_shown {document : Json} (wellFormed : document.WellFormed) (pointer : Pointer)
    (inherited : List String) (schema : Json) (found : Pointer.follow pointer document = some schema) :
    ∀ d ∈ schemaFindings pointer inherited schema, Shows document d.pointer d.finding := by
  intro d member
  obtain ⟨place, names, inner, visited, own⟩ := (mem_schema_findings_iff pointer inherited d schema).mp member
  obtain ⟨members, rfl⟩ := own_findings_object _ names d inner own
  have inside := visited_follows (Pointer.well_formed_follow pointer document schema wellFormed found) visited
  have located : Pointer.follow (pointer ++ place) document = some (.object members) := by
    rw [Pointer.follow_append, found]
    exact inside
  rw [ownFindings, List.mem_append, List.mem_append] at own
  rcases own with (types | markers) | required
  · exact unknown_types_shown _ members located d types
  · exact malformed_conditions_shown _ members located d markers
  · exact undeclared_names_shown _ members located _ d required

theorem ignored_conditional_shown {document : Json} (pointer : Pointer) (value : Json)
    (found : Pointer.follow pointer document = some value) :
    ∀ d ∈ ignoredConditional pointer value, Shows document d.pointer d.finding := by
  intro d member
  obtain ⟨test, tested, unread, rfl⟩ := ignored_conditional_cases pointer value d member
  have place : Pointer.follow (pointer ++ ["if"]) document = some test := by
    rw [Pointer.follow_append, found]
    exact Pointer.follow_of_get "if" value test tested
  exact .condition pointer test place (Document.test_none test unread)

theorem ignored_conditionals_shown {document : Json} (pointer : Pointer) (schema : Json)
    (found : Pointer.follow pointer document = some schema) :
    ∀ d ∈ ignoredConditionals pointer schema, Shows document d.pointer d.finding := by
  intro d member
  rcases List.mem_append.mp member with inEntry | own
  · obtain ⟨⟨entry, position⟩, listed, reported⟩ := List.mem_flatMap.mp inEntry
    refine ignored_conditional_shown _ entry ?_ d reported
    rw [Pointer.follow_append, found]
    exact Document.entry_follows schema entry position listed
  · exact ignored_conditional_shown pointer schema found d own

theorem shown_inside (document : Json) (pointer : Pointer) (finding : Finding)
    (shown : Shows document pointer finding) : pointer ≠ [] := by
  cases shown <;> simp

theorem shown_place (document : Json) (d : Diagnostic) (shown : Shows document d.pointer d.finding) :
    Pointer.read? d.place = some d.pointer := by
  rw [Diagnostic.place]
  split
  · rename_i outermost
    exact absurd outermost (shown_inside document d.pointer d.finding shown)
  · exact Pointer.read_render d.pointer

theorem finding_shown (document : Json) (wellFormed : document.WellFormed) :
    ∀ d ∈ findings document, d.finding.code ≠ "E001" → d.finding.code ≠ "E002" →
      ∃ pointer, Pointer.read? d.place = some pointer ∧ Shows document pointer d.finding := by
  intro d member _ named
  have root := Document.unwrap_within_follows 4 2 2 document
  have shown : Shows document d.pointer d.finding := by
    rcases List.mem_append.mp member with general | inside
    · rcases List.mem_append.mp general with empty | ignored
      · split at empty
        · cases List.mem_singleton.mp empty
          exact absurd rfl named
        · cases empty
      · exact ignored_conditionals_shown _ _ root d ignored
    · exact schema_findings_shown wellFormed _ [] _ root d inside
  exact ⟨d.pointer, shown_place document d shown, shown⟩

def wrappedDocument : Json := .object
  [("NODE", .object
    [("properties", .object
      [("Argument", .object
        [("properties", .object
            [("A/B~", .object
              [("type", .array [.text "null", .text "numer"]),
                ("x-ui", .object [("visibleWhen", .text "A")])])]),
          ("required", .array [.text "A/B~", .text "LOST"]),
          ("allOf", .array [.object [("if", .object []), ("then", .object [])]])])])])]

theorem wrapped_findings_shown :
    ((findings wrappedDocument).map Diagnostic.place) =
        ["/NODE/properties/Argument/allOf/0/if", "/NODE/properties/Argument/required/1",
          "/NODE/properties/Argument/properties/A~1B~0/type",
          "/NODE/properties/Argument/properties/A~1B~0/x-ui/visibleWhen"] ∧
      ∀ d ∈ findings wrappedDocument, ∃ pointer, Pointer.read? d.place = some pointer ∧
        Shows wrappedDocument pointer d.finding := by
  have wellFormed : wrappedDocument.WellFormed := by
    simp [wrappedDocument, Json.WellFormed, Json.WellFormedMembers, Json.WellFormedItems, Members.keys]
  have located : ∀ d ∈ findings wrappedDocument, d.finding.code ≠ "E001" ∧ d.finding.code ≠ "E002" := by
    decide +kernel
  exact ⟨by decide +kernel, fun d member =>
    finding_shown wrappedDocument wellFormed d member (located d member).1 (located d member).2⟩

end Lint

end ConditionalForm
