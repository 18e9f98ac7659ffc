import ConditionalForm.Proofs.Definitions
import ConditionalForm.Proofs.SchemaFindings

set_option autoImplicit false

namespace ConditionalForm

open Document

namespace Lint

def conditionSpellings : List Spelling := Spelling.visibleWhen ++ Spelling.requiredWhen ++ Spelling.optionalWhen

def unlinted : Spelling := .nested "ui" "visibleWhen"

structure Malformed (schema : Json) (spelling : Spelling) (value : Json) : Prop where
  known : spelling ∈ conditionSpellings
  present : spelling.find? schema = some value
  rejected : Predicate.ofJson? value = none

def OnlyUnlinted (schema : Json) : Prop := ∀ spelling value, Malformed schema spelling value → spelling = unlinted

theorem linted_spelling_iff (spelling : Spelling) :
    spelling ∈ conditionMarkers ↔ spelling ∈ conditionSpellings ∧ spelling ≠ unlinted := by
  have linted : ∀ spelling ∈ conditionMarkers, spelling ∈ conditionSpellings ∧ spelling ≠ unlinted := by decide
  have known : ∀ spelling ∈ conditionSpellings, spelling ≠ unlinted → spelling ∈ conditionMarkers := by decide
  exact ⟨linted spelling, fun other => known spelling other.1 other.2⟩

theorem mem_malformed_conditions (pointer : Pointer) (schema : Json) (d : Diagnostic) :
    d ∈ malformedConditions pointer schema ↔ ∃ spelling value, Malformed schema spelling value ∧
      spelling ≠ unlinted ∧ d = ⟨pointer ++ Spelling.pointer spelling, .malformedCondition (Spelling.key spelling) value⟩ := by
  constructor
  · intro member
    obtain ⟨spelling, linted, made⟩ := List.mem_filterMap.mp member
    obtain ⟨known, other⟩ := (linted_spelling_iff spelling).mp linted
    obtain ⟨value, present, made⟩ := Option.bind_eq_some_iff.mp made
    split at made
    · cases made
    · rename_i rejected
      cases made
      exact ⟨spelling, value, ⟨known, present, rejected⟩, other, rfl⟩
  · rintro ⟨spelling, value, ⟨known, present, rejected⟩, other, rfl⟩
    refine List.mem_filterMap.mpr ⟨spelling, (linted_spelling_iff spelling).mpr ⟨known, other⟩, ?_⟩
    rw [present, Option.bind_some, rejected]

theorem linted_elsewhere (outer other : Pointer) (spelling : Spelling) (linted : spelling ∈ conditionMarkers) :
    outer ++ Spelling.pointer spelling ≠ other ++ Spelling.pointer unlinted := by
  intro same
  have apart : ∀ spelling ∈ conditionMarkers, ¬ Spelling.pointer spelling <:+ Spelling.pointer unlinted ∧
      ¬ Spelling.pointer unlinted <:+ Spelling.pointer spelling := by decide
  have ends : Spelling.pointer spelling <:+ other ++ Spelling.pointer unlinted := ⟨outer, same⟩
  rcases List.suffix_or_suffix_of_suffix ends (List.suffix_append other _) with within | around
  · exact (apart spelling linted).1 within
  · exact (apart spelling linted).2 around

theorem malformed_reported_iff (document : Json) (place : Pointer) (names : List String) (schema : Json)
    (visited : Visited [] (unwrap document).schema place names schema) (spelling : Spelling) (value : Json)
    (malformed : Malformed schema spelling value) :
    (∃ d ∈ findings document, d.pointer = (unwrap document).pointer ++ place ++ Spelling.pointer spelling ∧
      d.finding.code = "E003") ↔ spelling ≠ unlinted := by
  constructor
  · rintro ⟨d, member, pointer, code⟩ rfl
    obtain ⟨_, _, _, _, found⟩ := (malformed_condition_found_iff document d).mp ⟨member, code⟩
    obtain ⟨other, _, otherMalformed, linted, rfl⟩ := (mem_malformed_conditions _ _ d).mp found
    exact linted_elsewhere _ _ other ((linted_spelling_iff other).mpr ⟨otherMalformed.known, linted⟩) pointer
  · intro linted
    have found := (mem_malformed_conditions ((unwrap document).pointer ++ place) schema _).mpr
      ⟨spelling, value, malformed, linted, rfl⟩
    obtain ⟨member, code⟩ := (malformed_condition_found_iff document _).mpr ⟨place, names, schema, visited, found⟩
    exact ⟨_, member, rfl, code⟩

theorem nothing_malformed_iff (document : Json) :
    (∀ d ∈ findings document, d.finding.code ≠ "E003") ↔ ∀ place names schema,
      Visited [] (unwrap document).schema place names schema → OnlyUnlinted schema := by
  constructor
  · intro clean place names schema visited spelling value malformed
    by_cases same : spelling = unlinted
    · exact same
    · obtain ⟨d, member, _, code⟩ :=
        (malformed_reported_iff document place names schema visited spelling value malformed).mpr same
      exact absurd code (clean d member)
  · intro unlinted d member code
    obtain ⟨place, names, schema, visited, found⟩ := (malformed_condition_found_iff document d).mp ⟨member, code⟩
    obtain ⟨spelling, value, malformed, linted, _⟩ := (mem_malformed_conditions _ _ d).mp found
    exact linted (unlinted place names schema visited spelling value malformed)

-- Where a walk leads does not depend on the names that it carries.
theorem leads_with (inherited others names : List String) (schema : Json) (place : Pointer) (inner : Json)
    (leads : Leads inherited schema place names inner) : ∃ carried, Leads others schema place carried inner := by
  cases leads with
  | property members name inner found member => exact ⟨_, .property members name inner found member⟩
  | items inner found => exact ⟨_, .items inner found⟩
  | listed keyword known items position inner found item =>
      exact ⟨_, .listed keyword known items position inner found item⟩
  | part keyword known inner found => exact ⟨_, .part keyword known inner found⟩

theorem visited_with (inherited others names : List String) (schema : Json) (place : Pointer) (inner : Json)
    (visited : Visited inherited schema place names inner) : ∃ carried, Visited others schema place carried inner := by
  induction visited generalizing others with
  | here inherited schema => exact ⟨others, .here others schema⟩
  | within leads _ ih =>
      obtain ⟨between, step⟩ := leads_with _ others _ _ _ _ leads
      obtain ⟨carried, rest⟩ := ih between
      exact ⟨carried, .within step rest⟩

structure CleanWithin (schema : Json) : Prop where
  wellFormed : schema.WellFormed
  clean : ∀ inherited place names inner, Visited inherited schema place names inner → OnlyUnlinted inner

theorem clean_inside (inherited names : List String) (schema : Json) (place : Pointer) (inner : Json)
    (leads : Leads inherited schema place names inner) (wellFormed : inner.WellFormed) (clean : CleanWithin schema) :
    CleanWithin inner := by
  refine ⟨wellFormed, fun others later carried last visited => ?_⟩
  obtain ⟨_, rest⟩ := visited_with others names carried inner later last visited
  exact clean.clean inherited _ _ last (.within leads rest)

section Overlay

variable (base own : Members) (name : String) (value : Json)
variable (wholeBase : (Json.object base).WellFormed) (wholeOwn : (Json.object own).WellFormed)

include wholeBase wholeOwn

theorem get_overlay (found : (Json.object (Members.overlay base own)).get? name = some value) :
    (Json.object base).get? name = some value ∨ (Json.object own).get? name = some value := by
  rcases Members.mem_of_overlay base own _ (Members.mem_of_find name _ value found) with inBase | inOwn
  · exact .inl (Members.find_of_mem base wholeBase.1 _ inBase)
  · exact .inr (Members.find_of_mem own wholeOwn.1 _ inOwn)

theorem malformed_overlay (spelling : Spelling)
    (malformed : Malformed (.object (Members.overlay base own)) spelling value) :
    Malformed (.object base) spelling value ∨ Malformed (.object own) spelling value := by
  obtain ⟨known, present, rejected⟩ := malformed
  cases spelling with
  | plain key =>
      rcases get_overlay base own key value wholeBase wholeOwn present with inBase | inOwn
      · exact .inl ⟨known, inBase, rejected⟩
      · exact .inr ⟨known, inOwn, rejected⟩
  | nested outer key =>
      obtain ⟨container, held, inside⟩ := Option.bind_eq_some_iff.mp present
      rcases get_overlay base own outer container wholeBase wholeOwn held with inBase | inOwn
      · exact .inl ⟨known, Option.bind_eq_some_iff.mpr ⟨container, inBase, inside⟩, rejected⟩
      · exact .inr ⟨known, Option.bind_eq_some_iff.mpr ⟨container, inOwn, inside⟩, rejected⟩

theorem leads_overlay (inherited names : List String) (place : Pointer) (inner : Json)
    (leads : Leads inherited (.object (Members.overlay base own)) place names inner) :
    ∃ carried, Leads inherited (.object base) place carried inner ∨ Leads inherited (.object own) place carried inner := by
  cases leads with
  | property members name inner found member =>
      rcases get_overlay base own _ _ wholeBase wholeOwn found with inBase | inOwn
      · exact ⟨_, .inl (.property members name inner inBase member)⟩
      · exact ⟨_, .inr (.property members name inner inOwn member)⟩
  | items inner found =>
      rcases get_overlay base own _ _ wholeBase wholeOwn found with inBase | inOwn
      · exact ⟨_, .inl (.items inner inBase)⟩
      · exact ⟨_, .inr (.items inner inOwn)⟩
  | listed keyword known items position inner found item =>
      rcases get_overlay base own _ _ wholeBase wholeOwn found with inBase | inOwn
      · exact ⟨_, .inl (.listed keyword known items position inner inBase item)⟩
      · exact ⟨_, .inr (.listed keyword known items position inner inOwn item)⟩
  | part keyword known inner found =>
      rcases get_overlay base own _ _ wholeBase wholeOwn found with inBase | inOwn
      · exact ⟨_, .inl (.part keyword known inner inBase)⟩
      · exact ⟨_, .inr (.part keyword known inner inOwn)⟩

end Overlay

theorem clean_overlay (base own : Members) (cleanBase : CleanWithin (.object base)) (cleanOwn : CleanWithin (.object own)) :
    CleanWithin (.object (Members.overlay base own)) := by
  refine ⟨Json.well_formed_overlay base own cleanBase.wellFormed cleanOwn.wellFormed.2, ?_⟩
  intro inherited place names inner visited
  cases visited with
  | here =>
      intro spelling value malformed
      rcases malformed_overlay base own value cleanBase.wellFormed cleanOwn.wellFormed spelling malformed with inBase | inOwn
      · exact cleanBase.clean [] _ _ _ (.here [] _) spelling value inBase
      · exact cleanOwn.clean [] _ _ _ (.here [] _) spelling value inOwn
  | within leads rest =>
      obtain ⟨carried, step⟩ := leads_overlay base own cleanBase.wellFormed cleanOwn.wellFormed _ _ _ _ leads
      obtain ⟨_, rest⟩ := visited_with _ carried _ _ _ _ rest
      rcases step with inBase | inOwn
      · exact cleanBase.clean inherited _ _ _ (.within inBase rest)
      · exact cleanOwn.clean inherited _ _ _ (.within inOwn rest)

theorem clean_within_hereditary : SchemaHereditary CleanWithin where
  property := fun schema clean member inProperties =>
    have whole := well_formed_hereditary.in_schemas.property schema clean.wellFormed member inProperties
    clean_inside [] _ schema _ _ (leads_property [] schema member inProperties) whole clean
  items := fun schema clean inner found =>
    have whole := well_formed_hereditary.in_schemas.items schema clean.wellFormed inner found
    clean_inside [] _ schema _ _ (.items inner found) whole clean
  listed := fun keyword known schema clean item inList => by
    have whole := well_formed_hereditary.in_schemas.listed keyword known schema clean.wellFormed item inList
    obtain ⟨position, leads⟩ := leads_listed [] keyword known schema item inList
    exact clean_inside [] _ schema _ _ leads whole clean
  consequence := fun schema clean inner found =>
    have whole := well_formed_hereditary.in_schemas.consequence schema clean.wellFormed inner found
    clean_inside [] _ schema _ _ (.part "then" (by decide) inner found) whole clean
  overlay := clean_overlay

theorem defined_only_unlinted (document : Json) (wellFormed : document.WellFormed)
    (clean : ∀ d ∈ findings document, d.finding.code ≠ "E003") (definition : Json)
    (defined : Defined (unwrap document).schema definition) : OnlyUnlinted definition := by
  have visited := (nothing_malformed_iff document).mp clean
  have root : CleanWithin (unwrap document).schema := by
    refine ⟨hereditary_unwrap well_formed_hereditary document wellFormed, ?_⟩
    intro inherited place names inner leads
    obtain ⟨carried, same⟩ := visited_with inherited [] names _ place inner leads
    exact visited place carried inner same
  have within := defined_holds clean_within_hereditary _ root definition defined
  exact within.clean [] [] [] definition (.here [] definition)

theorem malformed_condition_linted_iff (options : Document.Options) (document : Json) :
    let root := (unwrap document).schema
    (∀ place names schema, Visited [] root place names schema → ∀ spelling value, Malformed schema spelling value →
      ((∃ d ∈ findings document, d.pointer = (unwrap document).pointer ++ place ++ Spelling.pointer spelling ∧
        d.finding.code = "E003") ↔ spelling ≠ unlinted)) ∧
    ((∀ d ∈ findings document, d.finding.code ≠ "E003") ↔
      ∀ place names schema, Visited [] root place names schema → OnlyUnlinted schema) ∧
    (document.WellFormed → (∀ d ∈ findings document, d.finding.code ≠ "E003") →
      ∀ definition, Defined root definition → OnlyUnlinted definition) ∧
    ∀ field ∈ (Form.ofDocument options document).allFields, field.isHeading = false → Sourced root field := by
  intro root
  refine ⟨?_, nothing_malformed_iff document, defined_only_unlinted document, form_sourced options document⟩
  intro place names schema visited spelling value malformed
  exact malformed_reported_iff document place names schema visited spelling value malformed

def shownDefinition : Json := .object [("ui", .object [("visibleWhen", .text "BEAM")])]

def shownDocument : Json := .object [("properties", .object [("SPAN", shownDefinition)])]

theorem shown_visited : Visited [] (unwrap shownDocument).schema ["properties", "SPAN"] [] shownDefinition :=
  .within (.property [("SPAN", shownDefinition)] "SPAN" shownDefinition rfl List.mem_cons_self) (.here [] shownDefinition)

theorem shown_condition_unlinted :
    Visited [] (unwrap shownDocument).schema ["properties", "SPAN"] [] shownDefinition ∧
      Malformed shownDefinition (.nested "ui" "visibleWhen") (.text "BEAM") ∧ (findings shownDocument).isEmpty = true ∧
      ((Form.ofDocument {} shownDocument).fields.map fun field => (field.name, field.markers.visibleWhen.isSome)) =
        [("SPAN", false)] :=
  ⟨shown_visited, ⟨by decide, rfl, rfl⟩, by decide +kernel, by decide +kernel⟩

def spanDefinition : Json := .object
  [("ui", .object [("visibleWhen", .text "BEAM")]), ("x-required-when", .text "BEAM")]

def spanDocument : Json := .object [("properties", .object [("SPAN", spanDefinition)])]

theorem span_requirement_linted :
    (∃ d ∈ findings spanDocument, d.pointer = ["properties", "SPAN", "x-required-when"] ∧ d.finding.code = "E003") ∧
      (¬ ∃ d ∈ findings spanDocument, d.pointer = ["properties", "SPAN", "ui", "visibleWhen"] ∧ d.finding.code = "E003") ∧
      shownDocument.WellFormed ∧ (∀ d ∈ findings shownDocument, d.finding.code ≠ "E003") ∧
      Defined (unwrap shownDocument).schema shownDefinition ∧ OnlyUnlinted shownDefinition := by
  have visited : Visited [] (unwrap spanDocument).schema ["properties", "SPAN"] [] spanDefinition :=
    .within (.property [("SPAN", spanDefinition)] "SPAN" spanDefinition rfl List.mem_cons_self) (.here [] spanDefinition)
  have linted := (malformed_condition_linted_iff {} spanDocument).1 _ _ _ visited
  have wellFormed : shownDocument.WellFormed := by
    simp [shownDocument, shownDefinition, Json.WellFormed, Json.WellFormedMembers, Members.keys]
  have nothing : ∀ d ∈ findings shownDocument, d.finding.code ≠ "E003" := by decide +kernel
  have defined : Defined (unwrap shownDocument).schema shownDefinition :=
    .common ("SPAN", shownDefinition) List.mem_cons_self
  have clean := (malformed_condition_linted_iff {} shownDocument).2.2.1 wellFormed nothing shownDefinition defined
  refine ⟨?_, fun found => ?_, wellFormed, nothing, defined, clean⟩
  · exact (linted (.plain "x-required-when") (.text "BEAM") ⟨by decide, rfl, rfl⟩).mpr (by decide)
  · exact (linted unlinted (.text "BEAM") ⟨by decide, rfl, rfl⟩).mp found rfl

end Lint

end ConditionalForm
