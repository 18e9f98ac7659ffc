import ConditionalForm.Proofs.RootRequired
import ConditionalForm.Proofs.SchemaFindings

set_option autoImplicit false

namespace ConditionalForm

open Document

namespace Document

def DeclaredByEntry (root : Json) (group : Group) (name : String) : Prop :=
  ∃ entry ∈ entries root, ∃ (conditional : Conditional) (number : Nat) (test : Test),
    ConditionalIn entry conditional ∧ group = Group.ofConditional number conditional test ∧
      name ∈ (properties entry).keys

structure DeclaredBeside (root : Json) (group : Group) (name : String) : Prop where
  entry : DeclaredByEntry root group name
  unlisted : name ∉ (properties root).keys
  own : name ∉ group.properties.keys

def EmittedIn (options : Options) (document : Json) (group : Group) (name : String) : Prop :=
  ∃ part ∈ sections options (unwrap document).schema, part.group = group ∧
    ∃ field ∈ part.members, field.name = name ∧ field ∈ (Form.ofDocument options document).fields

theorem emitted_iff_declared (options : Options) (document : Json) (group : Group)
    (applies : group ∈ Group.all (unwrap document).schema) (name : String) (member : name ∈ group.members) :
    EmittedIn options document group name ↔
      name ∈ (properties (unwrap document).schema).keys ∨ name ∈ group.properties.keys := by
  constructor
  · rintro ⟨part, emitted, rfl, field, inPart, rfl, _⟩
    obtain ⟨path, other, definition, _, found, rfl⟩ := (section_members _ _ _ _ _ part emitted).2 field inPart
    rw [member_name]
    exact (definition_some_iff _ _ other).mp (Option.isSome_iff_exists.mpr ⟨definition, found⟩)
  · intro declared
    obtain ⟨definition, defined⟩ := member_defined _ group name member declared
    obtain ⟨part, emitted, same, field, inPart, called⟩ :=
      defined_member_emitted options _ group applies name definition defined
    refine ⟨part, emitted, same, field, inPart, called, ?_⟩
    rw [form_fields]
    exact member_emitted options _ part field emitted inPart

end Document

namespace Lint

theorem undeclared_reported (pointer : Pointer) (declared : List String) (schema : Json) (name : String)
    (required : name ∈ requiredNames schema) (undeclared : name ∉ declared) :
    ∃ position : Nat, ⟨pointer ++ ["required", toString position], .undeclared name⟩ ∈
      undeclaredNames pointer declared schema := by
  obtain ⟨item, listed, text⟩ := List.mem_filterMap.mp required
  obtain ⟨position, placed⟩ := List.getElem?_of_mem listed
  refine ⟨position, List.mem_filterMap.mpr ⟨(item, position), List.mk_mem_zipIdx_iff_getElem?.mpr placed, ?_⟩⟩
  simp [text, undeclared]

theorem required_in_scope (document : Json) (declared : ∀ d ∈ findings document, d.finding.code ≠ "E004")
    (place : Pointer) (names : List String) (schema : Json)
    (visited : Visited [] (unwrap document).schema place names schema) (name : String)
    (required : name ∈ requiredNames schema) : name ∈ namesInScope names schema := by
  by_cases known : name ∈ namesInScope names schema
  · exact known
  · obtain ⟨position, reported⟩ := undeclared_reported ((unwrap document).pointer ++ place) _ schema name required known
    have found := (undeclared_name_found_iff document _).mpr ⟨place, names, schema, visited, reported⟩
    exact absurd found.2 (declared _ found.1)

-- A group is read from a schema that a walk leads to, with the names of the schema of the document and, for
-- the conditional of an entry, with those of this entry.
theorem group_visited (root : Json) (group : Group) (applies : group ∈ Group.all root) :
    ∃ place names source, Visited [] root place names source ∧ group.required = requiredNames source ∧
      group.properties = properties source ∧
      ∀ name ∈ names, name ∈ (properties root).keys ∨ DeclaredByEntry root group name := by
  rcases List.mem_append.mp applies with branch | option
  · obtain ⟨number, conditional, test, listed, rfl⟩ := mem_branches root group branch
    rcases conditional_cases root conditional listed with ⟨entry, inList, inEntry⟩ | own
    · obtain ⟨_, outer⟩ := leads_listed [] "allOf" (by decide) root entry inList
      have inner : Leads (namesInScope [] root) entry ["then"] _ _ := .part "then" (by decide) _ inEntry.consequence
      refine ⟨_, _, _, .within outer (.within inner (.here _ _)), rfl, rfl, fun name known => ?_⟩
      rcases List.mem_append.mp known with above | beside
      · exact .inl above
      · exact .inr ⟨entry, inList, conditional, number, test, inEntry, rfl, beside⟩
    · have leads : Leads [] root ["then"] _ _ := .part "then" (by decide) _ own.consequence
      exact ⟨_, _, _, .within leads (.here _ _), rfl, rfl, fun name known => .inl known⟩
  · obtain ⟨number, alternative, listed, rfl⟩ := mem_options root group option
    obtain ⟨keyword, known, inList⟩ : ∃ keyword ∈ ["allOf", "oneOf", "anyOf"],
        alternative ∈ ((root.get? keyword).bind Json.items?).getD [] := by
      rw [Group.alternatives] at listed
      cases found : root.get? "oneOf" with
      | none => exact ⟨"anyOf", by decide, by simpa [found] using listed⟩
      | some value => exact ⟨"oneOf", by decide, by simpa [found] using listed⟩
    obtain ⟨place, leads⟩ := leads_listed [] keyword known root alternative inList
    exact ⟨_, _, _, .within leads (.here _ _), rfl, rfl, fun name known => .inl known⟩

theorem required_beside (document : Json) (declared : ∀ d ∈ findings document, d.finding.code ≠ "E004")
    (group : Group) (applies : group ∈ Group.all (unwrap document).schema) (name : String)
    (member : name ∈ group.members) (unlisted : name ∉ (properties (unwrap document).schema).keys)
    (unowned : name ∉ group.properties.keys) : DeclaredByEntry (unwrap document).schema group name := by
  obtain ⟨place, names, source, visited, requires, declares, origin⟩ := group_visited _ group applies
  rcases List.mem_append.mp member with required | own
  · rw [requires] at required
    rcases List.mem_append.mp (required_in_scope document declared place names source visited name required) with
      above | own
    · exact (origin name above).resolve_left unlisted
    · rw [← declares] at own
      exact absurd own unowned
  · exact absurd (List.mem_filter.mp own).1 unowned

theorem required_member_emitted_iff (options : Options) (document : Json)
    (declared : ∀ d ∈ findings document, d.finding.code ≠ "E004") :
    let root := (unwrap document).schema
    (∀ group ∈ Group.all root, (∀ name ∈ group.required, name ∈ group.members) ∧ ∀ name ∈ group.members,
      EmittedIn options document group name ↔ ¬ DeclaredBeside root group name) ∧
    ∀ group ∈ Group.options root, ∀ name ∈ group.members, EmittedIn options document group name := by
  intro root
  have each (group : Group) (applies : group ∈ Group.all root) (name : String) (member : name ∈ group.members) :
      EmittedIn options document group name ↔ ¬ DeclaredBeside root group name := by
    rw [emitted_iff_declared options document group applies name member]
    constructor
    · rintro (above | own) beside
      · exact beside.unlisted above
      · exact beside.own own
    · intro elsewhere
      by_cases listed : name ∈ (properties root).keys
      · exact .inl listed
      · by_cases own : name ∈ group.properties.keys
        · exact .inr own
        · have entry := required_beside document declared group applies name member listed own
          exact absurd ⟨entry, listed, own⟩ elsewhere
  refine ⟨fun group applies => ⟨fun name => List.mem_append_left _, each group applies⟩,
    fun group option name member => ?_⟩
  refine (each group (List.mem_append_right _ option) name member).mpr fun beside => ?_
  obtain ⟨_, _, _, _, _, _, rfl, _⟩ := beside.entry
  obtain ⟨_, _, _, same⟩ := mem_options root _ option
  exact absurd (congrArg Group.kind same) nofun

def spanTest : Json := .object [("properties", .object [("TYPE", .object [("const", .text "BEAM")])])]

def spanConsequence : Json := .object [("required", .array [.text "SPAN", .text "LOAD"])]

def spanEntry : Json := .object
  [("properties", .object [("SPAN", .object [("type", .text "number")])]), ("if", spanTest), ("then", spanConsequence)]

def bridgeDocument : Json := .object
  [("properties", .object
      [("TYPE", .object [("enum", .array [.text "BEAM", .text "TRUSS"])]), ("LOAD", .object [("type", .text "number")])]),
    ("allOf", .array [spanEntry])]

def spanGroup : Group :=
  Group.ofConditional 0 ⟨none, spanTest, spanConsequence⟩ ⟨"TYPE", [.text "BEAM"]⟩

theorem load_of_bridge_emitted :
    (∀ d ∈ findings bridgeDocument, d.finding.code ≠ "E004") ∧ spanGroup ∈ Group.all (unwrap bridgeDocument).schema ∧
      EmittedIn {} bridgeDocument spanGroup "LOAD" ∧ ¬ EmittedIn {} bridgeDocument spanGroup "SPAN" := by
  have declared : ∀ d ∈ findings bridgeDocument, d.finding.code ≠ "E004" := by decide +kernel
  have applies : spanGroup ∈ Group.all (unwrap bridgeDocument).schema := List.mem_cons_self
  have emitted := ((required_member_emitted_iff {} bridgeDocument declared).1 spanGroup applies).2
  refine ⟨declared, applies, (emitted "LOAD" (by decide)).mpr fun beside => ?_, fun lost => ?_⟩
  · exact beside.unlisted (by decide)
  · refine (emitted "SPAN" (by decide)).mp lost ⟨?_, by decide, by decide⟩
    exact ⟨spanEntry, List.mem_cons_self, _, 0, _, ⟨rfl, rfl⟩, rfl, by decide⟩

theorem span_of_bridge_lost :
    (findings bridgeDocument).isEmpty = true ∧
      ((Group.all (unwrap bridgeDocument).schema).map Group.required) = [["SPAN", "LOAD"]] ∧
      ((Form.ofDocument {} bridgeDocument).allFields.map fun field => field.name) =
        ["TYPE", "__section_branch_0", "LOAD"] := by
  decide +kernel

end Lint

end ConditionalForm
