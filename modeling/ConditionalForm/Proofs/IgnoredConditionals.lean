import ConditionalForm.Proofs.DistinctPaths
import ConditionalForm.Proofs.Revisions
import ConditionalForm.Proofs.SchemaFindings
import Mathlib.Data.List.Nodup

set_option autoImplicit false

namespace ConditionalForm

namespace Lint

theorem schema_findings_else : OfEachSchema fun finding => finding.code ≠ "W001" where
  types := by
    intro pointer schema d member
    rw [unknown_types_code pointer schema d member]
    decide
  markers := by
    intro pointer schema d member
    rw [malformed_conditions_code pointer schema d member]
    decide
  names := by
    intro pointer declared schema d member
    rw [undeclared_names_code pointer declared schema d member]
    decide

def warningsOfIgnored (document : Json) : List Diagnostic :=
  (findings document).filter fun d => d.finding.code == "W001"

def ignoredAt (document : Json) (place : Pointer) : Bool :=
  (warningsOfIgnored document).any fun d => d.pointer == place

theorem warnings_of_ignored (document : Json) :
    warningsOfIgnored document =
      ignoredConditionals (Document.unwrap document).pointer (Document.unwrap document).schema := by
  rw [warningsOfIgnored, findings, List.filter_append, List.filter_append]
  have general (pointer : Pointer) (empty : Prop) [Decidable empty] :
      (if empty then [(⟨pointer, .noFields⟩ : Diagnostic)] else []).filter
        (fun d => d.finding.code == "W001") = [] := by
    split <;> rfl
  have ignored (pointer : Pointer) (schema : Json) :
      (ignoredConditionals pointer schema).filter (fun d => d.finding.code == "W001") =
        ignoredConditionals pointer schema :=
    List.filter_eq_self.mpr fun d member => beq_iff_eq.mpr (ignored_conditionals_code pointer schema d member)
  have within (pointer : Pointer) (schema : Json) :
      (schemaFindings pointer [] schema).filter (fun d => d.finding.code == "W001") = [] := by
    refine List.filter_eq_nil_iff.mpr fun d member => ?_
    rw [beq_iff_eq]
    exact schema_findings_hold schema_findings_else pointer [] schema d member
  rw [general, ignored, within, List.nil_append, List.append_nil]

end Lint

namespace Document

def paired (value : Json) : Bool := (value.get? "if").isSome && (value.get? "then").isSome

-- The entries in order and then the schema itself, of which those are kept that pair an `if` with a `then`.
def conditionalPlaces (root : Json) : List (Pointer × Json) :=
  let all := (entries root).zipIdx.map (fun (entry, position) => (["allOf", toString position], entry)) ++ [([], root)]
  all.filter fun place => paired place.2

def unread (value : Json) : Bool := ((value.get? "if").bind Test.ofJson?).isNone

theorem conditional_places_apart (root : Json) : ((conditionalPlaces root).map Prod.fst).Nodup := by
  rw [conditionalPlaces]
  refine List.Nodup.sublist (List.Sublist.map Prod.fst List.filter_sublist) ?_
  rw [List.map_append, List.map_map, List.nodup_append]
  refine ⟨?_, List.nodup_singleton _, ?_⟩
  · rw [List.Nodup, List.pairwise_map]
    refine (positions_differ _).imp fun different same => different (number_injective _ _ ?_)
    simpa using same
  · rintro place inEntries own inOwn rfl
    obtain ⟨entry, _, rfl⟩ := List.mem_map.mp inEntries
    simp at inOwn

theorem ignored_conditional (pointer : Pointer) (value : Json) : Lint.ignoredConditional pointer value =
    if paired value && unread value then [⟨pointer ++ ["if"], .ignoredConditional⟩] else [] := by
  rw [Lint.ignoredConditional, paired, unread]
  cases value.get? "if" with
  | none => rfl
  | some test =>
      cases value.get? "then" with
      | none => rfl
      | some consequence =>
          cases read : Test.ofJson? test <;> simp [read]

theorem ignored_conditionals (pointer : Pointer) (root : Json) :
    Lint.ignoredConditionals pointer root = ((conditionalPlaces root).filter fun place => unread place.2).map
      fun place => ⟨pointer ++ place.1 ++ ["if"], .ignoredConditional⟩ := by
  have walked (places : List (Pointer × Json)) :
      (places.flatMap fun place => Lint.ignoredConditional (pointer ++ place.1) place.2) =
        ((places.filter fun place => paired place.2).filter fun place => unread place.2).map
          fun place => ⟨pointer ++ place.1 ++ ["if"], .ignoredConditional⟩ := by
    induction places with
    | nil => rfl
    | cons place others ih =>
        rw [List.flatMap_cons, ih, ignored_conditional, List.filter_filter, List.filter_filter, List.filter_cons,
          Bool.and_comm (unread place.2)]
        split <;> rfl
  rw [conditionalPlaces, ← walked, List.flatMap_append, List.flatMap_map, List.flatMap_singleton, List.append_nil]
  rfl

theorem ignored_at_iff (document : Json) (place : Pointer × Json)
    (member : place ∈ conditionalPlaces (unwrap document).schema) :
    Lint.ignoredAt document ((unwrap document).pointer ++ place.1 ++ ["if"]) = unread place.2 := by
  rw [Bool.eq_iff_iff, Lint.ignoredAt, Lint.warnings_of_ignored, ignored_conditionals, List.any_map, List.any_eq_true]
  constructor
  · rintro ⟨other, listed, same⟩
    obtain ⟨inAll, ignored⟩ := List.mem_filter.mp listed
    have pointer : other.1 = place.1 := by simpa using same
    exact List.inj_on_of_nodup_map (conditional_places_apart _) inAll member pointer ▸ ignored
  · intro ignored
    exact ⟨place, List.mem_filter.mpr ⟨member, ignored⟩, by simp⟩

structure Heads (field : Field) (numbered : (Pointer × Json) × Nat) : Prop where
  path : field.path = "__section_branch_" ++ toString numbered.2
  condition : ∃ test consequence label, (numbered.1.2.get? "if").bind Test.ofJson? = some test ∧
    numbered.1.2.get? "then" = some consequence ∧ field.heading = some label ∧
    field.markers.visibleWhen = some (Predicate.ofCondition test.condition) ∧
    field.conditions = [⟨test.trigger, test.values, label, requiredNames consequence⟩]

theorem branch_heading_path (index : Nat) (conditional : Conditional) (test : Test) :
    (Group.ofConditional index conditional test).heading.path = "__section_branch_" ++ toString index := by
  rw [heading_path, Group.ofConditional, ← String.append_assoc]
  rfl

def Conditional.recognised? (conditional : Conditional) : Option (Conditional × Test) :=
  (Test.ofJson? conditional.test).map (conditional, ·)

def entryConditional? (entry : Json) : Option Conditional :=
  conditional? ((entry.get? "title").bind Json.text?) entry

-- The schema itself has a title of its own, which is not that of its conditional.
def placedConditional? (place : Pointer × Json) : Option Conditional :=
  if place.1 = [] then conditional? none place.2 else entryConditional? place.2

theorem conditional_unpaired (title : Option String) (value : Json)
    (unpaired : paired value = false) : conditional? title value = none := by
  rw [conditional?]
  cases tested : value.get? "if" with
  | none => rfl
  | some test =>
      cases found : value.get? "then" with
      | none => rfl
      | some consequence => simp [paired, tested, found] at unpaired

theorem conditionals_placed (root : Json) :
    conditionals root = (conditionalPlaces root).filterMap placedConditional? := by
  have kept (place : Pointer × Json) :
      (if paired place.2 = true then placedConditional? place else none) = placedConditional? place := by
    split
    · rfl
    · rename_i unpaired
      rw [placedConditional?, entryConditional?, conditional_unpaired _ _ (Bool.eq_false_iff.mpr unpaired),
        conditional_unpaired _ _ (Bool.eq_false_iff.mpr unpaired), ite_self]
  have listed : ((entries root).zipIdx.map fun (entry, position) => (["allOf", toString position], entry)).filterMap
      placedConditional? = (entries root).filterMap entryConditional? := by
    rw [List.filterMap_map]
    conv_rhs => rw [← List.zipIdx_map_fst 0 (entries root), List.filterMap_map]
    rfl
  rw [conditionalPlaces, List.filterMap_filter, funext kept, List.filterMap_append, listed]
  rfl

theorem paired_placed (place : Pointer × Json) (both : paired place.2 = true) :
    ∃ conditional, placedConditional? place = some conditional := by
  rw [paired, Bool.and_eq_true, Option.isSome_iff_exists, Option.isSome_iff_exists] at both
  obtain ⟨⟨test, tested⟩, consequence, found⟩ := both
  rw [placedConditional?, entryConditional?, conditional?, conditional?, tested, found]
  split <;> exact ⟨_, rfl⟩

theorem placed_in (place : Pointer × Json) (conditional : Conditional)
    (placed : placedConditional? place = some conditional) : ConditionalIn place.2 conditional := by
  rw [placedConditional?] at placed
  split at placed <;> exact conditional_in _ _ _ placed

theorem placed_heads (number : Nat) (place : Pointer × Json) (conditional : Conditional) (test : Test)
    (placed : placedConditional? place = some conditional) (read : Test.ofJson? conditional.test = some test) :
    Heads (Group.ofConditional number conditional test).heading (place, number) where
  path := branch_heading_path number conditional test
  condition := by
    have inside := placed_in place conditional placed
    refine ⟨test, conditional.consequence, _, ?_, inside.consequence, rfl, rfl, rfl⟩
    rw [inside.test]
    exact read

theorem recognised_headings (places : List (Pointer × Json)) (start : Nat)
    (whole : ∀ place ∈ places, paired place.2 = true) :
    List.Forall₂ Heads
      ((((places.filterMap placedConditional?).filterMap Conditional.recognised?).zipIdx start).map
        fun entry => (Group.ofConditional entry.2 entry.1.1 entry.1.2).heading)
      ((places.filter fun place => !unread place.2).zipIdx start) := by
  induction places generalizing start with
  | nil => exact .nil
  | cons place others ih =>
      have later := fun start => ih start fun place member => whole place (List.mem_cons_of_mem _ member)
      obtain ⟨conditional, placed⟩ := paired_placed place (whole place List.mem_cons_self)
      have inside := placed_in place conditional placed
      rw [List.filterMap_cons_some placed]
      cases read : Test.ofJson? conditional.test with
      | none =>
          have unrecognised : conditional.recognised? = none := by rw [Conditional.recognised?, read, Option.map_none]
          rw [List.filterMap_cons_none unrecognised,
            List.filter_cons_of_neg (by simp [unread, inside.test, read])]
          exact later start
      | some test =>
          have recognised : conditional.recognised? = some (conditional, test) := by
            rw [Conditional.recognised?, read, Option.map_some]
          rw [List.filterMap_cons_some recognised, List.filter_cons_of_pos (by simp [unread, inside.test, read]),
            List.zipIdx_cons, List.zipIdx_cons, List.map_cons]
          exact .cons (placed_heads start place conditional test placed read) (later (start + 1))

def headsBranch (field : Field) : Bool :=
  field.isHeading && "__section_branch_".toList.isPrefixOf field.path.toList

theorem section_headings (root : Members) (groups : List Group) (depth : Nat) (claimed : List String)
    (rest : List Group) :
    ((sectionsFrom root groups depth claimed rest).flatMap Section.fields).filter headsBranch =
      (rest.map Group.heading).filter headsBranch := by
  induction rest generalizing claimed with
  | nil => rfl
  | cons group others ih =>
      rw [sectionsFrom, List.flatMap_cons, List.filter_append, ih, Section.fields, List.map_cons]
      have members (entries : List ((String × Json) × String)) :
          (entries.map fun entry => group.field root groups depth entry.2 entry.1.1 entry.1.2).filter
            headsBranch = [] := by
        refine List.filter_eq_nil_iff.mpr fun field member => ?_
        obtain ⟨entry, _, rfl⟩ := List.mem_map.mp member
        simp [headsBranch, member_data]
      rw [List.filter_cons, List.filter_cons, members]
      split <;> rfl

theorem branch_heads (root : Json) (group : Group) (member : group ∈ Group.branches root) :
    headsBranch group.heading = true := by
  obtain ⟨number, conditional, test, _, rfl⟩ := mem_branches root group member
  rw [headsBranch, heading_no_data, branch_heading_path, Bool.true_and, List.isPrefixOf_iff_prefix,
    String.toList_append]
  exact List.prefix_append _ _

theorem option_heads_none (root : Json) (group : Group) (member : group ∈ Group.options root) :
    headsBranch group.heading = false := by
  obtain ⟨number, alternative, _, rfl⟩ := mem_options root group member
  have tagged : ∃ rest, (Group.ofAlternative (properties root) number alternative).tag = "option_" ++ rest := by
    simp only [Group.ofAlternative]
    split
    · exact ⟨_, rfl⟩
    · rw [String.append_assoc, String.append_assoc]
      exact ⟨_, rfl⟩
  obtain ⟨rest, tag⟩ := tagged
  rw [headsBranch, heading_path, tag, String.toList_append, String.toList_append]
  exact Bool.and_eq_false_imp.mpr fun _ => rfl

theorem branch_headings (options : Options) (root : Json) :
    (fields options root).filter headsBranch = (Group.branches root).map Group.heading := by
  have common : (commonFields root (Group.all root) options.maxDepth).filter headsBranch = [] := by
    refine List.filter_eq_nil_iff.mpr fun field member => ?_
    obtain ⟨declared, _, rfl⟩ := List.mem_map.mp member
    rw [headsBranch, Field.isHeading, build_attributes]
    exact Bool.false_ne_true
  have branches : ((Group.branches root).map Group.heading).filter headsBranch =
      (Group.branches root).map Group.heading := by
    refine List.filter_eq_self.mpr fun field member => ?_
    obtain ⟨group, branch, rfl⟩ := List.mem_map.mp member
    exact branch_heads root group branch
  have others : ((Group.options root).map Group.heading).filter headsBranch = [] := by
    refine List.filter_eq_nil_iff.mpr fun field member => ?_
    obtain ⟨group, option, rfl⟩ := List.mem_map.mp member
    rw [option_heads_none root group option]
    exact Bool.false_ne_true
  rw [fields, List.filter_append, common, List.nil_append, sections, section_headings, Group.all,
    List.map_append, List.filter_append, branches, others, List.append_nil]

end Document

namespace Json

def dropItems (drop : Nat → Bool) : Json → Json
  | .array items => .array ((items.zipIdx.filter fun item => !drop item.2).map Prod.fst)
  | value => value

end Json

namespace Lint

def withoutIgnored (document : Json) : Json :=
  let root := (Document.unwrap document).pointer
  document.revise (Json.dropItems fun position => ignoredAt document (root ++ ["allOf", toString position, "if"]))
    (root ++ ["allOf"])

end Lint

namespace Document

theorem entries_without (root : Json) (drop : Nat → Bool) :
    entries (root.revise (Json.dropItems drop) ["allOf"]) =
      ((entries root).zipIdx.filter fun entry => !drop entry.2).map Prod.fst := by
  rw [entries, entries, Json.get_revised, if_pos rfl]
  cases root.get? "allOf" with
  | none => rfl
  | some value => cases value <;> rfl

theorem branches_without (root : Json) (drop : Nat → Bool)
    (idle : ∀ entry ∈ (entries root).zipIdx, drop entry.2 = true →
      (entryConditional? entry.1).bind Conditional.recognised? = none) :
    Group.branches (root.revise (Json.dropItems drop) ["allOf"]) = Group.branches root := by
  have own : conditional? none (root.revise (Json.dropItems drop) ["allOf"]) = conditional? none root := by
    rw [conditional?, conditional?, Json.get_beside _ _ _ _ "if" (by decide),
      Json.get_beside _ _ _ _ "then" (by decide)]
  have listed : (((entries root).zipIdx.filter fun entry => !drop entry.2).map Prod.fst).filterMap
        (fun entry => (entryConditional? entry).bind Conditional.recognised?) =
      (entries root).filterMap fun entry => (entryConditional? entry).bind Conditional.recognised? := by
    have numbered := List.zipIdx_map_fst 0 (entries root)
    conv_rhs => rw [← numbered]
    rw [List.filterMap_map, List.filterMap_map, List.filterMap_filter]
    refine List.filterMap_congr fun entry member => ?_
    cases dropped : drop entry.2 with
    | true => simp [idle entry member dropped]
    | false => simp
  have recognised (schema : Json) : (conditionals schema).filterMap Conditional.recognised? =
      ((entries schema).filterMap fun entry => (entryConditional? entry).bind Conditional.recognised?) ++
        (conditional? none schema).toList.filterMap Conditional.recognised? := by
    rw [← List.filterMap_filterMap, ← List.filterMap_append]
    rfl
  have same := (recognised (root.revise (Json.dropItems drop) ["allOf"])).trans
    (by rw [own, entries_without, listed, ← recognised root])
  exact congrArg (fun read => read.zipIdx.map fun entry => Group.ofConditional entry.2 entry.1.1 entry.1.2) same

theorem fields_same (options : Options) (a b : Json) (own : properties a = properties b)
    (required : requiredNames a = requiredNames b) (groups : Group.all a = Group.all b) :
    fields options a = fields options b := by
  simp only [fields, commonFields, commonProperties, sections, own, required, groups]

theorem title_revised (document : Json) (change : Json → Json) :
    title (document.revise change ((unwrap document).pointer ++ ["allOf"]))
        ⟨(unwrap document).layers, (unwrap document).schema.revise change ["allOf"]⟩ =
      title document (unwrap document) := by
  have outer : ((document.revise change ((unwrap document).pointer ++ ["allOf"])).get? "title").bind Json.text? =
      (document.get? "title").bind Json.text? := by
    cases (unwrap document).pointer with
    | nil => exact congrArg (Option.bind · Json.text?) (Json.get_beside _ _ _ _ "title" (by decide))
    | cons segment rest =>
        obtain ⟨next, rest, split⟩ := List.exists_cons_of_ne_nil
          (List.append_ne_nil_of_right_ne_nil rest (List.cons_ne_nil "allOf" []))
        rw [List.cons_append, split]
        exact Json.get_text_revised change segment next rest document "title"
  rw [title, title, outer, Json.get_beside _ _ _ _ "title" (by decide)]
  rfl

theorem unwrap_at_all_of (document : Json) (change : Json → Json) :
    unwrap (document.revise change ((unwrap document).pointer ++ ["allOf"])) =
      ⟨(unwrap document).layers, (unwrap document).schema.revise change ["allOf"]⟩ :=
  unwrap_revised change "allOf" (by decide) (by decide) 4 2 2 document

theorem form_revised (options : Options) (document : Json) (change : Json → Json)
    (branches : Group.branches ((unwrap document).schema.revise change ["allOf"]) =
      Group.branches (unwrap document).schema) :
    Form.ofDocument options (document.revise change ((unwrap document).pointer ++ ["allOf"])) =
      Form.ofDocument options document := by
  have named := title_revised document change
  have elsewhere (name : String) (beside : name ≠ "allOf") :=
    Json.get_beside change "allOf" [] (unwrap document).schema name beside
  have own : properties ((unwrap document).schema.revise change ["allOf"]) = properties (unwrap document).schema := by
    rw [properties, properties, elsewhere "properties" (by decide)]
  have required : requiredNames ((unwrap document).schema.revise change ["allOf"]) =
      requiredNames (unwrap document).schema := by
    rw [requiredNames, requiredNames, elsewhere "required" (by decide)]
  have alternatives : Group.options ((unwrap document).schema.revise change ["allOf"]) =
      Group.options (unwrap document).schema := by
    rw [Group.options, Group.options, Group.alternatives, Group.alternatives, own,
      elsewhere "oneOf" (by decide), elsewhere "anyOf" (by decide)]
  have groups : Group.all ((unwrap document).schema.revise change ["allOf"]) =
      Group.all (unwrap document).schema := by
    rw [Group.all, Group.all, branches, alternatives]
  have compiled := fields_same options _ _ own required groups
  have selected : discriminator options ((unwrap document).schema.revise change ["allOf"]) =
      discriminator options (unwrap document).schema := by
    rw [discriminator, discriminator, own]
  dsimp only [Form.ofDocument]
  rw [unwrap_at_all_of]
  cases made : (unwrap document).schema with
  | object members =>
      rw [made] at named compiled selected
      simp only [Json.revise] at named compiled selected ⊢
      rw [named, compiled, selected]
      rfl
  | _ => rfl

theorem reported_entry_idle (document : Json) (entry : Json × Nat)
    (member : entry ∈ (entries (unwrap document).schema).zipIdx)
    (reported : Lint.ignoredAt document
      ((unwrap document).pointer ++ ["allOf", toString entry.2, "if"]) = true) :
    (entryConditional? entry.1).bind Conditional.recognised? = none := by
  cases made : entryConditional? entry.1 with
  | none => rfl
  | some conditional =>
      have inside := conditional_in _ _ _ made
      have listed : (["allOf", toString entry.2], entry.1) ∈ conditionalPlaces (unwrap document).schema :=
        List.mem_filter.mpr ⟨List.mem_append_left _ (List.mem_map_of_mem member),
          by simp [paired, inside.test, inside.consequence]⟩
      have ignored : unread entry.1 = true := by
        rw [← ignored_at_iff document _ listed, List.append_assoc]
        exact reported
      rw [unread, inside.test, Option.bind_some, Option.isNone_iff_eq_none] at ignored
      rw [Option.bind_some, Conditional.recognised?, ignored]
      rfl

theorem conditionals_split (options : Options) (document : Json) :
    let root := (unwrap document).schema
    let place (pair : Pointer × Json) := (unwrap document).pointer ++ pair.1 ++ ["if"]
    let ignored (pair : Pointer × Json) := Lint.ignoredAt document (place pair)
    ((conditionalPlaces root).map place).Nodup ∧
      Lint.warningsOfIgnored document =
        ((conditionalPlaces root).filter ignored).map (fun pair => ⟨place pair, .ignoredConditional⟩) ∧
      List.Forall₂ Heads ((Form.ofDocument options document).fields.filter headsBranch)
        ((conditionalPlaces root).filter fun pair => !ignored pair).zipIdx ∧
      entries (unwrap (Lint.withoutIgnored document)).schema =
        ((entries root).zipIdx.filter fun entry => !Lint.ignoredAt document
          ((unwrap document).pointer ++ ["allOf", toString entry.2, "if"])).map Prod.fst ∧
      Form.ofDocument options (Lint.withoutIgnored document) = Form.ofDocument options document := by
  intro root place ignored
  have decided (pair : Pointer × Json) (member : pair ∈ conditionalPlaces root) :
      ignored pair = unread pair.2 := ignored_at_iff document pair member
  have dropped : (conditionalPlaces root).filter ignored = (conditionalPlaces root).filter fun pair => unread pair.2 :=
    List.filter_congr decided
  have kept : ((conditionalPlaces root).filter fun pair => !ignored pair) =
      (conditionalPlaces root).filter fun pair => !unread pair.2 :=
    List.filter_congr fun pair member => congrArg not (decided pair member)
  refine ⟨?_, ?_, ?_, ?_, ?_⟩
  · have apart := (conditional_places_apart root).map (List.append_right_injective (unwrap document).pointer)
    have ended := apart.map (List.append_left_injective ["if"])
    rwa [List.map_map, List.map_map] at ended
  · rw [Lint.warnings_of_ignored, ignored_conditionals, dropped]
  · rw [form_fields, branch_headings, Group.branches, List.map_map, kept, conditionals_placed]
    exact recognised_headings (conditionalPlaces root) 0 fun pair member => (List.mem_filter.mp member).2
  · rw [Lint.withoutIgnored, unwrap_at_all_of]
    exact entries_without root _
  · exact form_revised options document _ (branches_without root _ (reported_entry_idle document))

def spanPair (test : Json) : Members := [("if", test), ("then", .object [("required", .array [.text "SPAN"])])]

def testOf (values : Members) : Json := .object [("properties", .object [("TYPE", .object values)])]

def splitDocument : Json := .object
  ([("properties", .object [("TYPE", .object []), ("SPAN", .object [])]),
    ("allOf", .array
      [.object (spanPair (.object [])), .object [("then", .object [])],
        .object (spanPair (testOf [("const", .text "BEAM")]))])]
    ++ spanPair (testOf [("enum", .array [.text "TRUSS", .text "FRAME"])]))

theorem split_document_branches :
    (conditionalPlaces splitDocument).map Prod.fst = [["allOf", "0"], ["allOf", "2"], []] ∧
      (Lint.warningsOfIgnored splitDocument).map Lint.Diagnostic.place = ["/allOf/0/if"] ∧
      (((Form.ofDocument {} splitDocument).fields.filter headsBranch).map fun field => field.path) =
        ["__section_branch_0", "__section_branch_1"] ∧
      (entries (unwrap (Lint.withoutIgnored splitDocument)).schema).length = 2 ∧
      Form.ofDocument {} (Lint.withoutIgnored splitDocument) = Form.ofDocument {} splitDocument := by
  obtain ⟨_, _, _, _, same⟩ := conditionals_split {} splitDocument
  exact ⟨by decide +kernel, by decide +kernel, by decide +kernel, by decide +kernel, same⟩

end Document

end ConditionalForm
