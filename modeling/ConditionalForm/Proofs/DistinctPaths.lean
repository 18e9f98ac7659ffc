import ConditionalForm.Proofs.Batches
import ConditionalForm.Proofs.Entries
import ConditionalForm.Proofs.Sections

set_option autoImplicit false

namespace ConditionalForm.Document

def walkPaths (fields : List Field) : List String := (Field.walkAll fields).map fun field => field.path

structure Enclosed (field : Field) : Prop where
  within : ∀ path ∈ walkPaths [field], Within field.path path
  distinct : (walkPaths [field]).Nodup

theorem walk_paths_cons (field : Field) (fields : List Field) :
    walkPaths (field :: fields) = walkPaths [field] ++ walkPaths fields := by
  simp [walkPaths, Field.walkAll]

theorem walk_paths_flat (fields : List Field) :
    walkPaths fields = fields.flatMap fun field => walkPaths [field] := by
  induction fields with
  | nil => rfl
  | cons field fields ih => rw [List.flatMap_cons, ← ih, walk_paths_cons]

theorem walk_paths_node (attributes : Attributes) (children : List Field) :
    walkPaths [⟨attributes, children⟩] = attributes.path :: walkPaths children := by
  simp [walkPaths, Field.walkAll, Field.walk]

theorem apart_fields_distinct (fields : List Field) (each : ∀ field ∈ fields, Enclosed field)
    (apart : (fields.map fun field => field.path).Pairwise Apart) : (walkPaths fields).Nodup := by
  rw [walk_paths_flat]
  refine List.pairwise_flatMap.mpr ⟨fun field member => (each field member).distinct, ?_⟩
  refine List.Pairwise.imp_of_mem (fun {a b} inFields also separate => ?_) (List.pairwise_map.mp apart)
  intro path below other inOther same
  subst same
  exact separate path ((each a inFields).within path below) ((each b also).within path inOther)

theorem enclosed_node (attributes : Attributes) (children : List Field)
    (each : ∀ child ∈ children, Enclosed child)
    (below : ∀ child ∈ children, Within attributes.path child.path ∧ child.path ≠ attributes.path)
    (apart : (children.map fun child => child.path).Pairwise Apart) :
    Enclosed ⟨attributes, children⟩ := by
  have inner : ∀ path ∈ walkPaths children, ∃ child ∈ children, Within child.path path := by
    intro path member
    rw [walk_paths_flat] at member
    obtain ⟨child, inChildren, inChild⟩ := List.mem_flatMap.mp member
    exact ⟨child, inChildren, (each child inChildren).within path inChild⟩
  constructor
  · intro path member
    rw [walk_paths_node] at member
    rcases List.mem_cons.mp member with rfl | later
    · exact within_self _
    · obtain ⟨child, inChildren, inChild⟩ := inner path later
      exact within_trans _ _ _ (below child inChildren).1 inChild
  · rw [walk_paths_node]
    refine List.nodup_cons.mpr ⟨fun again => ?_, apart_fields_distinct children each apart⟩
    obtain ⟨child, inChildren, back⟩ := inner _ again
    obtain ⟨outer, other⟩ := below child inChildren
    exact other (within_antisymm _ _ outer back)

theorem enclosed_leaf (attributes : Attributes) : Enclosed ⟨attributes, []⟩ :=
  enclosed_node attributes [] nofun nofun List.Pairwise.nil

theorem enclosed_with (field : Field) (attributes : Attributes) (same : attributes.path = field.path)
    (enclosed : Enclosed field) : Enclosed ⟨attributes, field.children⟩ := by
  obtain ⟨own, children⟩ := field
  have paths : walkPaths [⟨attributes, children⟩] = walkPaths [⟨own, children⟩] := by
    rw [walk_paths_node, walk_paths_node, same]
  refine ⟨fun path member => ?_, ?_⟩
  · rw [paths] at member
    exact (congrArg (Within · path) same).mpr (enclosed.within path member)
  · rw [paths]
    exact enclosed.distinct

def Entry.path : Entry → String
  | .heading path _ _ => path
  | .property path _ => path

structure LaidOut (parent : String) (entries : List Entry) : Prop where
  regular : ∀ path property, .property path property ∈ entries → Regular property.definition
  below : ∀ entry ∈ entries, Within parent entry.path ∧ entry.path ≠ parent
  apart : (entries.map Entry.path).Pairwise Apart

theorem alternative_entries_paths (index : Nat) (required : List String) (own : Members)
    (paths : List String) (enough : paths.length = own.length) :
    (alternativeEntries index required own paths).map Entry.path = paths := by
  rw [alternativeEntries, List.map_map]
  exact List.map_snd_zip (Nat.le_of_eq enough)

def Layout.below (parent separator : String) : Layout := ⟨parent, separator, "."⟩

theorem below_plain (parent separator : String) :
    (fun name => parent ++ separator ++ name) = (Layout.below parent separator).plain := by
  funext name
  simp [Layout.below, Layout.plain, Layout.path, Layout.lead, Place.segment, Place.rest]

theorem below_tagged (parent separator number : String) :
    (fun name => parent ++ ".option_" ++ number ++ "." ++ name) =
      (Layout.below parent separator).tagged ("option_" ++ number) := by
  funext name
  apply String.toList_injective
  simp [Layout.below, Layout.tagged, Layout.path, Layout.lead, Place.segment, Place.rest]

theorem below_heading (parent separator label : String) :
    parent ++ ".__section_" ++ label = (Layout.below parent separator).heading label := by
  apply String.toList_injective
  simp [Layout.below, Layout.heading, Layout.path, Layout.lead, Place.segment, Place.rest]

theorem alternatives_below_paths (parent separator : String) (claimed : List String) (index : Nat)
    (alternatives : List Json) :
    (alternativesBelow parent separator claimed index alternatives).map Entry.path =
      (Layout.below parent separator).batchPaths claimed (alternativeBatches index alternatives) := by
  induction alternatives generalizing claimed index with
  | nil => rfl
  | cons alternative others ih =>
      unfold alternativesBelow alternativeBatches
      cases (alternative.get? "properties").bind Json.members? with
      | none => exact ih claimed (index + 1)
      | some own =>
          simp only [Layout.batchPaths, List.map_cons, List.map_append, ih]
          rw [alternative_entries_paths, Entry.path, below_plain, below_tagged parent separator,
            below_heading parent separator]
          exact (claim_paths_length _ _ claimed _).trans (List.length_map _)

theorem entries_below_paths (parent separator : String) (schema : Json) :
    (entriesBelow parent separator schema).map Entry.path =
      (Layout.below parent separator).paths (properties schema).keys
        (alternativeBatches 0 (((schema.get? "oneOf").bind Json.items?).getD [])) := by
  rw [entriesBelow, Layout.paths, List.map_append, alternatives_below_paths, below_plain, List.map_map]
  congr 1
  exact List.map_snd_zip (Nat.le_of_eq (by simp [Members.keys]))

theorem layout_below_sound (parent separator : String) (known : separator = "." ∨ separator = "[].") :
    (Layout.below parent separator).Sound := by
  rcases known with rfl | rfl
  · exact .inl rfl
  · exact .inr ⟨rfl, rfl⟩

theorem separator_continues (separator : String) (known : separator = "." ∨ separator = "[].")
    (rest : List Char) : Continues (separator.toList ++ rest) ∧ separator.toList ++ rest ≠ [] := by
  rcases known with rfl | rfl
  · simp [Continues, Joint]
  · simp [Continues, Joint]

theorem layout_below_within (parent separator : String) (known : separator = "." ∨ separator = "[].")
    (place : Place) : Within parent ((Layout.below parent separator).path place) ∧
      (Layout.below parent separator).path place ≠ parent := by
  have lead : (Layout.below parent separator).lead place = "." ∨
      (Layout.below parent separator).lead place = "[]." := by
    cases place with
    | plain name => exact known
    | heading label => exact .inl rfl
    | tagged tag name => exact .inl rfl
  have split : ((Layout.below parent separator).path place).toList = parent.toList ++
      (((Layout.below parent separator).lead place).toList ++
        (place.segment.toList ++ place.rest.toList)) := by
    simp [Layout.path, Layout.below]
  obtain ⟨continued, more⟩ := separator_continues _ lead (place.segment.toList ++ place.rest.toList)
  refine ⟨⟨_, continued, split⟩, fun same => more ?_⟩
  rw [same] at split
  exact List.self_eq_append_right.mp split

theorem entries_below_laid_out (parent separator : String) (schema : Json) (regular : Regular schema)
    (known : separator = "." ∨ separator = "[].") : LaidOut parent (entriesBelow parent separator schema) := by
  obtain ⟨own, plain⟩ := regular_properties schema regular
  have ownRegular := (regular_object_iff _).mp own
  have alternatives := hereditary_items regular_hereditary schema regular "oneOf"
  have sounds := alternative_batch_sound 0 _ alternatives
  have sound := layout_below_sound parent separator known
  refine ⟨fun path property member => ?_, fun entry member => ?_, ?_⟩
  · cases entries_below parent separator schema path property member with
    | own declared required inOwn => exact (ownRegular.2 declared inOwn).2
    | alternative alternative declared _ _ _ listed inOwn =>
        exact regular_hereditary.in_schemas.property alternative (alternatives alternative listed) declared inOwn
  · have inPaths := List.mem_map_of_mem (f := Entry.path) member
    rw [entries_below_paths] at inPaths
    obtain ⟨place, _, made⟩ := Layout.paths_origin _ _ _ plain sounds entry.path inPaths
    rw [made]
    exact layout_below_within parent separator known place
  · rw [entries_below_paths]
    exact Layout.paths_apart _ sound _ _ ownRegular.1 plain sounds (alternative_batches_separate 0 _)

theorem entries_of_laid_out (path : String) (definition : Json) (regular : Regular definition) :
    LaidOut path (entriesOf path definition) := by
  have items : Regular ((definition.get? "items").getD .null) := by
    cases found : definition.get? "items" with
    | none => exact regular_null
    | some inner => exact (regular_get definition regular "items" inner found).2
  rcases entries_of_cases path definition with own | inItems | nothing
  · rw [own]
    exact entries_below_laid_out path "." definition regular (.inl rfl)
  · rw [inItems]
    exact entries_below_laid_out path "[]." _ items (.inr rfl)
  · rw [nothing]
    exact ⟨nofun, nofun, List.Pairwise.nil⟩

-- The induction is on the depth: fields further down are built with one level less.
theorem build_enclosed (depth level : Nat) (path : String) (property : Property)
    (regular : Regular property.definition) : Enclosed (build depth level path property) := by
  induction depth generalizing level path property with
  | zero => exact enclosed_leaf _
  | succ depth ih =>
      obtain ⟨entriesRegular, below, apart⟩ := entries_of_laid_out path property.definition regular
      rw [build]
      refine enclosed_node _ _ (fun child member => ?_) (fun child member => ?_) ?_
      · obtain ⟨entry, inEntries, rfl⟩ := List.mem_map.mp member
        cases entry with
        | heading path label index => exact enclosed_leaf _
        | property path property => exact ih (level + 1) path property (entriesRegular path property inEntries)
      · obtain ⟨entry, inEntries, rfl⟩ := List.mem_map.mp member
        have inside := below entry inEntries
        cases entry with
        | heading path label index => exact inside
        | property own property =>
            rw [build_path]
            exact inside
      · rw [List.map_map]
        refine (congrArg (List.Pairwise Apart) (List.map_congr_left fun entry _ => ?_)).mpr apart
        cases entry with
        | heading path label index => rfl
        | property path property => exact build_path depth (level + 1) path property

def Layout.top : Layout := ⟨"", "", ""⟩

theorem top_plain : id = Layout.top.plain := by
  funext name
  simp [Layout.top, Layout.plain, Layout.path, Layout.lead, Place.segment, Place.rest]

theorem top_tagged (tag : String) : (fun name => tag ++ "." ++ name) = Layout.top.tagged tag := by
  funext name
  simp [Layout.top, Layout.tagged, Layout.path, Layout.lead, Place.segment, Place.rest, String.append_assoc]

theorem top_heading (tag : String) : "__section_" ++ tag = Layout.top.heading tag := by
  simp [Layout.top, Layout.heading, Layout.path, Layout.lead, Place.segment, Place.rest]

theorem heading_path (group : Group) : group.heading.path = "__section_" ++ group.tag :=
  scope_path group _

theorem sections_paths (root : Members) (groups : List Group) (depth : Nat) (claimed : List String)
    (rest : List Group) :
    ((sectionsFrom root groups depth claimed rest).flatMap Section.fields).map (fun field => field.path) =
      Layout.top.batchPaths claimed (rest.map (Group.batch root)) := by
  induction rest generalizing claimed with
  | nil => rfl
  | cons group others ih =>
      rw [sectionsFrom, List.flatMap_cons, List.map_append, ih, List.map_cons, Layout.batchPaths,
        Section.fields, List.map_cons, heading_path, top_heading, top_plain, top_tagged, List.map_map]
      congr 2
      refine (List.map_congr_left fun entry _ => ?_).trans (List.map_snd_zip (Nat.le_of_eq ?_))
      · exact group_field_path root groups depth group entry.2 entry.1.1 entry.1.2
      · exact (claim_paths_length _ _ claimed _).trans (List.length_map _)

theorem fields_paths (options : Options) (schema : Json) :
    (fields options schema).map (fun field => field.path) =
      Layout.top.paths (commonProperties schema (Group.all schema)).keys
        ((Group.all schema).map (Group.batch (properties schema))) := by
  rw [fields, List.map_append, sections, sections_paths, Layout.paths, ← top_plain, List.map_id]
  congr 1
  rw [commonFields, List.map_map]
  exact List.map_congr_left fun entry _ => build_path options.maxDepth 0 entry.1 _

theorem fields_enclosed (options : Options) (schema : Json) (regular : Regular schema) :
    ∀ field ∈ fields options schema, Enclosed field := by
  have own := regular_hereditary.in_schemas.property schema regular
  intro field member
  rcases top_field_cases options schema field member with common | ⟨part, inAll, rfl | emitted⟩
  · obtain ⟨entry, inCommon, rfl⟩ := List.mem_map.mp common
    exact build_enclosed _ 0 entry.1 _ (own entry (List.mem_filter.mp inCommon).1)
  · exact enclosed_leaf _
  · obtain ⟨inGroups, anatomy⟩ := section_members _ _ _ _ _ part inAll
    obtain ⟨path, name, definition, _, found, rfl⟩ := anatomy field emitted
    obtain ⟨source, whole, _, properties⟩ :=
      group_source regular_hereditary.in_schemas schema regular part.group inGroups
    rw [properties] at found
    have definitionRegular := hereditary_definition regular_hereditary.in_schemas _ _ own
      (regular_hereditary.in_schemas.property source whole) name definition found
    exact enclosed_with _ _ (scope_path part.group _) (build_enclosed _ 0 path _ definitionRegular)

theorem fields_apart (options : Options) (schema : Json) (regular : Regular schema)
    (unrepeated : ∀ group ∈ Group.all schema, group.required.Nodup) :
    ((fields options schema).map fun field => field.path).Pairwise Apart := by
  obtain ⟨own, plain⟩ := regular_properties schema regular
  rw [fields_paths]
  have common : (commonProperties schema (Group.all schema)).keys.Sublist (properties schema).keys :=
    List.filter_sublist.map Prod.fst
  refine Layout.paths_apart _ (.inl rfl) _ _ (List.Nodup.sublist common ((regular_object_iff _).mp own).1)
    (fun name inCommon => plain name (common.subset inCommon)) (fun batch member => ?_)
    (group_batches_separate schema regular)
  obtain ⟨group, inAll, rfl⟩ := List.mem_map.mp member
  exact group_batch_sound schema regular group inAll (unrepeated group inAll)

theorem compiled_paths_distinct (options : Options) (document : Json) (wellFormed : document.WellFormed)
    (plain : ∀ name ∈ declaredNames document, PlainName name)
    (unrepeated : ∀ group ∈ Group.all (unwrap document).schema, group.required.Nodup) :
    ((Form.ofDocument options document).allFields.map fun field => field.path).Nodup := by
  have regular := hereditary_unwrap regular_hereditary document ⟨wellFormed, plain⟩
  rw [Form.allFields, form_fields]
  exact apart_fields_distinct _ (fields_enclosed options _ regular) (fields_apart options _ regular unrepeated)

def supportDocument : Json := .object
  [("properties", .object
      [("TYPE", .object []), ("LENGTH", .object []),
        ("SUPPORT", .object
          [("properties", .object [("KIND", .object [])]),
            ("oneOf", .array
              [.object [("properties", .object [("KIND", .object []), ("STIFF", .object [])])],
                .object [("properties", .object [("STIFF", .object [])])]])]),
        ("LOADS", .object
          [("type", .text "array"),
            ("items", .object [("properties", .object [("FX", .object [])])])])]),
    ("allOf", .array
      [.object
        [("if", .object [("properties", .object [("TYPE", .object [("const", .text "BEAM")])])]),
          ("then", .object [("required", .array [.text "LENGTH"])])],
        .object
        [("if", .object [("properties", .object [("TYPE", .object [("const", .text "TRUSS")])])]),
          ("then", .object [("required", .array [.text "LENGTH"])])]]),
    ("oneOf", .array [.object [("required", .array [.text "SUPPORT"])]])]

theorem support_paths_distinct :
    ∃ paths, ((Form.ofDocument {} supportDocument).allFields.map fun field => field.path) = paths ∧
      paths.Nodup ∧
      ["LENGTH", "branch_1.LENGTH", "SUPPORT.KIND", "SUPPORT.option_0.KIND", "SUPPORT.STIFF",
        "SUPPORT.option_1.STIFF", "SUPPORT.__section_1", "LOADS[].FX"] ⊆ paths := by
  refine ⟨_, rfl, compiled_paths_distinct {} supportDocument ?_ ?_ ?_, by decide +kernel⟩
  · simp [supportDocument, Json.WellFormed, Json.WellFormedMembers, Json.WellFormedItems, Members.keys]
  · decide +kernel
  · decide +kernel

end ConditionalForm.Document
