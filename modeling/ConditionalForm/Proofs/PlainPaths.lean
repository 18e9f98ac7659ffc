import ConditionalForm.Proofs.DistinctPaths
import ConditionalForm.Proofs.Senders

set_option autoImplicit false

namespace ConditionalForm.Document

theorem claim_paths_unclaimed {α : Type} (plain tagged : String → String)
    (differ : ∀ name, tagged name ≠ plain name) (claimed : List String) (items : List (String × α)) :
    ∀ entry ∈ items.zip (claimPaths plain tagged claimed (items.map Prod.fst)),
      entry.2 = plain entry.1.1 → entry.2 ∉ claimed := by
  induction items generalizing claimed with
  | nil => exact nofun
  | cons item items ih =>
      intro entry member bare taken
      rcases List.mem_cons.mp member with rfl | later
      · dsimp only at bare taken
        split at bare
        · exact differ item.1 bare
        · rename_i free
          rw [if_neg free] at taken
          exact free (List.contains_iff_mem.mpr taken)
      · exact ih _ entry later bare (List.mem_cons_of_mem _ taken)

theorem claim_paths_first {α : Type} (plain tagged : String → String)
    (differ : ∀ name, tagged name ≠ plain name) (claimed : List String) (items : List (String × α)) :
    (items.zip (claimPaths plain tagged claimed (items.map Prod.fst))).Pairwise
      fun a b => b.2 = plain b.1.1 → a.1.1 ≠ b.1.1 := by
  induction items generalizing claimed with
  | nil => exact List.Pairwise.nil
  | cons item items ih =>
      refine List.pairwise_cons.mpr ⟨fun entry later bare same => ?_, ih _⟩
      have unclaimed := claim_paths_unclaimed plain tagged differ _ items entry later bare
      dsimp only at same
      rw [bare, ← same] at unclaimed
      -- The plain path was claimed before this item, or it is what this item claims.
      split at unclaimed
      · rename_i taken
        exact unclaimed (List.mem_cons_of_mem _ (List.contains_iff_mem.mp taken))
      · exact unclaimed List.mem_cons_self

theorem claim_paths_covers {α : Type} (plain tagged : String → String) (claimed : List String)
    (items : List (String × α)) :
    ∀ item ∈ items, plain item.1 ∈ claimPaths plain tagged claimed (items.map Prod.fst) ++ claimed := by
  induction items generalizing claimed with
  | nil => exact nofun
  | cons first items ih =>
      intro item member
      rw [List.map_cons, claimPaths]
      rcases List.mem_cons.mp member with rfl | later
      · split
        · rename_i taken
          exact List.mem_append_right _ (List.contains_iff_mem.mp taken)
        · exact List.mem_append_left _ List.mem_cons_self
      · rcases List.mem_append.mp (ih _ item later) with own | before
        · exact List.mem_append_left _ (List.mem_cons_of_mem _ own)
        · rcases List.mem_cons.mp before with same | before
          · rw [same]
            exact List.mem_append_left _ List.mem_cons_self
          · exact List.mem_append_right _ before

structure PlainFirst (plain : String → String) (claimed : List String) (fields : List Field) : Prop where
  unclaimed : ∀ field ∈ fields, field.isHeading = false → field.path = plain field.name →
    field.path ∉ claimed
  first : fields.Pairwise fun earlier later => earlier.isHeading = false → later.isHeading = false →
    later.path = plain later.name → earlier.name ≠ later.name

theorem plain_first_nil (plain : String → String) (claimed : List String) : PlainFirst plain claimed [] :=
  ⟨nofun, List.Pairwise.nil⟩

theorem plain_first_heading (plain : String → String) (claimed : List String) (heading : Field)
    (fields : List Field) (noData : heading.isHeading = true) (rest : PlainFirst plain claimed fields) :
    PlainFirst plain claimed (heading :: fields) := by
  refine ⟨fun field member data => ?_, List.pairwise_cons.mpr ⟨fun _ _ data => ?_, rest.first⟩⟩
  · rcases List.mem_cons.mp member with rfl | later
    · rw [noData] at data
      cases data
    · exact rest.unclaimed field later data
  · rw [noData] at data
    cases data

theorem plain_first_append (plain : String → String) (claimed taken : List String)
    (fields others : List Field) (kept : claimed ⊆ taken)
    (covered : ∀ field ∈ fields, field.isHeading = false → plain field.name ∈ taken)
    (here : PlainFirst plain claimed fields) (there : PlainFirst plain taken others) :
    PlainFirst plain claimed (fields ++ others) := by
  refine ⟨fun field member data bare before => ?_, List.pairwise_append.mpr ⟨here.first, there.first, ?_⟩⟩
  · rcases List.mem_append.mp member with inFields | inOthers
    · exact here.unclaimed field inFields data bare before
    · exact there.unclaimed field inOthers data bare (kept before)
  · intro earlier inFields later inOthers data laterData bare same
    refine there.unclaimed later inOthers laterData bare ?_
    rw [bare, ← same]
    exact covered earlier inFields data

section Batch

variable {α : Type} (plain tagged : String → String) (claimed : List String) (items : List (String × α))
  (make : (String × α) × String → Field) (differ : ∀ name, tagged name ≠ plain name)
  (path : ∀ entry, (make entry).path = entry.2) (name : ∀ entry, (make entry).name = entry.1.1)

def claimedFields : List Field :=
  (items.zip (claimPaths plain tagged claimed (items.map Prod.fst))).map make

include differ path name

theorem claimed_fields_plain_first : PlainFirst plain claimed (claimedFields plain tagged claimed items make) := by
  constructor
  · intro field member _ bare
    obtain ⟨entry, zipped, rfl⟩ := List.mem_map.mp member
    rw [path, name] at bare
    rw [path]
    exact claim_paths_unclaimed plain tagged differ claimed items entry zipped bare
  · refine List.pairwise_map.mpr ((claim_paths_first plain tagged differ claimed items).imp ?_)
    intro earlier later apart _ _ bare
    rw [path, name] at bare
    rw [name, name]
    exact apart bare

theorem batch_plain_first (heading : Field) (noData : heading.isHeading = true) (others : List Field)
    (later : PlainFirst plain (claimPaths plain tagged claimed (items.map Prod.fst) ++ claimed) others) :
    PlainFirst plain claimed (heading :: claimedFields plain tagged claimed items make ++ others) := by
  have own := claimed_fields_plain_first plain tagged claimed items make differ path name
  refine plain_first_append plain claimed _ _ others (List.subset_append_right _ claimed) ?_
    (plain_first_heading plain claimed heading _ noData own) later
  intro field member data
  rcases List.mem_cons.mp member with rfl | inBatch
  · rw [noData] at data
    cases data
  · obtain ⟨entry, zipped, rfl⟩ := List.mem_map.mp inBatch
    rw [name]
    exact claim_paths_covers plain tagged claimed items entry.1 (List.of_mem_zip zipped).1

end Batch

theorem distinct_plain_first (plain : String → String) (items : Members) (make : String × Json → Field)
    (name : ∀ item, (make item).name = item.1) (distinct : items.keys.Nodup) :
    PlainFirst plain [] (items.map make) := by
  refine ⟨fun _ _ _ _ => List.not_mem_nil, List.pairwise_map.mpr ?_⟩
  refine (List.pairwise_map.mp distinct).imp fun {earlier later} differ _ _ _ => ?_
  rwa [name, name]

theorem well_formed_properties (schema : Json) (wellFormed : schema.WellFormed) :
    (properties schema).keys.Nodup := by
  rcases properties_cases schema with empty | found
  · rw [empty]
    exact List.nodup_nil
  · exact (hereditary_get well_formed_hereditary schema wellFormed "properties" _ found).1

theorem tagged_ne_plain (tag name : String) : tag ++ "." ++ name ≠ name := by
  intro same
  have lengths := congrArg String.length same
  simp only [String.length_append] at lengths
  have dot : ".".length = 1 := rfl
  omega

theorem sections_plain_first (root : Members) (groups : List Group) (depth : Nat) (claimed : List String)
    (rest : List Group) :
    PlainFirst id claimed ((sectionsFrom root groups depth claimed rest).flatMap Section.fields) := by
  induction rest generalizing claimed with
  | nil => exact plain_first_nil id claimed
  | cons group others ih =>
      rw [sectionsFrom, List.flatMap_cons]
      exact batch_plain_first id (fun name => group.tag ++ "." ++ name) claimed (group.definitions root)
        (fun entry => group.field root groups depth entry.2 entry.1.1 entry.1.2)
        (tagged_ne_plain group.tag) (fun entry => group_field_path root groups depth group _ _ _)
        (fun entry => member_name root groups depth group _ _ _) group.heading (heading_no_data group) _ (ih _)

theorem top_plain_first (options : Options) (schema : Json) (wellFormed : schema.WellFormed) :
    PlainFirst id [] (fields options schema) := by
  have distinct : (commonProperties schema (Group.all schema)).keys.Nodup :=
    (well_formed_properties schema wellFormed).sublist (List.filter_sublist.map Prod.fst)
  refine plain_first_append id [] (commonProperties schema (Group.all schema)).keys _ _ (List.nil_subset _) ?_ ?_
    (sections_plain_first _ _ _ _ _)
  · intro field member _
    obtain ⟨item, inCommon, rfl⟩ := List.mem_map.mp member
    rw [build_name]
    exact List.mem_map_of_mem inCommon
  · exact distinct_plain_first id _ _ (fun item => build_name _ _ _ _) distinct

def Entry.field (depth level : Nat) : Entry → Field
  | .heading path label optionIndex => headingField level path label optionIndex
  | .property path inner => build depth level path inner

theorem build_children (depth level : Nat) (path : String) (property : Property) :
    (build (depth + 1) level path property).children =
      (entriesOf path property.definition).map (Entry.field depth (level + 1)) := by
  refine List.map_congr_left fun entry _ => ?_
  cases entry <;> rfl

theorem option_ne_plain (parent number name : String) :
    parent ++ ".option_" ++ number ++ "." ++ name ≠ parent ++ "." ++ name := by
  intro same
  have lengths := congrArg String.length same
  simp only [String.length_append] at lengths
  have mark : ".option_".length = 8 := rfl
  omega

theorem alternatives_plain_first (depth level : Nat) (parent : String) (claimed : List String) (index : Nat)
    (alternatives : List Json) :
    PlainFirst (fun name => parent ++ "." ++ name) claimed
      ((alternativesBelow parent "." claimed index alternatives).map (Entry.field depth level)) := by
  induction alternatives generalizing claimed index with
  | nil => exact plain_first_nil _ claimed
  | cons alternative others ih =>
      rw [alternativesBelow]
      split
      · exact ih claimed (index + 1)
      · rename_i own _
        rw [List.map_append, List.map_cons, alternativeEntries, List.map_map]
        refine batch_plain_first _ _ claimed own _ (option_ne_plain parent (toString index))
          (fun entry => ?_) (fun entry => ?_) _ ?_ _ (ih _ (index + 1))
        · exact build_path _ _ _ _
        · exact build_name _ _ _ _
        · rfl

theorem children_plain_first (depth level : Nat) (path : String) (property : Property)
    (object : FieldType.ofDefinition property.definition = .object)
    (wellFormed : property.definition.WellFormed) :
    PlainFirst (fun name => path ++ "." ++ name) [] (build depth level path property).children := by
  cases depth with
  | zero => exact plain_first_nil _ []
  | succ depth =>
      have zipped : (properties property.definition).zip
          ((properties property.definition).keys.map fun name => path ++ "." ++ name) =
            (properties property.definition).map fun item => (item, path ++ "." ++ item.1) := by
        rw [Members.keys, List.map_map, ← List.map_prod_left_eq_zip]
        rfl
      simp only [build_children, entriesOf, object, entriesBelow, zipped, List.map_append, List.map_map]
      refine plain_first_append _ [] _ _ _ (List.nil_subset _) ?_ ?_
        (alternatives_plain_first _ _ path _ 0 _)
      · intro field member _
        obtain ⟨item, inOwn, rfl⟩ := List.mem_map.mp member
        refine List.mem_map.mpr ⟨item.1, List.mem_map_of_mem inOwn, ?_⟩
        rw [Function.comp_apply, Function.comp_apply, Entry.field, build_name]
      · exact distinct_plain_first _ _ _ (fun item => build_name _ _ _ _)
          (well_formed_properties _ wellFormed)

theorem group_children_plain_first (options : Options) (schema : Json) (wellFormed : schema.WellFormed)
    (group : Field) (member : group ∈ fields options schema) (data : group.isHeading = false)
    (outer : group.isGroup = true) : PlainFirst (fun name => group.path ++ "." ++ name) [] group.children := by
  obtain ⟨property, definition, built⟩ :=
    top_field_built well_formed_hereditary.in_schemas options schema wellFormed group member data
  rw [built.children]
  exact children_plain_first options.maxDepth 0 group.path property
    (group_object group options.maxDepth property built outer) definition

end ConditionalForm.Document

namespace ConditionalForm

theorem plain_sent (states : StateMap) (values : Snapshot) (plain : String → String) (claimed : List String)
    (fields : List Field) (field : Field) (ahead : Document.PlainFirst plain claimed fields)
    (member : field ∈ fields) (data : field.isHeading = false) (bare : field.path = plain field.name)
    (value : Json) (sent : field.entry states values = some value) :
    Members.find? field.name (assemble states values [] fields) = some value := by
  have sends : (field.entry states values).isSome = true := by rw [sent]; rfl
  obtain ⟨other, sender⟩ := sender_exists states values fields field member data sends
  obtain ⟨_, otherData, same, _⟩ := sender_cases states values _ _ _ sender
  obtain ⟨_, before, after, split, silent⟩ := List.find?_eq_some_iff_append.mp sender
  have apart := ahead.first
  rw [find_sent, sender, Option.bind_some]
  rw [split] at member apart
  rcases List.mem_append.mp member with inBefore | inRest
  · have quiet := silent field inBefore
    simp [data, sends] at quiet
  · rcases List.mem_cons.mp inRest with rfl | inAfter
    · exact sent
    · have first := (List.pairwise_cons.mp (List.pairwise_append.mp apart).2.1).1 field inAfter
      exact absurd same (first otherData data bare)

end ConditionalForm
