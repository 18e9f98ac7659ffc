import ConditionalForm.Proofs.Alternatives
import ConditionalForm.Proofs.HiddenEntries
import ConditionalForm.Proofs.MissingFields

set_option autoImplicit false

namespace ConditionalForm

open Document

namespace Field

mutual
theorem walk_trans (field outer inner : Field) (walked : outer ∈ walk field)
    (below : inner ∈ walkAll outer.children) : inner ∈ walk field := by
  obtain ⟨attributes, children⟩ := field
  rw [walk] at walked ⊢
  rcases List.mem_cons.mp walked with rfl | deeper
  · exact List.mem_cons_of_mem _ below
  · exact List.mem_cons_of_mem _ (walk_all_trans children outer inner deeper below)

theorem walk_all_trans (fields : List Field) (outer inner : Field) (walked : outer ∈ walkAll fields)
    (below : inner ∈ walkAll outer.children) : inner ∈ walkAll fields := by
  cases fields with
  | nil => cases walked
  | cons field fields =>
      rw [walkAll] at walked ⊢
      rcases List.mem_append.mp walked with first | others
      · exact List.mem_append_left _ (walk_trans field outer inner first below)
      · exact List.mem_append_right _ (walk_all_trans fields outer inner others below)
end

theorem child_walked (fields : List Field) (outer child : Field) (walked : outer ∈ walkAll fields)
    (member : child ∈ outer.children) : child ∈ walkAll fields :=
  walk_all_trans fields outer child walked ((mem_walk_all_iff _ _).mpr ⟨child, member, .inl rfl⟩)

end Field

namespace Document

theorem array_child_path (depth level : Nat) (path : String) (property : Property) (child : Field)
    (array : FieldType.ofDefinition property.definition = .array (some .object))
    (member : child ∈ (build depth level path property).children) (data : child.isHeading = false) :
    PathBelow path "[]." child.path child.name :=
  child_path depth level path "[]." _ property child (by simp only [entriesOf, array]; rfl) member data

theorem build_walked (depth level : Nat) (path : String) (property : Property) (field : Field)
    (walked : field ∈ Field.walkAll (build depth level path property).children)
    (data : field.isHeading = false) :
    ∃ depth level property, field = build depth level field.path property := by
  induction depth generalizing level path property with
  | zero => cases walked
  | succ depth ih =>
      obtain ⟨child, inChildren, source⟩ := (Field.mem_walk_all_iff _ _).mp walked
      obtain ⟨entry, _, rfl⟩ := List.mem_map.mp inChildren
      cases entry with
      | heading path label optionIndex =>
          rcases source with rfl | deeper
          · cases data
          · cases deeper
      | property own inner =>
          rcases source with rfl | deeper
          · exact ⟨depth, level + 1, inner, by rw [build_path]⟩
          · exact ih _ own inner deeper

theorem heading_childless (options : Options) (root : Json) (top : Field) (member : top ∈ fields options root)
    (heading : top.isHeading = true) : top.children = [] := by
  rcases top_field_cases options root top member with common | ⟨part, emitted, rfl | own⟩
  · obtain ⟨property, _, rfl⟩ := List.mem_map.mp common
    rw [Field.isHeading, build_attributes] at heading
    cases heading
  · rfl
  · obtain ⟨path, name, definition, _, _, rfl⟩ := (section_members _ _ _ _ _ part emitted).2 top own
    rw [member_data] at heading
    cases heading

theorem item_member_path (options : Options) (root : Json) (list child : Field)
    (walked : list ∈ Field.walkAll (fields options root)) (listData : list.isHeading = false)
    (type : list.type = .array (some .object)) (inner : child ∈ list.children)
    (data : child.isHeading = false) : PathBelow list.path "[]." child.path child.name := by
  obtain ⟨top, member, source⟩ := (Field.mem_walk_all_iff _ _).mp walked
  cases heading : top.isHeading with
  | true =>
      have childless := heading_childless options root top member heading
      rcases source with rfl | below
      · rw [childless] at inner
        cases inner
      · rw [childless] at below
        cases below
  | false =>
      obtain ⟨property, _, built⟩ := top_field_built anything_hereditary.in_schemas options root trivial top member heading
      rcases source with rfl | below
      · rw [built.children] at inner
        exact array_child_path _ _ _ property child (built.type.symm.trans type) inner data
      · rw [built.children] at below
        obtain ⟨depth, level, own, same⟩ := build_walked _ _ _ property list below listData
        have array := (congrArg (fun field : Field => field.type) same).symm.trans type
        rw [build_attributes] at array
        rw [same] at inner
        exact array_child_path _ _ _ own child array inner data

theorem item_member_below (options : Options) (document : Json) (list child : Field)
    (walked : list ∈ (Form.ofDocument options document).allFields) (inner : child ∈ list.children) :
    BelowProperty child.toAttributes := by
  rw [Form.allFields, form_fields] at walked
  obtain ⟨top, member, source⟩ := (Field.mem_walk_all_iff _ _).mp walked
  refine nested_below options _ top member child ?_
  rcases source with rfl | below
  · exact (Field.mem_walk_all_iff _ _).mpr ⟨child, inner, .inl rfl⟩
  · exact Field.child_walked top.children list child below inner

def ItemPlace (list lead : String) : Prop :=
  lead = list ++ "[]" ∨ ∃ index : Nat, lead = list ++ ".option_" ++ toString index

theorem path_below_items (list path name : String) (below : PathBelow list "[]." path name) :
    ∃ lead, ItemPlace list lead ∧ path = lead ++ "." ++ name := by
  rcases below with rfl | ⟨index, rfl⟩
  · refine ⟨list ++ "[]", .inl rfl, String.toList_injective ?_⟩
    simp
  · exact ⟨_, .inr ⟨index, rfl⟩, rfl⟩

theorem item_path_longer (list lead name : String) (place : ItemPlace list lead) :
    lead ++ "." ++ name ≠ list := by
  intro same
  have lengths := congrArg String.length same
  have joint : ".".length = 1 := rfl
  rcases place with rfl | ⟨index, rfl⟩
  · simp only [String.length_append] at lengths
    omega
  · simp only [String.length_append] at lengths
    omega

end Document

structure Snapshot.DifferInItems (key : String) (v w : Snapshot) : Prop where
  elsewhere : Snapshot.DifferOnlyAt key v w
  array : ∃ items, Members.find? key v = some (.array items)
  other : ∃ items, Members.find? key w = some (.array items)

theorem array_leads_nowhere (values : Snapshot) (items : List Json) (path : String)
    (held : Members.find? (Snapshot.firstSegment path) values = some (.array items))
    (inside : path ≠ Snapshot.firstSegment path) :
    Snapshot.descend (Snapshot.segments path) (.object values) = none := by
  rcases Snapshot.first_segment_cases path with only | ⟨rest, split⟩
  · exact absurd only inside
  · have first := Snapshot.segments_whole _ (Snapshot.first_segment_undotted path)
    rw [split, Snapshot.segments_join, Snapshot.descend_append, first, Snapshot.descend, Json.get?, held]
    cases found : Snapshot.descend (Snapshot.segments rest) (.array items) with
    | none => exact found
    | some inner =>
        obtain ⟨members, object⟩ := Snapshot.descend_through rest _ inner found
        cases object

theorem lookup_other_items (key : String) (v w : Snapshot) (differ : Snapshot.DifferInItems key v w)
    (path : String) (other : path ≠ key) : v.lookup path = w.lookup path := by
  have whole := differ.elsewhere path other
  by_cases first : Snapshot.firstSegment path = key
  · obtain ⟨items, held⟩ := differ.array
    obtain ⟨others, otherHeld⟩ := differ.other
    rw [← first] at held otherHeld other
    rw [Snapshot.lookup_held_only v path (array_leads_nowhere v items path held other),
      Snapshot.lookup_held_only w path (array_leads_nowhere w others path otherHeld other), whole]
  · exact Snapshot.lookup_agree v w path whole (differ.elsewhere _ first)

theorem entered_by_name (field : Attributes) (values : Snapshot) (lead name : String)
    (path : field.path = lead ++ "." ++ name) (untyped : Members.find? field.path values = none)
    (nothing : Snapshot.descend (Snapshot.segments lead) (.object values) = none) :
    field.entered values = values.lookup field.name := by
  have nowhere : Snapshot.descend (Snapshot.segments field.path) (.object values) = none := by
    rw [path, Snapshot.segments_join, Snapshot.descend_append, nothing]
    rfl
  have absent := (Snapshot.lookup_held_only values field.path nowhere).trans untyped
  rw [Attributes.entered, absent, Option.none_or]

theorem below_state (form : Form) (field : Field) (values : Snapshot) (last : form.LastAt field)
    (plain : field.markers.Unconditional) (below : BelowProperty field.toAttributes) :
    Shown (form.evaluate values) field ∧
      (StateMap.stateAt (form.evaluate values) field.path).requiredNow =
        field.requirement.isAlwaysRequired := by
  have state := unmarked_state (Evaluation.start form.fields form.discriminatorField values)
    field.toAttributes plain
  rw [Shown, state_at_last form field values last]
  refine ⟨state.1, state.2.trans ?_⟩
  exact settled_required _ _ plain.2.1 (below_settled field.toAttributes below)

theorem item_member_missed_iff (options : Options) (document : Json) (values : Snapshot)
    (list child : Field) (walked : list ∈ (Form.ofDocument options document).allFields)
    (listData : list.isHeading = false) (type : list.type = .array (some .object))
    (inner : child ∈ list.children) (data : child.isHeading = false) :
    let form := Form.ofDocument options document
    let states := form.evaluate values
    form.issues states values = (form.faults states values).map Form.report ∧
    (form.Misses states values child ↔ Shown states child ∧
      (StateMap.stateAt states child.path).requiredNow = true ∧ hasValue (child.entered values) = false) ∧
    (child.markers.Unconditional → form.LastAt child →
      (form.Misses states values child ↔
        child.requirement.isAlwaysRequired = true ∧ hasValue (child.entered values) = false)) ∧
    ∃ lead, ItemPlace list.path lead ∧ child.path = lead ++ "." ++ child.name ∧
      (Members.find? child.path values = none →
        Snapshot.descend (Snapshot.segments lead) (.object values) = none →
          child.entered values = values.lookup child.name) ∧
      ∀ other, Snapshot.DifferInItems list.path values other → child.name ≠ list.path →
        child.entered values = child.entered other := by
  intro form states
  have inForm : child ∈ form.allFields := Field.child_walked _ list child walked inner
  have decided := form.missed_iff states values child inForm data
  refine ⟨form.issues_faults states values, decided, fun plain last => ?_, ?_⟩
  · obtain ⟨shown, required⟩ := below_state form child values last plain
      (item_member_below options document list child walked inner)
    rw [decided, required]
    exact and_iff_right shown
  · rw [Form.allFields, form_fields] at walked
    obtain ⟨lead, place, path⟩ := path_below_items list.path child.path child.name
      (item_member_path options _ list child walked listData type inner data)
    refine ⟨lead, place, path, entered_by_name child.toAttributes values lead child.name path,
      fun other differ named => ?_⟩
    have below : child.path ≠ list.path := path ▸ item_path_longer list.path lead child.name place
    rw [Attributes.entered, Attributes.entered, lookup_other_items _ _ _ differ _ below,
      lookup_other_items _ _ _ differ _ named]

def loadsDocument : Json := .object
  [("properties", .object
      [("LOADS", .object
          [("type", .text "array"),
            ("items", .object
              [("type", .text "object"), ("required", .array [.text "FX"]),
                ("properties", .object [("FX", .object [("type", .text "number")])])])])])]

def loadsForm : Form := Form.ofDocument {} loadsDocument

def loadsEntries (items : List Json) (others : Snapshot) : Snapshot := ("LOADS", .array items) :: others

theorem loads_walked : loadsForm.fields[0] ∈ loadsForm.allFields :=
  (Field.mem_walk_all_iff _ _).mpr ⟨_, List.getElem_mem _, .inl rfl⟩

theorem bare_force_found :
    let values := loadsEntries [] [("FX", .number (.whole 2))]
    let force := loadsForm.fields[0].children[0]
    ¬ loadsForm.Misses (loadsForm.evaluate values) values force ∧
      force.entered values = force.entered (loadsEntries [.object []] [("FX", .number (.whole 2))]) := by
  intro values force
  obtain ⟨_, _, missed, _, _, _, _, unread⟩ := item_member_missed_iff {} loadsDocument values
    loadsForm.fields[0] force loads_walked rfl rfl (List.getElem_mem _) rfl
  have last : loadsForm.LastAt force := distinct_last_at loadsForm force
    (Field.child_walked _ _ _ loads_walked (List.getElem_mem _)) (by decide +kernel)
  refine ⟨fun required => ?_, unread _ ⟨?_, ⟨_, rfl⟩, ⟨_, rfl⟩⟩ (by decide +kernel)⟩
  · have unfilled := ((missed (by decide +kernel) last).mp required).2
    have filled : hasValue (force.entered values) = true := by decide +kernel
    cases filled.symm.trans unfilled
  · intro key other
    have different : ¬ key = "LOADS" := other
    simp [values, loadsEntries, Members.find?, different]

theorem item_force_missed :
    let values := loadsEntries [.object [("FX", .number (.whole 1))]] []
    ∃ list ∈ loadsForm.allFields, ∃ child ∈ list.children, ∃ items,
      list.type = .array (some .object) ∧ child.isHeading = false ∧ child.isGroup = false ∧
      values.lookup list.path = some (.array items) ∧
      (∀ item ∈ items, hasValue (item.get? child.name) = true) ∧
      loadsForm.Misses (loadsForm.evaluate values) values child ∧
      loadsForm.check (loadsForm.evaluate values) values =
        .error (.invalid [⟨"LOADS[].FX", "FX is required"⟩]) := by
  intro values
  have missed := (loadsForm.missed_iff (loadsForm.evaluate values) values
    loadsForm.fields[0].children[0]
    (Field.child_walked _ _ _ loads_walked (List.getElem_mem _)) rfl).mpr
      ⟨by decide +kernel, by decide +kernel, by decide +kernel⟩
  have issues : loadsForm.issues (loadsForm.evaluate values) values = [⟨"LOADS[].FX", "FX is required"⟩] := by
    decide +kernel
  refine ⟨_, loads_walked, _, List.getElem_mem _, _, rfl, rfl, rfl, rfl, by decide +kernel, missed, ?_⟩
  rw [Form.check, issues]
  rfl

end ConditionalForm
