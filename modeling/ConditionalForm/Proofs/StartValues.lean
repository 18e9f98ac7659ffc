import ConditionalForm.Proofs.PlainPaths
import ConditionalForm.Proofs.SharedObjects
import ConditionalForm.Session

set_option autoImplicit false

namespace ConditionalForm

open Document

inductive Seed (fields : List Field) : String × Json → Prop
  | top {field : Field} {value : Json} (member : field ∈ fields) (data : field.isHeading = false)
      (leaf : field.isGroup = false) (start : field.startValue = some value) :
      Seed fields (field.name, value)
  | below {group child : Field} {value : Json} (member : group ∈ fields) (data : group.isHeading = false)
      (outer : group.isGroup = true) (inner : child ∈ group.children) (childData : child.isHeading = false)
      (start : child.startValue = some value) : Seed fields (group.name ++ "." ++ child.name, value)

theorem seeds_origin (fields : List Field) (field : Field) (member : field ∈ fields) :
    ∀ entry ∈ field.seeds, Seed fields entry := by
  intro entry seeded
  rw [Field.seeds] at seeded
  split at seeded
  · cases seeded
  · rename_i data
    split at seeded
    · rename_i outer
      rw [Field.childSeeds] at seeded
      split at seeded
      · obtain ⟨child, inData, made⟩ := List.mem_filterMap.mp seeded
        obtain ⟨inner, childData⟩ := List.mem_filter.mp inData
        obtain ⟨value, start, rfl⟩ := Option.map_eq_some_iff.mp made
        exact .below member (by simpa using data) outer inner (by simpa using childData) start
      · cases seeded
    · rename_i leaf
      split at seeded
      · obtain ⟨value, start, rfl⟩ := Option.map_eq_some_iff.mp (Option.mem_toList.mp seeded)
        exact .top member (by simpa using data) (by simpa using leaf) start
      · cases seeded

theorem mem_add_all (values added : Members) (entry : String × Json)
    (member : entry ∈ added.foldl Members.addNew values) : entry ∈ values ∨ entry ∈ added := by
  induction added generalizing values with
  | nil => exact .inl member
  | cons first added ih =>
      rcases ih _ member with before | later
      · rw [Members.addNew] at before
        split at before
        · exact .inl before
        · rcases List.mem_append.mp before with old | new
          · exact .inl old
          · exact .inr (List.mem_singleton.mp new ▸ List.mem_cons_self)
      · exact .inr (List.mem_cons_of_mem _ later)

theorem start_values_seeded (fields : List Field) : ∀ entry ∈ initialValues fields, Seed fields entry := by
  refine List.foldlRecOn fields _ (motive := fun values => ∀ entry ∈ values, Seed fields entry) nofun ?_
  intro values seeded field member entry inNext
  split at inNext
  · exact seeded entry inNext
  · rcases mem_add_all values field.seeds entry inNext with before | own
    · exact seeded entry before
    · exact seeds_origin fields field member entry own

theorem Snapshot.lookup_held (values : Snapshot) (path : String) (value : Json)
    (held : Members.find? path values = some value) : values.lookup path = some value := by
  rw [lookup, held]

theorem held_leaf_entry (states : StateMap) (values : Snapshot) (field : Field) (value : Json)
    (leaf : field.isGroup = false) (shown : Shown states field) (filled : value.isFilled = true)
    (held : Members.find? field.path values = some value) : field.entry states values = some value := by
  rw [shown_leaf_entry_iff states values field value leaf shown filled,
    Snapshot.lookup_held values field.path value held, Option.some_or]

theorem first_segment_whole (name : String) (whole : '.' ∉ name.toList) : Snapshot.firstSegment name = name := by
  rcases Snapshot.first_segment_cases name with same | ⟨rest, split⟩
  · exact same.symm
  · refine absurd ?_ whole
    rw [split]
    simp

namespace Document

theorem top_field_path (options : Options) (root : Json) (field : Field) (member : field ∈ fields options root)
    (data : field.isHeading = false) : field.path = field.name ∨
      ∃ group ∈ Group.all root, field.path = group.tag ++ "." ++ field.name := by
  rcases data_field_cases options root field member data with common | ⟨part, emitted, inPart⟩
  · obtain ⟨item, _, rfl⟩ := List.mem_map.mp common
    rw [build_path, build_name]
    exact .inl rfl
  · refine (section_member_path _ _ _ _ _ part emitted field inPart).imp id fun tagged => ?_
    exact ⟨part.group, (section_members _ _ _ _ _ part emitted).1, tagged⟩

theorem top_field_name_plain (options : Options) (root : Json) (regular : Regular root) (field : Field)
    (member : field ∈ fields options root) (data : field.isHeading = false) : PlainName field.name := by
  rcases data_field_cases options root field member data with common | ⟨part, emitted, inPart⟩
  · obtain ⟨item, inCommon, rfl⟩ := List.mem_map.mp common
    rw [build_name]
    exact (regular_properties root regular).2 item.1 (List.mem_map_of_mem (List.mem_filter.mp inCommon).1)
  · obtain ⟨inGroups, anatomy⟩ := section_members _ _ _ _ _ part emitted
    obtain ⟨path, name, definition, listed, _, rfl⟩ := anatomy field inPart
    obtain ⟨source, whole, required, own⟩ := group_source regular_hereditary.in_schemas root regular part.group inGroups
    rw [Group.members, required, own] at listed
    rw [member_name]
    exact member_names_plain source whole name listed

theorem seed_first_segment (options : Options) (root : Json) (regular : Regular root) (entry : String × Json)
    (seed : Seed (fields options root) entry) : PlainName (Snapshot.firstSegment entry.1) := by
  have whole (name : String) (plain : PlainName name) : '.' ∉ name.toList := fun dot =>
    plain.1 '.' dot (by decide)
  cases seed with
  | top member data _ _ =>
      have plain := top_field_name_plain options root regular _ member data
      rwa [first_segment_whole _ (whole _ plain)]
  | below member data _ _ _ _ =>
      have plain := top_field_name_plain options root regular _ member data
      rwa [Snapshot.first_segment_dotted _ _ (whole _ plain)]

theorem tagged_unread (options : Options) (root : Json) (regular : Regular root) (tag rest : String)
    (tagged : PlainTag tag) : (initialValues (fields options root)).lookup (tag ++ "." ++ rest) = none := by
  have dotless : '.' ∉ tag.toList := fun dot => tagged.whole '.' dot (.inl rfl)
  have unseeded (key : String) (first : Snapshot.firstSegment key = tag) :
      Members.find? key (initialValues (fields options root)) = none := by
    rw [Members.find_none_iff]
    intro held
    obtain ⟨entry, member, rfl⟩ := List.mem_map.mp held
    have plain := seed_first_segment options root regular entry (start_values_seeded _ entry member)
    exact Place.plain_not_tag _ tag plain tagged first
  have first := Snapshot.first_segment_dotted tag rest dotless
  refine Snapshot.lookup_absent _ _ (unseeded _ first) ?_
  rw [first]
  exact unseeded tag (first_segment_whole tag dotless)

theorem top_field_entered (options : Options) (root : Json) (regular : Regular root) (field : Field)
    (member : field ∈ fields options root) (data : field.isHeading = false) (value : Json)
    (held : Members.find? field.name (initialValues (fields options root)) = some value) :
    field.entered (initialValues (fields options root)) = some value := by
  have named := Snapshot.lookup_held _ field.name value held
  rcases top_field_path options root field member data with bare | ⟨group, inAll, path⟩
  · rw [Attributes.entered, bare, named, Option.some_or]
  · have unread := tagged_unread options root regular group.tag field.name (group_tag root regular group inAll)
    rw [Attributes.entered, path, unread, Option.none_or, named]

theorem tagged_child_unread (options : Options) (root : Json) (regular : Regular root) (outer child : Field)
    (member : outer ∈ fields options root) (data : outer.isHeading = false) (group : outer.isGroup = true)
    (tagged : outer.path ≠ outer.name) (inner : child ∈ outer.children) (childData : child.isHeading = false) :
    (initialValues (fields options root)).lookup child.path = none := by
  have below := group_child_path options root outer child member data group inner childData
  rcases top_field_path options root outer member data with bare | ⟨part, inAll, path⟩
  · exact absurd bare tagged
  · rw [path] at below
    obtain ⟨more, dotted⟩ := path_below_dotted _ _ _ _ below
    rw [dotted]
    exact tagged_unread options root regular part.tag more (group_tag root regular part inAll)

end Document

namespace Session

def sent (session : Session) (names : List String) : Option Json := Snapshot.descend names session.payload

structure Holds (session : Session) (key : String) (value : Json) : Prop where
  held : Members.find? key session.values = some value
  filled : value.isFilled = true

end Session

-- What becomes of the values of a session in which nothing has been edited: those of fields whose
-- paths are plain are sent. Of the others the values of fields are sent that are found by their own
-- look-up, and those of objects that are just what is assembled from the fields below.
structure SendsStart (session : Session) : Prop where
  seeded : ∀ entry ∈ session.values, Seed session.form.fields entry
  plainField : ∀ field ∈ session.form.fields, field.isHeading = false → field.isGroup = false →
    Shown session.states field → field.path = field.name → ∀ value, session.Holds field.name value →
      session.sent [field.name] = some value
  plainChild : ∀ group ∈ session.form.fields, group.isHeading = false → group.isGroup = true →
    Shown session.states group → group.path = group.name →
      ∀ child ∈ group.children, child.isHeading = false → child.isGroup = false →
        Shown session.states child → child.path = group.name ++ "." ++ child.name →
          ∀ value, session.Holds (group.name ++ "." ++ child.name) value →
            session.sent [group.name, child.name] = some value
  field : ∀ field value, ShownAlone session.states session.form.fields field → field.isGroup = false →
    session.Holds field.name value → (session.sent [field.name] = some value ↔
      ∀ other, session.values.lookup field.path = some other → other = value)
  child : ∀ group child value, ShownAlone session.states session.form.fields group →
    group.isGroup = true → ShownAlone session.states group.children child → child.isGroup = false →
      session.Holds (group.name ++ "." ++ child.name) value →
        (session.sent [group.name, child.name] = some value ↔ child.entered session.values = some value)
  object : ∀ group child value, ShownAlone session.states session.form.fields group →
    group.isGroup = true → ShownAlone session.states group.children child → child.isGroup = true →
      session.Holds (group.name ++ "." ++ child.name) value →
        (session.sent [group.name, child.name] = some value ↔
          value = .object (assemble session.states session.values [] child.children) ∧
            (assemble session.states session.values [] child.children ≠ [] ∨
              (StateMap.stateAt session.states child.path).requiredNow = true))

structure SendsTagged (session : Session) : Prop where
  field : ∀ field ∈ session.form.fields, field.isHeading = false → Shown session.states field →
    (∀ other ∈ session.form.fields, other.isHeading = false → other.name = field.name →
      Shown session.states other → other.isGroup = false) →
        ∀ value, session.Holds field.name value → session.sent [field.name] = some value
  child : ∀ group child value, ShownAlone session.states session.form.fields group →
    group.isGroup = true → group.path ≠ group.name → ShownAlone session.states group.children child →
      child.isGroup = false → session.Holds (group.name ++ "." ++ child.name) value →
        (session.sent [group.name, child.name] = some value ↔
          session.values.lookup child.name = some value)

section Sent

variable (session : Session)

theorem sent_first (name : String) :
    session.sent [name] = Members.find? name (assemble session.states session.values [] session.form.fields) := by
  rw [Session.sent, Session.payload, Form.payload, Snapshot.descend, Json.get?]
  cases Members.find? name (assemble session.states session.values [] session.form.fields) <;> rfl

theorem sent_below (group : Field) (name : String) (body : Members)
    (sent : session.sent [group.name] = some (.object body)) :
    session.sent [group.name, name] = Members.find? name body := by
  rw [sent_first] at sent
  rw [Session.sent, Session.payload, Form.payload, Snapshot.descend, Json.get?, sent, Option.bind_some,
    Snapshot.descend, Json.get?]
  cases Members.find? name body <;> rfl

theorem sent_field (field : Field) (value : Json)
    (alone : ShownAlone session.states session.form.fields field) (leaf : field.isGroup = false)
    (holds : session.Holds field.name value) : session.sent [field.name] = some value ↔
      ∀ other, session.values.lookup field.path = some other → other = value := by
  rw [sent_first, find_sent, sole_sent _ _ field _ alone,
    shown_leaf_entry_iff _ _ field value leaf alone.shown holds.filled,
    Snapshot.lookup_held _ field.name value holds.held]
  cases session.values.lookup field.path <;> simp

theorem sent_child (group child : Field) (value : Json)
    (alone : ShownAlone session.states session.form.fields group) (outer : group.isGroup = true)
    (inner : ShownAlone session.states group.children child) (leaf : child.isGroup = false)
    (filled : value.isFilled = true) :
    session.sent [group.name, child.name] = some value ↔ child.entered session.values = some value := by
  have entry : session.sent [group.name, child.name] = child.entry session.states session.values :=
    nested_sent _ _ group child _ outer alone inner
  rw [entry, shown_leaf_entry_iff _ _ child value leaf inner.shown filled, Attributes.entered]

theorem sent_object (group child : Field) (value : Json)
    (alone : ShownAlone session.states session.form.fields group) (outer : group.isGroup = true)
    (inner : ShownAlone session.states group.children child) (object : child.isGroup = true) :
    session.sent [group.name, child.name] = some value ↔
      value = .object (assemble session.states session.values [] child.children) ∧
        (assemble session.states session.values [] child.children ≠ [] ∨
          (StateMap.stateAt session.states child.path).requiredNow = true) := by
  have entry : session.sent [group.name, child.name] = child.entry session.states session.values :=
    nested_sent _ _ group child _ outer alone inner
  rw [entry, entry_group _ _ child object, Option.ite_none_right_eq_some, Option.some.injEq]
  constructor
  · intro sent
    exact ⟨sent.2.symm, sent.1.2⟩
  · intro assembled
    exact ⟨⟨inner.shown, assembled.2⟩, assembled.1.symm⟩

variable (options : Options) (document : Json) (compiled : session.form = Form.ofDocument options document)

include compiled

theorem plain_field_sent (wellFormed : document.WellFormed) (field : Field)
    (member : field ∈ session.form.fields) (data : field.isHeading = false)
    (leaf : field.isGroup = false) (shown : Shown session.states field) (bare : field.path = field.name)
    (value : Json) (holds : session.Holds field.name value) : session.sent [field.name] = some value := by
  have whole := hereditary_unwrap well_formed_hereditary document wellFormed
  have ahead := top_plain_first options (unwrap document).schema whole
  rw [← form_fields, ← compiled] at ahead
  rw [sent_first]
  exact plain_sent _ _ id [] _ field ahead member data bare value
    (held_leaf_entry _ _ field value leaf shown holds.filled (bare ▸ holds.held))

theorem plain_child_sent (wellFormed : document.WellFormed) (group : Field)
    (member : group ∈ session.form.fields) (data : group.isHeading = false) (outer : group.isGroup = true)
    (shown : Shown session.states group) (bare : group.path = group.name) (child : Field)
    (inner : child ∈ group.children) (childData : child.isHeading = false) (leaf : child.isGroup = false)
    (childShown : Shown session.states child) (dotted : child.path = group.name ++ "." ++ child.name)
    (value : Json) (holds : session.Holds (group.name ++ "." ++ child.name) value) :
    session.sent [group.name, child.name] = some value := by
  have whole := hereditary_unwrap well_formed_hereditary document wellFormed
  have ahead := top_plain_first options (unwrap document).schema whole
  rw [← form_fields, ← compiled] at ahead
  have childAhead : PlainFirst (fun name => group.path ++ "." ++ name) [] group.children := by
    rw [compiled, form_fields] at member
    exact group_children_plain_first options _ whole group member data outer
  have entry : child.entry session.states session.values = some value :=
    held_leaf_entry _ _ child value leaf childShown holds.filled (dotted ▸ holds.held)
  have body := plain_sent _ _ _ [] _ child childAhead inner childData (bare ▸ dotted) value entry
  have nonempty := (assemble_nonempty_iff session.states session.values group.children).mpr
    ⟨child, inner, childData, by rw [entry]; rfl⟩
  have groupEntry : group.entry session.states session.values =
      some (.object (assemble session.states session.values [] group.children)) := by
    rw [entry_group _ _ group outer, if_pos ⟨shown, .inl nonempty⟩]
  rw [sent_below session group child.name _ ?_, body]
  rw [sent_first]
  exact plain_sent _ _ id [] _ group ahead member data bare _ groupEntry

end Sent

section Start

variable (options : Options) (document : Json) (session : Session)
  (started : session = Session.start (Form.ofDocument options document)) (regular : Regular document)

include started regular

theorem start_field_sent (field : Field) (member : field ∈ session.form.fields)
    (data : field.isHeading = false) (shown : Shown session.states field)
    (leaves : ∀ other ∈ session.form.fields, other.isHeading = false → other.name = field.name →
      Shown session.states other → other.isGroup = false)
    (value : Json) (holds : session.Holds field.name value) : session.sent [field.name] = some value := by
  have root := hereditary_unwrap regular_hereditary document regular
  have values : session.values = initialValues (fields options (unwrap document).schema) := by
    rw [started, ← form_fields]
    rfl
  have compiled : session.form.fields = fields options (unwrap document).schema := by
    rw [started, ← form_fields]
    rfl
  have entry (other : Field) (inFields : other ∈ session.form.fields) (otherData : other.isHeading = false)
      (same : other.name = field.name) (otherShown : Shown session.states other) :
      other.entry session.states session.values = some value := by
    have leaf := leaves other inFields otherData same otherShown
    have held : Members.find? other.name session.values = some value := same ▸ holds.held
    rw [shown_leaf_entry_iff _ _ other value leaf otherShown holds.filled]
    rw [values] at held ⊢
    exact top_field_entered options _ root other (compiled ▸ inFields) otherData value held
  rw [sent_first]
  exact agreed_sent _ _ _ field value member data (entry field member data rfl shown) entry

theorem start_child_sent (group child : Field) (value : Json)
    (alone : ShownAlone session.states session.form.fields group) (outer : group.isGroup = true)
    (tagged : group.path ≠ group.name) (inner : ShownAlone session.states group.children child)
    (leaf : child.isGroup = false) (filled : value.isFilled = true) :
    session.sent [group.name, child.name] = some value ↔ session.values.lookup child.name = some value := by
  have root := hereditary_unwrap regular_hereditary document regular
  have unread : session.values.lookup child.path = none := by
    have member := alone.member
    rw [started, Session.start, form_fields] at member ⊢
    exact tagged_child_unread options _ root group child member alone.data outer tagged inner.member inner.data
  rw [sent_child session group child value alone outer inner leaf filled, Attributes.entered, unread,
    Option.none_or]

end Start

theorem start_values_sent (options : Options) (document : Json) (wellFormed : document.WellFormed) :
    SendsStart (Session.start (Form.ofDocument options document)) ∧
      (Regular document → SendsTagged (Session.start (Form.ofDocument options document))) := by
  constructor
  · exact {
      seeded := start_values_seeded _
      plainField := plain_field_sent _ options document rfl wellFormed
      plainChild := plain_child_sent _ options document rfl wellFormed
      field := sent_field _
      child := fun group child value alone outer inner leaf holds =>
        sent_child _ group child value alone outer inner leaf holds.filled
      object := fun group child value alone outer inner object _ =>
        sent_object _ group child value alone outer inner object }
  · intro regular
    exact {
      field := start_field_sent options document _ rfl regular
      child := fun group child value alone outer tagged inner leaf holds =>
        start_child_sent options document _ rfl regular group child value alone outer tagged inner leaf
          holds.filled }

def trussDocument : Json := .object
  [("properties", .object
      [("TYPE", .object
          [("enum", .array [.text "BEAM", .text "TRUSS"]), ("default", .text "TRUSS")]),
        ("MATERIAL", .object [("enum", .array [.text "STEEL", .text "WOOD"])]),
        ("SIZE", .object
          [("type", .text "object"), ("required", .array [.text "WIDTH"]),
            ("properties", .object
              [("WIDTH", .object [("type", .text "number"), ("default", .number (.whole 2))])])])]),
    ("allOf", .array
      [.object
        [("if", .object [("properties", .object [("TYPE", .object [("const", .text "BEAM")])])]),
          ("then", .object [("required", .array [.text "MATERIAL"])])],
        .object
        [("if", .object [("properties", .object [("TYPE", .object [("const", .text "TRUSS")])])]),
          ("then", .object [("required", .array [.text "MATERIAL"])])]])]

def trussSession : Session := Session.start (Form.ofDocument {} trussDocument)

theorem truss_values_sent :
    (trussSession.form.fields[5]?.map fun field => field.path) = some "branch_1.MATERIAL" ∧
      trussSession.sent ["MATERIAL"] = some (.text "STEEL") ∧
      trussSession.sent ["SIZE", "WIDTH"] = some (.number (.whole 2)) := by
  have wellFormed : trussDocument.WellFormed := by
    simp [trussDocument, Json.WellFormed, Json.WellFormedMembers, Json.WellFormedItems, Members.keys]
  have regular : Regular trussDocument := ⟨wellFormed, by decide +kernel⟩
  have sent := start_values_sent {} trussDocument wellFormed
  have material := (sent.2 regular).field trussSession.form.fields[5] (List.getElem_mem _) rfl rfl
    (by decide +kernel) (.text "STEEL") ⟨rfl, rfl⟩
  refine ⟨rfl, material, ?_⟩
  exact sent.1.plainChild trussSession.form.fields[1] (List.getElem_mem _) rfl rfl rfl rfl
    trussSession.form.fields[1].children[0] (List.getElem_mem _) rfl rfl rfl rfl _ ⟨rfl, rfl⟩

def nestedDocument : Json := .object
  [("properties", .object
      [("F", .object
          [("type", .text "object"), ("required", .array [.text "G"]),
            ("properties", .object
              [("G", .object
                  [("type", .text "object"), ("default", .object [("H", .number (.whole 1))]),
                    ("properties", .object [("H", .object [("type", .text "number")])])])])])])]

def nestedSession : Session := Session.start (Form.ofDocument {} nestedDocument)

theorem nested_default_lost :
    ∃ group ∈ nestedSession.form.fields, ∃ child ∈ group.children, ∃ value,
      group.isHeading = false ∧ group.isGroup = true ∧ Shown nestedSession.states group ∧
      child.isHeading = false ∧ Shown nestedSession.states child ∧ child.startValue = some value ∧
      nestedSession.Holds (group.name ++ "." ++ child.name) value ∧
      nestedSession.sent [group.name, child.name] = some (.object []) ∧
      nestedSession.sent [group.name, child.name] ≠ some value := by
  have lost : nestedSession.sent ["F", "G"] = some (.object []) := rfl
  refine ⟨nestedSession.form.fields[0], List.getElem_mem _, nestedSession.form.fields[0].children[0],
    List.getElem_mem _, .object [("H", .number (.whole 1))], rfl, rfl, rfl, rfl, rfl, rfl, ⟨rfl, rfl⟩, lost, ?_⟩
  exact fun kept => nomatch lost.symm.trans kept

end ConditionalForm
