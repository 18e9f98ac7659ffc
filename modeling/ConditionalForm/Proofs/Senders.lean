import ConditionalForm.Proofs.ReachedFields

set_option autoImplicit false

namespace ConditionalForm

variable (states : StateMap) (values : Snapshot)

def sender? (name : String) (fields : List Field) : Option Field :=
  fields.find? fun field =>
    !field.isHeading && field.name == name && (field.entry states values).isSome

theorem sender_cases (name : String) (fields : List Field) (field : Field)
    (sender : sender? states values name fields = some field) :
    field ∈ fields ∧ field.isHeading = false ∧ field.name = name ∧
      (field.entry states values).isSome = true := by
  have sends := List.find?_some sender
  simp only [Bool.and_eq_true, Bool.not_eq_true', beq_iff_eq] at sends
  exact ⟨List.mem_of_find?_eq_some sender, sends.1.1, sends.1.2, sends.2⟩

theorem sender_exists (fields : List Field) (field : Field) (member : field ∈ fields)
    (data : field.isHeading = false) (sent : (field.entry states values).isSome = true) :
    ∃ sender, sender? states values field.name fields = some sender := by
  refine Option.isSome_iff_exists.mp (List.find?_isSome.mpr ⟨field, member, ?_⟩)
  simp [data, sent]

theorem find_sent (name : String) (fields : List Field) :
    Members.find? name (assemble states values [] fields) =
      (sender? states values name fields).bind (Field.entry states values) := by
  rw [find_assemble]
  induction fields with
  | nil => rfl
  | cons field fields ih =>
      rw [contributions] at ih ⊢
      rw [sender?] at ih ⊢
      cases data : field.isHeading with
      | true => simp [Field.contribution, data, ih]
      | false =>
          cases sent : field.entry states values with
          | none => simp [Field.contribution, data, sent, ih]
          | some value =>
              by_cases same : field.name = name
              · simp [Field.contribution, data, sent, same, Members.find?]
              · simp [Field.contribution, data, sent, same, Ne.symm same, Members.find?, ih]

theorem agreed_sent (fields : List Field) (field : Field) (value : Json) (member : field ∈ fields)
    (data : field.isHeading = false) (sent : field.entry states values = some value)
    (agree : ∀ other ∈ fields, other.isHeading = false → other.name = field.name → Shown states other →
      other.entry states values = some value) :
    Members.find? field.name (assemble states values [] fields) = some value := by
  obtain ⟨other, sender⟩ := sender_exists states values fields field member data (by rw [sent]; rfl)
  obtain ⟨inFields, otherData, same, sends⟩ := sender_cases states values _ _ _ sender
  obtain ⟨entry, otherSent⟩ := Option.isSome_iff_exists.mp sends
  rw [find_sent, sender, Option.bind_some]
  exact agree other inFields otherData same (entry_shown states values other entry otherSent)

structure ShownAlone (fields : List Field) (field : Field) : Prop where
  member : field ∈ fields
  data : field.isHeading = false
  shown : Shown states field
  sole : ∀ other ∈ fields, other.isHeading = false → other.name = field.name →
    Shown states other → other = field

theorem shown_alone_of_count (fields : List Field) (field : Field) (member : field ∈ fields)
    (data : field.isHeading = false) (shown : Shown states field)
    (single : (fields.countP fun other =>
      !other.isHeading && other.name == field.name && decide (Shown states other)) = 1) :
    ShownAlone states fields field := by
  rw [List.countP_eq_length_filter, List.length_eq_one_iff] at single
  obtain ⟨only, kept⟩ := single
  have unique (other : Field) (inFields : other ∈ fields) (otherData : other.isHeading = false)
      (same : other.name = field.name) (otherShown : Shown states other) : other = only := by
    rw [← List.mem_singleton, ← kept, List.mem_filter]
    simp [inFields, otherData, same, otherShown]
  refine ⟨member, data, shown, fun other inFields otherData same otherShown => ?_⟩
  rw [unique other inFields otherData same otherShown, unique field member data rfl shown]

theorem sole_sent (field : Field) (fields : List Field) (alone : ShownAlone states fields field) :
    (sender? states values field.name fields).bind (Field.entry states values) =
      field.entry states values := by
  cases sender : sender? states values field.name fields with
  | none =>
      have silent := List.find?_eq_none.mp sender field alone.member
      have unsent : field.entry states values = none := by simpa [alone.data] using silent
      exact unsent.symm
  | some other =>
      obtain ⟨inFields, otherData, same, sends⟩ := sender_cases states values _ _ _ sender
      obtain ⟨value, sent⟩ := Option.isSome_iff_exists.mp sends
      rw [alone.sole other inFields otherData same (entry_shown states values other value sent),
        Option.bind_some]

theorem descend_object (name : String) (names : List String) (fields : List Field) :
    Snapshot.descend (name :: names) (.object (assemble states values [] fields)) =
      ((sender? states values name fields).bind (Field.entry states values)).bind
        (Snapshot.descend names) := by
  rw [Snapshot.descend, Json.get?, find_sent]

theorem group_entry_body (group : Field) (outer : group.isGroup = true) (value : Json)
    (sent : group.entry states values = some value) :
    value = .object (assemble states values [] group.children) := by
  rw [entry_group states values group outer] at sent
  exact (Option.some.inj (Option.ite_none_right_eq_some.mp sent).2).symm

inductive Placed : List Field → List String → Field → Prop
  | here {fields : List Field} {name : String} {field : Field}
      (sender : sender? states values name fields = some field) : Placed fields [name] field
  | inside {fields : List Field} {name : String} {group : Field} {names : List String} {field : Field}
      (sender : sender? states values name fields = some group) (outer : group.isGroup = true)
      (inner : Placed group.children names field) : Placed fields (name :: names) field

theorem placed_entry (fields : List Field) (names : List String) (field : Field)
    (placed : Placed states values fields names field) :
    ∃ value, Snapshot.descend names (.object (assemble states values [] fields)) = some value ∧
      field.entry states values = some value := by
  induction placed with
  | @here fields name field sender =>
      obtain ⟨value, entry⟩ := Option.isSome_iff_exists.mp (sender_cases states values _ _ _ sender).2.2.2
      refine ⟨value, ?_, entry⟩
      rw [descend_object, sender, Option.bind_some, entry]
      rfl
  | @inside fields name group names field sender outer _ ih =>
      obtain ⟨value, inside, entry⟩ := ih
      obtain ⟨body, sent⟩ := Option.isSome_iff_exists.mp (sender_cases states values _ _ _ sender).2.2.2
      refine ⟨value, ?_, entry⟩
      rw [descend_object, sender, Option.bind_some, sent, Option.bind_some,
        group_entry_body states values group outer body sent, inside]

theorem found_placed (fields : List Field) (names : List String) (value : Json) (inner : names ≠ [])
    (found : Snapshot.descend names (.object (assemble states values [] fields)) = some value) :
    ∃ front back field, names = front ++ back ∧ Placed states values fields front field ∧
      (back ≠ [] → field.isGroup = false) := by
  induction names generalizing fields with
  | nil => exact absurd rfl inner
  | cons name names ih =>
      rw [descend_object] at found
      obtain ⟨entry, sent, inside⟩ := Option.bind_eq_some_iff.mp found
      obtain ⟨field, sender, sent⟩ := Option.bind_eq_some_iff.mp sent
      by_cases last : names = []
      · exact ⟨[name], [], field, by rw [last]; rfl, .here sender, absurd rfl⟩
      · cases group : field.isGroup with
        | false => exact ⟨[name], names, field, rfl, .here sender, fun _ => group⟩
        | true =>
            rw [group_entry_body states values field group entry sent] at inside
            obtain ⟨front, back, leaf, split, placed, whole⟩ := ih field.children last inside
            exact ⟨name :: front, back, leaf, by rw [split]; rfl, .inside sender group placed, whole⟩

theorem nested_sent (group field : Field) (fields : List Field) (outer : group.isGroup = true)
    (alone : ShownAlone states fields group) (inner : ShownAlone states group.children field) :
    Snapshot.descend [group.name, field.name] (.object (assemble states values [] fields)) =
      field.entry states values := by
  rw [descend_object, sole_sent states values group fields alone]
  cases sent : group.entry states values with
  | some body =>
      rw [group_entry_body states values group outer body sent, Option.bind_some, descend_object,
        sole_sent states values field group.children inner]
      cases field.entry states values <;> rfl
  | none =>
      -- A group that is shown is sent unless nothing below it is.
      cases entry : field.entry states values with
      | none => rfl
      | some value =>
          have sends : (group.entry states values).isSome = true :=
            (entry_group_sent_iff states values group outer).mpr
              ⟨alone.shown, .inl ⟨field, inner.member, inner.data, by rw [entry]; rfl⟩⟩
          rw [sent] at sends
          cases sends

theorem leaf_entry_iff (field : Attributes) (state : FieldState) (value : Json)
    (visible : state.visible = true) (filled : value.isFilled = true) :
    field.leafEntry state values = some value ↔ field.entered values = some value := by
  constructor
  · intro sent
    obtain ⟨_, entry⟩ := Option.ite_none_right_eq_some.mp sent
    cases entered : field.entered values with
    | none =>
        rw [entered] at entry
        cases entry
        cases filled
    | some other =>
        rw [entered] at entry
        exact entry
  · intro entered
    rw [Attributes.leafEntry, entered]
    simp [FieldState.includes, hasValue, visible, filled]

end ConditionalForm
