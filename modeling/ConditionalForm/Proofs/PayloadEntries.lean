import ConditionalForm.InitialValues
import ConditionalForm.Payload

set_option autoImplicit false

namespace ConditionalForm

namespace Members

theorem find_none_iff (name : String) (members : Members) :
    find? name members = none ↔ name ∉ members.keys := by
  induction members with
  | nil => simp [find?, keys]
  | cons member members ih =>
      have tail : (keys (member :: members)) = member.1 :: keys members := rfl
      by_cases same : name = member.1
      · simp [find?, tail, same]
      · simp [find?, tail, same, ih]

theorem contains_iff (name : String) (members : Members) :
    members.contains name = true ↔ name ∈ members.keys := by
  have absent := find_none_iff name members
  rw [contains]
  cases found : find? name members with
  | none => simp [absent.mp found]
  | some value => simpa [found] using absent

theorem find_append (name : String) (first second : Members) :
    find? name (first ++ second) = (find? name first).or (find? name second) := by
  induction first with
  | nil => simp [find?]
  | cons member first ih =>
      by_cases same : name = member.1
      · simp [find?, same]
      · simp [find?, same, ih]

theorem find_add_new (name : String) (members : Members) (member : String × Json) :
    find? name (members.addNew member) = (find? name members).or (find? name [member]) := by
  rw [addNew]
  split
  · rename_i held
    by_cases same : name = member.1
    · obtain ⟨value, found⟩ := Option.isSome_iff_exists.mp held
      subst same
      simp [found]
    · simp [find?, same]
  · exact find_append name members [member]

theorem find_add_all (name : String) (members entries : Members) :
    find? name (entries.foldl addNew members) = (find? name members).or (find? name entries) := by
  induction entries generalizing members with
  | nil => simp [find?]
  | cons entry entries ih =>
      have split : find? name (entry :: entries) = (find? name [entry]).or (find? name entries) :=
        find_append name [entry] entries
      rw [List.foldl_cons, ih, find_add_new, split, Option.or_assoc]

theorem add_all_distinct (members entries : Members) (distinct : (keys (members ++ entries)).Nodup) :
    entries.foldl addNew members = members ++ entries := by
  induction entries generalizing members with
  | nil => simp
  | cons entry entries ih =>
      have regrouped : members ++ entry :: entries = (members ++ [entry]) ++ entries := by simp
      have unseen : ¬ members.contains entry.1 = true := by
        rw [contains_iff]
        intro before
        rw [keys, List.map_append] at distinct
        have apart := (List.nodup_append.mp distinct).2.2
        exact apart entry.1 before entry.1 List.mem_cons_self rfl
      rw [List.foldl_cons, addNew, if_neg unseen, ih _ (regrouped ▸ distinct), regrouped]

end Members

variable (states : StateMap) (values : Snapshot)

def Field.contribution (field : Field) : Option (String × Json) :=
  if field.isHeading then none else (field.entry states values).map (field.name, ·)

def contributions (fields : List Field) : Members :=
  fields.filterMap (Field.contribution states values)

theorem entry_leaf (field : Field) (leaf : field.isGroup = false) :
    field.entry states values =
      field.leafEntry (StateMap.stateAt states field.path) values := by
  obtain ⟨attributes, children⟩ := field
  rw [Field.entry]
  cases shown : (StateMap.stateAt states attributes.path).visible with
  | true => simp [leaf]
  | false => simp [Attributes.leafEntry, FieldState.includes, shown]

theorem entry_group (field : Field) (group : field.isGroup = true) :
    field.entry states values =
      if (StateMap.stateAt states field.path).visible = true ∧
          (assemble states values [] field.children ≠ [] ∨
            (StateMap.stateAt states field.path).requiredNow = true) then
        some (.object (assemble states values [] field.children))
      else none := by
  obtain ⟨attributes, children⟩ := field
  rw [Field.entry]
  simp only [group]
  cases (StateMap.stateAt states attributes.path).visible <;>
    cases (StateMap.stateAt states attributes.path).requiredNow <;>
      cases assemble states values [] children <;> simp

theorem entry_shown (field : Field) (value : Json) (sent : field.entry states values = some value) :
    (StateMap.stateAt states field.path).visible = true := by
  cases shown : (StateMap.stateAt states field.path).visible with
  | true => rfl
  | false =>
      obtain ⟨attributes, children⟩ := field
      simp [Field.entry, shown] at sent

theorem required_entry_sent (field : Field) (visible : (StateMap.stateAt states field.path).visible = true)
    (required : (StateMap.stateAt states field.path).requiredNow = true) :
    (field.entry states values).isSome = true := by
  cases group : field.isGroup with
  | false =>
      rw [entry_leaf states values field group]
      simp [Attributes.leafEntry, FieldState.includes, visible, required]
  | true => simp [entry_group states values field group, visible, required]

theorem assemble_contributions (body : Members) (fields : List Field) :
    assemble states values body fields =
      (contributions states values fields).foldl Members.addNew body := by
  induction fields generalizing body with
  | nil => simp [assemble, contributions]
  | cons field fields ih =>
      rw [contributions] at ih ⊢
      rw [assemble]
      cases heading : field.isHeading with
      | true => simp [Field.contribution, heading, ih]
      | false =>
          cases sent : field.entry states values with
          | none => simp [Field.contribution, heading, sent, ih]
          | some value =>
              by_cases held : body.contains field.name = true
              · simp [Field.contribution, heading, sent, ih, Members.addNew, held]
              · simp [Field.contribution, heading, sent, ih, Members.addNew, held]

theorem find_assemble (name : String) (fields : List Field) :
    Members.find? name (assemble states values [] fields) =
      Members.find? name (contributions states values fields) := by
  rw [assemble_contributions, Members.find_add_all]
  rfl

theorem mem_contribution_keys (name : String) (fields : List Field) :
    name ∈ (contributions states values fields).keys ↔
      ∃ field ∈ fields, field.isHeading = false ∧ field.name = name ∧
        (field.entry states values).isSome = true := by
  constructor
  · intro member
    obtain ⟨entry, inEntries, rfl⟩ := List.mem_map.mp member
    obtain ⟨field, inFields, made⟩ := List.mem_filterMap.mp inEntries
    rw [Field.contribution] at made
    split at made
    · cases made
    · rename_i data
      obtain ⟨value, sent, rfl⟩ := Option.map_eq_some_iff.mp made
      exact ⟨field, inFields, by simpa using data, rfl, by simp [sent]⟩
  · intro sender
    obtain ⟨field, inFields, data, rfl, sent⟩ := sender
    obtain ⟨value, sent⟩ := Option.isSome_iff_exists.mp sent
    refine List.mem_map.mpr ⟨(field.name, value), List.mem_filterMap.mpr ⟨field, inFields, ?_⟩, rfl⟩
    simp [Field.contribution, data, sent]

theorem assemble_contains_iff (name : String) (fields : List Field) :
    Members.contains name (assemble states values [] fields) = true ↔
      ∃ field ∈ fields, field.isHeading = false ∧ field.name = name ∧
        (field.entry states values).isSome = true := by
  rw [← mem_contribution_keys, ← Members.contains_iff, Members.contains, Members.contains,
    find_assemble]

theorem assemble_nonempty_iff (fields : List Field) :
    assemble states values [] fields ≠ [] ↔
      ∃ field ∈ fields, field.isHeading = false ∧ (field.entry states values).isSome = true := by
  constructor
  · intro nonempty
    obtain ⟨member, inBody⟩ := List.exists_mem_of_ne_nil _ nonempty
    have held := (Members.contains_iff member.1 _).mpr (List.mem_map_of_mem inBody)
    obtain ⟨field, inFields, data, _, sent⟩ := (assemble_contains_iff states values _ fields).mp held
    exact ⟨field, inFields, data, sent⟩
  · intro sender
    obtain ⟨field, inFields, data, sent⟩ := sender
    have held := (assemble_contains_iff states values _ fields).mpr ⟨field, inFields, data, rfl, sent⟩
    intro empty
    rw [empty] at held
    cases held

theorem entry_group_sent_iff (field : Field) (group : field.isGroup = true) :
    (field.entry states values).isSome = true ↔
      (StateMap.stateAt states field.path).visible = true ∧
        ((∃ child ∈ field.children, child.isHeading = false ∧ (child.entry states values).isSome = true) ∨
          (StateMap.stateAt states field.path).requiredNow = true) := by
  rw [← assemble_nonempty_iff, entry_group states values field group]
  split
  · rename_i sent
    simp [sent]
  · rename_i unsent
    simp [unsent]

end ConditionalForm
