import ConditionalForm.Proofs.LookUps
import ConditionalForm.Proofs.PayloadEntries
import Mathlib.Data.List.Find

set_option autoImplicit false

namespace ConditionalForm

structure NestedField where
  outer : Field
  inner : Field

def NestedField.key (nested : NestedField) : String := nested.outer.name ++ "." ++ nested.inner.name

namespace Field

def starts (field : Field) : Bool :=
  (!field.allowed.isEmpty && field.markers.requiredWhen.isNone) || field.requirement.isAlwaysRequired

def startsItself (field : Field) : Bool := !field.isHeading && !field.isGroup && field.starts

def startsBelow (field : Field) : Bool :=
  !field.isHeading && field.isGroup && (field.starts || field.children.any starts)

def startingFields (field : Field) : List NestedField :=
  if field.startsBelow then (field.children.filter fun child => !child.isHeading).map (⟨field, ·⟩) else []

end Field

structure PlainlyNamed (fields : List Field) : Prop where
  dotless : ∀ field ∈ fields, field.isHeading = false → '.' ∉ field.name.toList
  oneShape : ∀ field ∈ fields, ∀ other ∈ fields, field.isHeading = false → other.isHeading = false →
    field.name = other.name → field.isGroup = other.isGroup

section Start

variable (field : Field)

theorem is_seeded_starts : Field.isSeeded = Field.starts := rfl

theorem seeded_start (seeded : field.starts = true) : field.startValue.isSome = true := by
  rw [Field.startValue, Attributes.naturalValue, Option.isSome_or, Option.isSome_or, Bool.or_eq_true,
    Bool.or_eq_true]
  rcases Bool.or_eq_true_iff.mp seeded with selector | required
  · right
    left
    have choices : field.allowed ≠ [] := by simpa using (Bool.and_eq_true_iff.mp selector).1
    exact List.isSome_head?.mpr choices
  · right
    right
    rw [required]
    split
    · rfl
    · split <;> rfl

theorem starts_itself_iff : field.startsItself = true ↔
    field.isHeading = false ∧ field.isGroup = false ∧ field.starts = true := by
  simp [Field.startsItself, and_assoc]

theorem starts_below_iff : field.startsBelow = true ↔ field.isHeading = false ∧ field.isGroup = true ∧
    (field.starts = true ∨ ∃ child ∈ field.children, child.starts = true) := by
  simp [Field.startsBelow, and_assoc]

theorem mem_starting_fields (nested : NestedField) : nested ∈ field.startingFields ↔
    nested.outer = field ∧ field.startsBelow = true ∧ nested.inner ∈ field.children ∧
      nested.inner.isHeading = false := by
  obtain ⟨outer, inner⟩ := nested
  rw [Field.startingFields]
  split
  · rename_i starts
    simp only [starts, List.mem_map, List.mem_filter, NestedField.mk.injEq, Bool.not_eq_true', true_and]
    constructor
    · rintro ⟨child, member, rfl, rfl⟩
      exact ⟨rfl, member⟩
    · rintro ⟨rfl, member⟩
      exact ⟨inner, member, rfl, rfl⟩
  · rename_i idle
    simp [idle]

theorem seeds_split : field.seeds =
    (if field.startsItself then (field.startValue.map (field.name, ·)).toList else []) ++
      field.startingFields.filterMap fun nested => nested.inner.startValue.map (nested.key, ·) := by
  cases heading : field.isHeading with
  | true => simp [Field.seeds, Field.startsItself, Field.startingFields, Field.startsBelow, heading]
  | false =>
      cases group : field.isGroup with
      | false =>
          have none : field.startingFields = [] := by simp [Field.startingFields, Field.startsBelow, group]
          rw [none, List.filterMap_nil, List.append_nil, Field.seeds, Field.startsItself, heading, group]
          rfl
      | true =>
          cases starts : field.starts || field.children.any Field.starts with
          | false =>
              simp [Field.seeds, Field.childSeeds, Field.startsItself, Field.startingFields, Field.startsBelow,
                is_seeded_starts, heading, group, starts]
          | true =>
              simp only [Field.seeds, Field.childSeeds, Field.startsItself, Field.startingFields, Field.startsBelow,
                is_seeded_starts, heading, group, starts, Bool.not_false, Bool.not_true, Bool.and_false,
                Bool.and_true, Bool.false_and, Bool.false_eq_true, if_true, if_false, List.nil_append,
                List.filterMap_map]
              rfl

end Start

section Keys

theorem find_made {α : Type} (items : List α) (name : α → String) (value : α → Option Json) (key : String) :
    Members.find? key (items.filterMap fun item => (value item).map (name item, ·)) =
      (items.find? fun item => (value item).isSome && name item == key).bind value := by
  induction items with
  | nil => rfl
  | cons item items ih =>
      cases made : value item with
      | none => simp [made, ih]
      | some start =>
          by_cases same : name item = key
          · simp [made, same, Members.find?]
          · simp [made, same, Ne.symm same, Members.find?, ih]

theorem find_flat_same {α : Type} (items : List α) (first second : α → Members) (key : String)
    (same : ∀ item ∈ items, Members.find? key (first item) = Members.find? key (second item)) :
    Members.find? key (items.flatMap first) = Members.find? key (items.flatMap second) := by
  induction items with
  | nil => rfl
  | cons item items ih =>
      obtain ⟨own, rest⟩ := List.forall_mem_cons.mp same
      rw [List.flatMap_cons, List.flatMap_cons, Members.find_append, Members.find_append, own, ih rest]

theorem find_nested_start (nested : List NestedField) (key : String) :
    Members.find? key (nested.filterMap fun field => field.inner.startValue.map (field.key, ·)) =
      (nested.find? fun field => field.inner.startValue.isSome && field.key == key).bind fun field =>
        field.inner.startValue :=
  find_made nested NestedField.key (fun field => field.inner.startValue) key

theorem find_own_seed (field : Field) (key : String) (apart : ∀ nested ∈ field.startingFields, nested.key ≠ key) :
    Members.find? key field.seeds =
      if field.startsItself && field.name == key then field.startValue else none := by
  have below : (field.startingFields.find? fun nested =>
      nested.inner.startValue.isSome && nested.key == key) = none := by
    refine List.find?_eq_none.mpr fun nested member held => apart nested member ?_
    exact beq_iff_eq.mp (Bool.and_eq_true_iff.mp held).2
  rw [seeds_split, Members.find_append, find_nested_start, below, Option.bind_none, Option.or_none]
  cases field.startsItself with
  | false => rfl
  | true =>
      cases start : field.startValue with
      | none => simp [Members.find?]
      | some value =>
          by_cases same : field.name = key
          · simp [same, Members.find?]
          · simp [same, Ne.symm same, Members.find?]

theorem nested_key_dotted (nested : NestedField) (key : String) (whole : '.' ∉ key.toList) : nested.key ≠ key := by
  rintro rfl
  exact whole (by simp [NestedField.key])

theorem find_whole_key (fields : List Field) (key : String) (whole : '.' ∉ key.toList) :
    Members.find? key (fields.flatMap Field.seeds) =
      (fields.find? fun field => field.startsItself && field.name == key).bind Field.startValue := by
  induction fields with
  | nil => rfl
  | cons field fields ih =>
      rw [List.flatMap_cons, Members.find_append, ih,
        find_own_seed field key fun nested _ => nested_key_dotted nested key whole]
      cases starts : field.startsItself && field.name == key with
      | false => simp [starts]
      | true =>
          have seeded := ((starts_itself_iff field).mp (Bool.and_eq_true_iff.mp starts).1).2.2
          obtain ⟨value, start⟩ := Option.isSome_iff_exists.mp (seeded_start field seeded)
          simp [starts, start]

variable (fields : List Field) (named : PlainlyNamed fields)

include named

theorem find_dotted_key (outer inner : String) (whole : '.' ∉ outer.toList) :
    Members.find? (outer ++ "." ++ inner) (fields.flatMap Field.seeds) =
      ((fields.flatMap Field.startingFields).find? fun nested => nested.inner.startValue.isSome &&
        (nested.outer.name == outer && nested.inner.name == inner)).bind fun nested => nested.inner.startValue := by
  have below (field : Field) (member : field ∈ fields) : Members.find? (outer ++ "." ++ inner) field.seeds =
      Members.find? (outer ++ "." ++ inner) (field.startingFields.filterMap fun nested =>
        nested.inner.startValue.map (nested.key, ·)) := by
    rw [seeds_split, Members.find_append]
    cases starts : field.startsItself with
    | false => rfl
    | true =>
        have plain := named.dotless field member ((starts_itself_iff field).mp starts).1
        have different : outer ++ "." ++ inner ≠ field.name := by
          intro same
          exact plain (by simp [← same])
        cases field.startValue <;> simp [Members.find?, different]
  have split (nested : NestedField) (member : nested ∈ fields.flatMap Field.startingFields) :
      (nested.key == outer ++ "." ++ inner) = (nested.outer.name == outer && nested.inner.name == inner) := by
    obtain ⟨field, inFields, inNested⟩ := List.mem_flatMap.mp member
    obtain ⟨rfl, starts, _⟩ := (mem_starting_fields field nested).mp inNested
    have plain := named.dotless nested.outer inFields ((starts_below_iff nested.outer).mp starts).1
    rw [Bool.eq_iff_iff, Bool.and_eq_true, beq_iff_eq, beq_iff_eq, beq_iff_eq]
    constructor
    · exact Snapshot.dotted_injective _ _ _ _ plain whole
    · rintro ⟨rfl, rfl⟩
      rfl
  rw [find_flat_same fields _ _ _ below, ← List.filterMap_flatMap, find_nested_start]
  congr 1
  refine List.find?_congr fun nested member => ?_
  rw [split nested member]

end Keys

section Entering

def Field.enter (values : Snapshot) (field : Field) : Snapshot :=
  if Members.contains field.name values then values else field.seeds.foldl Members.addNew values

theorem initial_values_entered (fields : List Field) : initialValues fields = fields.foldl Field.enter [] := by
  rfl

variable (fields : List Field)

theorem add_new_distinct (values : Members) (member : String × Json) (distinct : values.keys.Nodup) :
    (values.addNew member).keys.Nodup := by
  rw [Members.addNew]
  split
  · exact distinct
  · rename_i absent
    rw [Members.contains_iff] at absent
    rw [Members.keys, List.map_append, List.map_singleton]
    exact List.nodup_append.mpr ⟨distinct, by simp, fun key held other single same =>
      absent (List.mem_singleton.mp single ▸ same ▸ held)⟩

theorem initial_keys_distinct : (initialValues fields).keys.Nodup := by
  rw [initial_values_entered]
  refine List.foldlRecOn fields Field.enter (motive := fun values => (Members.keys values).Nodup) List.nodup_nil
    fun values distinct field _ => ?_
  rw [Field.enter]
  split
  · exact distinct
  · exact List.foldlRecOn field.seeds Members.addNew (motive := fun values => (Members.keys values).Nodup) distinct
      fun added held member _ => add_new_distinct added member held

def GroupsFree (values : Snapshot) : Prop :=
  ∀ group ∈ fields, group.isHeading = false → group.isGroup = true → Members.find? group.name values = none

theorem find_enter (values : Snapshot) (free : GroupsFree fields values) (field : Field) (member : field ∈ fields)
    (key : String) : Members.find? key (field.enter values) =
      (Members.find? key values).or (Members.find? key field.seeds) := by
  rw [Field.enter]
  split
  · rename_i held
    obtain ⟨value, found⟩ := Option.isSome_iff_exists.mp held
    by_cases same : key = field.name
    · rw [same, found, Option.some_or]
    · have apart : ∀ nested ∈ field.startingFields, nested.key ≠ key := by
        intro nested inNested
        have group := (starts_below_iff field).mp ((mem_starting_fields field nested).mp inNested).2.1
        have absent := free field member group.1 group.2.1
        rw [found] at absent
        cases absent
      rw [find_own_seed field key apart, if_neg (by simp [Ne.symm same]), Option.or_none]
  · exact Members.find_add_all key values field.seeds

variable (named : PlainlyNamed fields)

include named

theorem group_name_unseeded (group field : Field) (inGroups : group ∈ fields) (member : field ∈ fields)
    (data : group.isHeading = false) (outer : group.isGroup = true) :
    Members.find? group.name field.seeds = none := by
  have whole := named.dotless group inGroups data
  rw [find_own_seed field group.name fun nested _ => nested_key_dotted nested _ whole, ite_eq_right_iff,
    Bool.and_eq_true, beq_iff_eq, starts_itself_iff]
  rintro ⟨⟨fieldData, leaf, _⟩, same⟩
  have shape := named.oneShape field member group inGroups fieldData data same
  rw [leaf, outer] at shape
  cases shape

theorem find_entered (values : Snapshot) (free : GroupsFree fields values) (later : List Field)
    (within : ∀ field ∈ later, field ∈ fields) (key : String) :
    Members.find? key (later.foldl Field.enter values) =
      (Members.find? key values).or (Members.find? key (later.flatMap Field.seeds)) := by
  induction later generalizing values with
  | nil => simp [Members.find?]
  | cons field later ih =>
      obtain ⟨member, rest⟩ := List.forall_mem_cons.mp within
      have next : GroupsFree fields (field.enter values) := by
        intro group inFields data outer
        rw [find_enter fields values free field member, free group inFields data outer, Option.none_or]
        exact group_name_unseeded fields named group field inFields member data outer
      rw [List.foldl_cons, ih _ next rest, find_enter fields values free field member, List.flatMap_cons,
        Members.find_append, Option.or_assoc]

theorem find_initial (key : String) :
    Members.find? key (initialValues fields) = Members.find? key (fields.flatMap Field.seeds) := by
  rw [initial_values_entered, find_entered fields named [] (fun _ _ _ _ => rfl) fields fun _ => id]
  rfl

end Entering

structure StartsExactly (fields : List Field) (values : Snapshot) : Prop where
  distinct : values.keys.Nodup
  whole : ∀ key, '.' ∉ key.toList →
    (key ∈ values.keys ↔ ∃ field ∈ fields, field.startsItself = true ∧ field.name = key)
  wholeValue : ∀ key, '.' ∉ key.toList → Members.find? key values =
    (fields.find? fun field => field.startsItself && field.name == key).bind Field.startValue
  dotted : ∀ outer inner, '.' ∉ outer.toList → (outer ++ "." ++ inner ∈ values.keys ↔
    ∃ group ∈ fields, group.startsBelow = true ∧ group.name = outer ∧
      ∃ child ∈ group.children, child.isHeading = false ∧ child.name = inner ∧ child.startValue.isSome = true)
  dottedValue : ∀ outer inner, '.' ∉ outer.toList → Members.find? (outer ++ "." ++ inner) values =
    ((fields.flatMap Field.startingFields).find? fun nested => nested.inner.startValue.isSome &&
      (nested.outer.name == outer && nested.inner.name == inner)).bind fun nested => nested.inner.startValue
  only : ∀ key ∈ values.keys, (∃ field ∈ fields, field.startsItself = true ∧ field.name = key) ∨
    ∃ nested ∈ fields.flatMap Field.startingFields, nested.inner.startValue.isSome = true ∧ nested.key = key
  topFilled : ∀ field ∈ fields, field.startsItself = true →
    field.startValue.isSome = true ∧ field.name ∈ values.keys
  belowFilled : ∀ nested ∈ fields.flatMap Field.startingFields, nested.inner.starts = true →
    nested.inner.startValue.isSome = true ∧ nested.key ∈ values.keys

theorem key_held_iff (values : Members) (key : String) :
    key ∈ values.keys ↔ (Members.find? key values).isSome = true := by
  rw [← Members.contains_iff, Members.contains]

theorem mem_starting (fields : List Field) (nested : NestedField) : nested ∈ fields.flatMap Field.startingFields ↔
    nested.outer ∈ fields ∧ nested.outer.startsBelow = true ∧ nested.inner ∈ nested.outer.children ∧
      nested.inner.isHeading = false := by
  simp only [List.mem_flatMap, mem_starting_fields]
  constructor
  · rintro ⟨field, member, rfl, starts⟩
    exact ⟨member, starts⟩
  · rintro ⟨member, starts⟩
    exact ⟨nested.outer, member, rfl, starts⟩

section Presence

variable (fields : List Field) (named : PlainlyNamed fields)

include named

theorem whole_key_held_iff (key : String) (whole : '.' ∉ key.toList) : key ∈ (initialValues fields).keys ↔
    ∃ field ∈ fields, field.startsItself = true ∧ field.name = key := by
  rw [key_held_iff, find_initial fields named, find_whole_key fields key whole]
  constructor
  · intro held
    obtain ⟨value, found⟩ := Option.isSome_iff_exists.mp held
    obtain ⟨field, first, _⟩ := Option.bind_eq_some_iff.mp found
    have starts := List.find?_some first
    rw [Bool.and_eq_true, beq_iff_eq] at starts
    exact ⟨field, List.mem_of_find?_eq_some first, starts⟩
  · rintro ⟨field, member, starts, rfl⟩
    have present : (fields.find? fun other => other.startsItself && other.name == field.name).isSome = true :=
      List.find?_isSome.mpr ⟨field, member, by simp [starts]⟩
    obtain ⟨first, found⟩ := Option.isSome_iff_exists.mp present
    have own := List.find?_some found
    rw [found, Option.bind_some]
    exact seeded_start first ((starts_itself_iff first).mp (Bool.and_eq_true_iff.mp own).1).2.2

theorem dotted_key_held_iff (outer inner : String) (whole : '.' ∉ outer.toList) :
    outer ++ "." ++ inner ∈ (initialValues fields).keys ↔ ∃ group ∈ fields, group.startsBelow = true ∧
      group.name = outer ∧ ∃ child ∈ group.children, child.isHeading = false ∧ child.name = inner ∧
        child.startValue.isSome = true := by
  rw [key_held_iff, find_initial fields named, find_dotted_key fields named outer inner whole]
  constructor
  · intro held
    obtain ⟨value, found⟩ := Option.isSome_iff_exists.mp held
    obtain ⟨nested, first, _⟩ := Option.bind_eq_some_iff.mp found
    obtain ⟨inFields, starts, below, data⟩ := (mem_starting fields nested).mp (List.mem_of_find?_eq_some first)
    have own := List.find?_some first
    simp only [Bool.and_eq_true, beq_iff_eq] at own
    exact ⟨nested.outer, inFields, starts, own.2.1, nested.inner, below, data, own.2.2, own.1⟩
  · rintro ⟨group, member, starts, rfl, child, below, data, rfl, start⟩
    have listed : ⟨group, child⟩ ∈ fields.flatMap Field.startingFields :=
      (mem_starting fields ⟨group, child⟩).mpr ⟨member, starts, below, data⟩
    have present : ((fields.flatMap Field.startingFields).find? fun nested => nested.inner.startValue.isSome &&
        (nested.outer.name == group.name && nested.inner.name == child.name)).isSome = true :=
      List.find?_isSome.mpr ⟨⟨group, child⟩, listed, by simp [start]⟩
    obtain ⟨first, found⟩ := Option.isSome_iff_exists.mp present
    have own := List.find?_some found
    rw [found, Option.bind_some]
    exact (Bool.and_eq_true_iff.mp own).1

theorem held_key_origin (key : String) (held : key ∈ (initialValues fields).keys) :
    (∃ field ∈ fields, field.startsItself = true ∧ field.name = key) ∨
      ∃ nested ∈ fields.flatMap Field.startingFields, nested.inner.startValue.isSome = true ∧ nested.key = key := by
  have undotted := Snapshot.first_segment_undotted key
  rcases Snapshot.first_segment_cases key with same | ⟨rest, split⟩
  · exact .inl ((whole_key_held_iff fields named key (same ▸ undotted)).mp held)
  · rw [split] at held
    obtain ⟨group, member, starts, outer, child, below, data, inner, start⟩ :=
      (dotted_key_held_iff fields named _ rest undotted).mp held
    refine .inr ⟨⟨group, child⟩, (mem_starting fields _).mpr ⟨member, starts, below, data⟩, start, ?_⟩
    rw [NestedField.key, outer, inner, ← split]

end Presence

theorem start_values_exact (fields : List Field) (named : PlainlyNamed fields) :
    StartsExactly fields (initialValues fields) := by
  have dotless (nested : NestedField) (member : nested ∈ fields.flatMap Field.startingFields) :
      '.' ∉ nested.outer.name.toList := by
    obtain ⟨inFields, starts, _⟩ := (mem_starting fields nested).mp member
    exact named.dotless nested.outer inFields ((starts_below_iff nested.outer).mp starts).1
  exact {
    distinct := initial_keys_distinct fields
    whole := whole_key_held_iff fields named
    wholeValue := fun key whole => by rw [find_initial fields named, find_whole_key fields key whole]
    dotted := dotted_key_held_iff fields named
    dottedValue := fun outer inner whole => by
      rw [find_initial fields named, find_dotted_key fields named outer inner whole]
    only := held_key_origin fields named
    topFilled := fun field member starts => by
      obtain ⟨data, _, seeded⟩ := (starts_itself_iff field).mp starts
      have whole := named.dotless field member data
      exact ⟨seeded_start field seeded, (whole_key_held_iff fields named _ whole).mpr ⟨field, member, starts, rfl⟩⟩
    belowFilled := fun nested member seeded => by
      have start := seeded_start nested.inner seeded
      obtain ⟨inFields, starts, below, data⟩ := (mem_starting fields nested).mp member
      exact ⟨start, (dotted_key_held_iff fields named _ _ (dotless nested member)).mpr
        ⟨nested.outer, inFields, starts, rfl, nested.inner, below, data, rfl, start⟩⟩ }

def gradeCopy (path : String) (markers : Markers) (grades : List String) : Field :=
  { path := path, name := "GRADE", allowed := grades.map .text, markers := markers }

def gradedFields : List Field :=
  [gradeCopy "GRADE" { Markers.empty with requiredWhen := some (.ofCondition ⟨[]⟩) } ["S235"],
    gradeCopy "branch_1.GRADE" .empty ["S355"],
    gradeCopy "branch_2.GRADE" .empty ["S460"],
    { path := "FRAME", name := "FRAME", type := .object, children :=
        [{ path := "FRAME.SPAN", name := "SPAN", type := .number, requirement := .fixed true },
          { path := "FRAME.NOTE", name := "NOTE" },
          { path := "FRAME.TAPERED", name := "TAPERED", type := .boolean }] },
    { path := "branch_1.FRAME", name := "FRAME", type := .object, requirement := .fixed true, children :=
        [{ path := "branch_1.FRAME.SPAN", name := "SPAN", defaultValue := some (.number (.whole 6)) }] }]

theorem graded_fields_start :
    let values := initialValues gradedFields
    Members.find? "GRADE" values = some (.text "S355") ∧ Members.find? "FRAME.SPAN" values = some .null ∧
      "FRAME.TAPERED" ∈ values.keys ∧ "FRAME.NOTE" ∉ values.keys := by
  intro values
  have named : PlainlyNamed gradedFields := ⟨by decide, by decide⟩
  have start := start_values_exact gradedFields named
  refine ⟨start.wholeValue "GRADE" (by decide), start.dottedValue "FRAME" "SPAN" (by decide), ?_, ?_⟩
  · exact (start.dotted "FRAME" "TAPERED" (by decide)).mpr
      ⟨gradedFields[3], List.getElem_mem _, rfl, rfl, gradedFields[3].children[2], List.getElem_mem _, rfl, rfl, rfl⟩
  · intro held
    obtain ⟨group, member, _, outer, child, below, _, inner, filled⟩ :=
      (start.dotted "FRAME" "NOTE" (by decide)).mp held
    have empty : ∀ group ∈ gradedFields, ∀ child ∈ group.children, child.name = "NOTE" →
        child.startValue.isSome = false := by decide
    rw [empty group member child below inner] at filled
    cases filled

end ConditionalForm
