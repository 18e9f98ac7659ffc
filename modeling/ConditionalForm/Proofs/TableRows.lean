import ConditionalForm.Encoding.View
import ConditionalForm.Proofs.ItemMembers
import Mathlib.Data.List.Basic
import Mathlib.Data.List.Forall2

set_option autoImplicit false

namespace ConditionalForm

def dataSince (before : List Field) : Nat := (before.reverse.takeWhile fun field => !field.isHeading).length

inductive LastPart (name : String) : String → Prop
  | whole (undotted : '.' ∉ name.toList) : LastPart name name
  | after (front last : String) (split : name = front ++ "." ++ last) (undotted : '.' ∉ last.toList) :
      LastPart name last

structure Shows (numbering : Numbering) (number : Nat) (field : Attributes) (cells : RowCells) : Prop where
  numbered : cells.numbering = numbering
  number : cells.number = number
  name : match numbering with
    | .plain => cells.name = field.name
    | .inner => LastPart field.name cells.name
  description : cells.description = field.tableDescription
  typeName : cells.typeName = field.type.displayName
  defaultValue : cells.defaultValue = Row.renderDefault field.defaultValue
  required : cells.required = field.requirement.isEverRequired
  choices : cells.choices = field.allowed.map (Row.choiceLine field.markers.choiceLabels)

mutual
inductive Tabulated : Numbering → List Field → List Field → List Row → Prop
  | nil {numbering : Numbering} {before : List Field} : Tabulated numbering before [] []
  | cons {numbering : Numbering} {before fields : List Field} {field : Field} {own others : List Row}
      (first : FieldRows numbering before field own)
      (rest : Tabulated numbering (before ++ [field]) fields others) :
      Tabulated numbering before (field :: fields) (own ++ others)

inductive FieldRows : Numbering → List Field → Field → List Row → Prop
  | heading {numbering : Numbering} {before : List Field} {field : Field} {label : String}
      (group : field.heading = some label) : FieldRows numbering before field [.header label]
  | bare {numbering : Numbering} {before : List Field} {field : Field} {cells : RowCells} {inner : List Row}
      (data : field.heading = none) (unheaded : field.sectionHeader = none)
      (shown : Shows numbering (1 + dataSince before) field.toAttributes cells)
      (below : Tabulated .inner [] field.children inner) :
      FieldRows numbering before field [.data cells inner]
  | headed {numbering : Numbering} {before : List Field} {field : Field} {label : String} {cells : RowCells}
      {inner : List Row} (data : field.heading = none) (header : field.sectionHeader = some label)
      (shown : Shows numbering (1 + dataSince before) field.toAttributes cells)
      (below : Tabulated .inner [] field.children inner) :
      FieldRows numbering before field [.header label, .data cells inner]
end

theorem last_part_exists (name : String) : ∃ last, LastPart name last := by
  by_cases dotted : '.' ∈ name.toList
  · obtain ⟨back, front, split, undotted⟩ := List.eq_append_cons_of_mem (List.mem_reverse.mpr dotted)
    have turned : name.toList = front.reverse ++ '.' :: back.reverse := by
      rw [← List.reverse_reverse name.toList, split]
      simp
    refine ⟨String.ofList back.reverse, .after (String.ofList front.reverse) _ ?_ (by simpa using undotted)⟩
    rw [String.ext_iff, turned]
    simp
  · exact ⟨name, .whole dotted⟩

theorem last_part_iff (name last : String) : LastPart name last ↔ last = Text.afterLast '.' name := by
  have only (other : String) (part : LastPart name other) : other = Text.afterLast '.' name := by
    cases part with
    | whole undotted => exact (Text.after_last_whole '.' name undotted).symm
    | after front _ split undotted =>
        have dotted : name.toList = front.toList ++ '.' :: other.toList := by simp [split]
        rw [Text.after_last_append '.' name _ _ dotted undotted, String.ofList_toList]
  refine ⟨only last, ?_⟩
  rintro rfl
  obtain ⟨other, part⟩ := last_part_exists name
  exact only other part ▸ part

theorem shows_iff (numbering : Numbering) (number : Nat) (field : Attributes) (cells : RowCells) :
    Shows numbering number field cells ↔ cells = field.cells numbering number := by
  constructor
  · rintro ⟨rfl, rfl, name, description, typeName, defaultValue, required, choices⟩
    obtain ⟨numbering, number, _, _, _, _, _, _⟩ := cells
    cases description
    cases typeName
    cases defaultValue
    cases required
    cases choices
    cases numbering with
    | plain =>
        cases name
        rfl
    | inner =>
        cases (last_part_iff _ _).mp name
        rfl
  · rintro rfl
    refine ⟨rfl, rfl, ?_, rfl, rfl, rfl, rfl, rfl⟩
    cases numbering with
    | plain => rfl
    | inner => exact (last_part_iff _ _).mpr rfl

def Field.block (numbering : Numbering) (number : Nat) (field : Field) : List Row :=
  match field.heading with
  | some label => [.header label]
  | none => (field.sectionHeader.map Row.header).toList ++ [field.row numbering number]

section Counting

variable (before : List Field) (field : Field)

theorem since_heading (heading : field.isHeading = true) : dataSince (before ++ [field]) = 0 := by
  simp [dataSince, heading]

theorem since_data (data : field.isHeading = false) : dataSince (before ++ [field]) = 1 + dataSince before := by
  simp [dataSince, data, Nat.add_comm]

theorem rows_cons (numbering : Numbering) (number : Nat) (fields : List Field) :
    rows numbering number (field :: fields) =
      field.block numbering number ++ rows numbering (if field.isHeading then 1 else number + 1) fields := by
  rw [rows, Field.block, Field.isHeading]
  cases field.heading with
  | some label => rfl
  | none => simp

theorem rows_step (numbering : Numbering) (fields : List Field) :
    rows numbering (1 + dataSince before) (field :: fields) =
      field.block numbering (1 + dataSince before) ++ rows numbering (1 + dataSince (before ++ [field])) fields := by
  rw [rows_cons]
  cases heading : field.isHeading with
  | true => rw [since_heading before field heading, if_pos rfl]
  | false => rw [since_data before field heading, if_neg Bool.false_ne_true, Nat.add_comm 1 (1 + dataSince before)]

end Counting

mutual
theorem field_rows_iff (numbering : Numbering) (before : List Field) (field : Field) (own : List Row) :
    FieldRows numbering before field own ↔ own = field.block numbering (1 + dataSince before) := by
  obtain ⟨attributes, children⟩ := field
  have below (inner : List Row) : Tabulated .inner [] children inner ↔ inner = rows .inner 1 children :=
    tabulated_iff .inner [] children inner
  cases heading : attributes.heading with
  | some label =>
      rw [Field.block, heading]
      constructor
      · rintro (⟨group⟩ | ⟨data, _, _, _⟩ | ⟨data, _, _, _⟩)
        · cases heading.symm.trans group
          rfl
        · cases heading.symm.trans data
        · cases heading.symm.trans data
      · rintro rfl
        exact .heading heading
  | none =>
      rw [Field.block, heading, Field.row]
      cases header : attributes.sectionHeader with
      | none =>
          constructor
          · rintro (⟨group⟩ | ⟨_, _, shown, inner⟩ | ⟨_, headed, _, _⟩)
            · cases heading.symm.trans group
            · rw [(shows_iff _ _ _ _).mp shown, (below _).mp inner]
              rfl
            · cases header.symm.trans headed
          · rintro rfl
            exact .bare heading header ((shows_iff _ _ _ _).mpr rfl) ((below _).mpr rfl)
      | some label =>
          constructor
          · rintro (⟨group⟩ | ⟨_, unheaded, _, _⟩ | ⟨_, headed, shown, inner⟩)
            · cases heading.symm.trans group
            · cases header.symm.trans unheaded
            · cases header.symm.trans headed
              rw [(shows_iff _ _ _ _).mp shown, (below _).mp inner]
              rfl
          · rintro rfl
            exact .headed heading header ((shows_iff _ _ _ _).mpr rfl) ((below _).mpr rfl)

theorem tabulated_iff (numbering : Numbering) (before fields : List Field) (table : List Row) :
    Tabulated numbering before fields table ↔ table = rows numbering (1 + dataSince before) fields := by
  cases fields with
  | nil =>
      rw [rows]
      constructor
      · rintro ⟨⟩
        rfl
      · rintro rfl
        exact .nil
  | cons field fields =>
      rw [rows_step]
      constructor
      · rintro (_ | ⟨first, rest⟩)
        rw [(field_rows_iff numbering before field _).mp first, (tabulated_iff numbering _ fields _).mp rest]
      · rintro rfl
        exact .cons ((field_rows_iff numbering before field _).mpr rfl)
          ((tabulated_iff numbering _ fields _).mpr rfl)
end

section Listing

mutual
def Row.walk : Row → List Row
  | .header label => [.header label]
  | .data cells children => .data cells children :: walkRows children

def walkRows : List Row → List Row
  | [] => []
  | row :: others => row.walk ++ walkRows others
end

inductive Item where
  | label (text : String)
  | field (numbering : Numbering) (attributes : Attributes)

inductive Item.In : Item → Row → Prop
  | label (text : String) : Item.In (.label text) (.header text)
  | field {numbering : Numbering} {number : Nat} {attributes : Attributes} {cells : RowCells} (children : List Row)
      (shown : Shows numbering number attributes cells) : Item.In (.field numbering attributes) (.data cells children)

mutual
-- The fields below a field in walking order. A heading stands for a group, and nothing is listed below it.
def Field.listedBelow : Field → List Field
  | ⟨attributes, children⟩ => if attributes.heading.isSome then [] else listedAll children

def Field.listedAll : List Field → List Field
  | [] => []
  | field :: fields => field :: (field.listedBelow ++ listedAll fields)
end

def Field.items (numbering : Numbering) (field : Field) : List Item :=
  match field.heading with
  | some label => [.label label]
  | none => (field.sectionHeader.map Item.label).toList ++ [.field numbering field.toAttributes]

theorem walk_append (front back : List Row) : walkRows (front ++ back) = walkRows front ++ walkRows back := by
  induction front with
  | nil => rfl
  | cons row front ih => rw [List.cons_append, walkRows, walkRows, ih, List.append_assoc]

theorem listed_items (fields : List Field) : (Field.listedAll fields).flatMap (Field.items .inner) =
    fields.flatMap fun field => field.items .inner ++ field.listedBelow.flatMap (Field.items .inner) := by
  induction fields with
  | nil => rfl
  | cons field fields ih =>
      rw [Field.listedAll, List.flatMap_cons, List.flatMap_append, ih, List.flatMap_cons, List.append_assoc]

mutual
theorem block_items (numbering : Numbering) (number : Nat) (field : Field) :
    List.Forall₂ Item.In (field.items numbering ++ field.listedBelow.flatMap (Field.items .inner))
      (walkRows (field.block numbering number)) := by
  obtain ⟨attributes, children⟩ := field
  have below : List.Forall₂ Item.In ((Field.listedAll children).flatMap (Field.items .inner))
      (walkRows (rows .inner 1 children)) := by
    rw [listed_items]
    exact rows_items .inner 1 children
  have shown : Shows numbering number attributes (attributes.cells numbering number) := (shows_iff _ _ _ _).mpr rfl
  have made : walkRows [Field.row numbering number ⟨attributes, children⟩] =
      .data (attributes.cells numbering number) (rows .inner 1 children) :: walkRows (rows .inner 1 children) := by
    rw [Field.row, walkRows, walkRows, Row.walk, List.append_nil]
  rw [Field.block, Field.items, Field.listedBelow]
  cases attributes.heading with
  | some label => exact .cons (.label label) .nil
  | none =>
      rw [if_neg (by simp), walk_append, made, List.append_assoc]
      cases attributes.sectionHeader with
      | none => exact .cons (.field _ shown) below
      | some header => exact .cons (.label header) (.cons (.field _ shown) below)

theorem rows_items (numbering : Numbering) (number : Nat) (fields : List Field) :
    List.Forall₂ Item.In
      (fields.flatMap fun field => field.items numbering ++ field.listedBelow.flatMap (Field.items .inner))
      (walkRows (rows numbering number fields)) := by
  cases fields with
  | nil => exact .nil
  | cons field fields =>
      rw [rows_cons, walk_append, List.flatMap_cons]
      exact List.rel_append (block_items numbering number field) (rows_items numbering _ fields)
end

mutual
theorem listed_below_walk (field : Field) (own : field.isHeading = true → field.children = [])
    (below : ∀ inner ∈ Field.walkAll field.children, inner.isHeading = true → inner.children = []) :
    field.listedBelow = Field.walkAll field.children := by
  obtain ⟨attributes, children⟩ := field
  rw [Field.listedBelow]
  split
  · rename_i heading
    have none : children = [] := own heading
    rw [none]
    rfl
  · exact listed_all_walk children below

theorem listed_all_walk (fields : List Field)
    (childless : ∀ field ∈ Field.walkAll fields, field.isHeading = true → field.children = []) :
    Field.listedAll fields = Field.walkAll fields := by
  cases fields with
  | nil => rfl
  | cons field fields =>
      rw [Field.walkAll, Field.walk_head] at childless ⊢
      obtain ⟨first, others⟩ := List.forall_mem_append.mp childless
      obtain ⟨own, below⟩ := List.forall_mem_cons.mp first
      rw [Field.listedAll, listed_below_walk field own below, listed_all_walk fields others]
      rfl
end

end Listing

namespace Document

theorem built_heading_childless (depth level : Nat) (path : String) (property : Property) (field : Field)
    (walked : field ∈ Field.walkAll (build depth level path property).children)
    (heading : field.isHeading = true) : field.children = [] := by
  induction depth generalizing level path property with
  | zero => cases walked
  | succ depth ih =>
      obtain ⟨child, inChildren, source⟩ := (Field.mem_walk_all_iff _ _).mp walked
      obtain ⟨entry, _, rfl⟩ := List.mem_map.mp inChildren
      cases entry with
      | heading path label optionIndex =>
          rcases source with rfl | deeper
          · rfl
          · cases deeper
      | property own inner =>
          rcases source with rfl | deeper
          · rw [Field.isHeading, build_attributes] at heading
            cases heading
          · exact ih _ own inner deeper

theorem compiled_heading_childless (options : Options) (root : Json) (field : Field)
    (walked : field ∈ Field.walkAll (fields options root)) (heading : field.isHeading = true) :
    field.children = [] := by
  obtain ⟨top, member, source⟩ := (Field.mem_walk_all_iff _ _).mp walked
  rcases source with rfl | below
  · exact heading_childless options root field member heading
  · cases topHeading : top.isHeading with
    | true =>
        rw [heading_childless options root top member topHeading] at below
        cases below
    | false =>
        obtain ⟨property, _, built⟩ :=
          top_field_built anything_hereditary.in_schemas options root trivial top member topHeading
        rw [built.children] at below
        exact built_heading_childless _ _ _ property field below heading

end Document

theorem number_written (cells : RowCells) (inner : List Row) :
    (Row.data cells inner).toJson.get? "no" = some (match cells.numbering with
      | .plain => Json.ofNat cells.number
      | .inner => .text ("(" ++ toString cells.number ++ ")")) := by
  obtain ⟨numbering, number, _, _, _, _, _, _⟩ := cells
  cases numbering <;> rfl

-- The table of a list of fields is the one that follows the rules. Its rows show the items of each field once and
-- in walking order, and numbers below another row are written in parentheses.
structure TableOf (fields : List Field) (table : List Row) : Prop where
  rules : ∀ other, Tabulated .plain [] fields other ↔ other = table
  items : List.Forall₂ Item.In (fields.flatMap fun field =>
    field.items .plain ++ field.listedBelow.flatMap (Field.items .inner)) (walkRows table)
  numbers : ∀ cells inner, (Row.data cells inner).toJson.get? "no" = some (match cells.numbering with
    | .plain => Json.ofNat cells.number
    | .inner => .text ("(" ++ toString cells.number ++ ")"))

def supportsHeading : Field := { path := "__section_a", name := "__section_a", heading := some "Supports" }

def kindField : Field := { path := "KIND", name := "LOAD.KIND", sectionHeader := some "Kind" }

def numberedFields : List Field :=
  [kindField, { kindField with children := [kindField, supportsHeading, kindField] }, supportsHeading, kindField]

end ConditionalForm
