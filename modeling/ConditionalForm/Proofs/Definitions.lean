import ConditionalForm.Proofs.Entries
import ConditionalForm.Proofs.Hereditary
import ConditionalForm.Proofs.ReachedFields

set_option autoImplicit false

namespace ConditionalForm.Document

inductive Defined (root : Json) : Json → Prop
  | common (declared : String × Json) (member : declared ∈ commonProperties root (Group.all root)) :
      Defined root declared.2
  | groupMember (group : Group) (name : String) (definition : Json) (applies : group ∈ Group.all root)
      (listed : name ∈ group.members)
      (found : definition? (properties root) group.properties name = some definition) : Defined root definition
  | inner (parent path : String) (definition : Json) (property : Property) (outer : Defined root definition)
      (entry : .property path property ∈ entriesOf parent definition) : Defined root property.definition

inductive ReadFrom (definition : Json) : Attributes → Prop
  | plain (level : Nat) (path : String) (property : Property) (same : property.definition = definition) :
      ReadFrom definition (attributes level path property)
  | scoped (group : Group) (path : String) (property : Property) (same : property.definition = definition) :
      ReadFrom definition (group.scope (attributes 0 path property))

section Holds

variable {holds : Json → Prop} (hereditary : SchemaHereditary holds)

include hereditary

theorem below_holds (parent separator : String) (schema : Json) (whole : holds schema) (path : String)
    (property : Property) (below : Below parent separator schema path property) : holds property.definition := by
  cases below with
  | own declared required member => exact hereditary.property schema whole declared member
  | alternative alternative declared status index path listed member placed =>
      have inside := hereditary.listed "oneOf" (by decide) schema whole alternative listed
      exact hereditary.property alternative inside declared member

theorem defined_holds (root : Json) (whole : holds root) (definition : Json) (defined : Defined root definition) :
    holds definition := by
  induction defined with
  | common declared member => exact hereditary.property root whole declared (List.mem_filter.mp member).1
  | groupMember group name definition applies listed found =>
      obtain ⟨source, inside, _, own⟩ := group_source hereditary root whole group applies
      rw [own] at found
      exact hereditary_definition hereditary _ _ (hereditary.property root whole)
        (hereditary.property source inside) name definition found
  | inner parent path definition property outer entry ih =>
      rcases entries_of_below parent definition path property entry with below | ⟨items, found, below⟩
      · exact below_holds hereditary _ _ definition ih path property below
      · exact below_holds hereditary _ _ items (hereditary.items definition ih items found) path property below

end Holds

def Sourced (root : Json) (field : Field) : Prop :=
  ∃ definition, Defined root definition ∧ ReadFrom definition field.toAttributes

-- The induction is on the depth: a field below is built with one level less.
theorem build_sourced (root : Json) (depth level : Nat) (path : String) (property : Property)
    (defined : Defined root property.definition) :
    ∀ field ∈ Field.walkAll (build depth level path property).children, field.isHeading = false → Sourced root field := by
  induction depth generalizing level path property with
  | zero => exact nofun
  | succ depth ih =>
      intro field walked data
      obtain ⟨child, inChildren, source⟩ := (Field.mem_walk_all_iff _ _).mp walked
      obtain ⟨entry, inEntries, rfl⟩ := List.mem_map.mp inChildren
      cases entry with
      | heading path label optionIndex =>
          rcases source with rfl | deeper
          · cases data
          · cases deeper
      | property inner below =>
          have inside := Defined.inner path inner property.definition below defined inEntries
          rcases source with rfl | deeper
          · refine ⟨below.definition, inside, ?_⟩
            rw [build_attributes]
            exact .plain (level + 1) inner below rfl
          · exact ih _ inner below inside field deeper data

theorem form_sourced (options : Options) (document : Json) (field : Field)
    (member : field ∈ (Form.ofDocument options document).allFields) (data : field.isHeading = false) :
    Sourced (unwrap document).schema field := by
  rw [Form.allFields, form_fields] at member
  obtain ⟨top, inFields, source⟩ := (Field.mem_walk_all_iff _ _).mp member
  rcases top_field_cases options _ top inFields with common | ⟨part, emitted, rfl | inPart⟩
  · obtain ⟨declared, inCommon, rfl⟩ := List.mem_map.mp common
    have defined := Defined.common declared inCommon
    rcases source with rfl | deeper
    · refine ⟨declared.2, defined, ?_⟩
      rw [build_attributes]
      exact .plain 0 _ _ rfl
    · exact build_sourced _ _ _ _ _ defined field deeper data
  · rcases source with rfl | deeper
    · rw [heading_no_data] at data
      cases data
    · cases deeper
  · obtain ⟨applies, anatomy⟩ := section_members _ _ _ _ _ part emitted
    obtain ⟨path, name, definition, listed, found, rfl⟩ := anatomy top inPart
    have defined := Defined.groupMember part.group name definition applies listed found
    rcases source with rfl | deeper
    · refine ⟨definition, defined, ?_⟩
      rw [member_attributes]
      exact .scoped part.group path _ rfl
    · exact build_sourced _ _ _ _ _ defined field deeper data

end ConditionalForm.Document
