import ConditionalForm.Proofs.Entries
import ConditionalForm.Proofs.ReachedFields
import ConditionalForm.Proofs.Sections

set_option autoImplicit false

namespace ConditionalForm.Document

def Property.Settled (property : Property) : Prop :=
  (∃ required, property.requirement = .fixed required) ∨ ∃ status, property.requirement = .wildcard status

theorem property_below_settled (parent separator : String) (schema : Json) (path : String) (property : Property)
    (below : Below parent separator schema path property) : property.Settled := by
  cases below with
  | own => exact .inl ⟨_, rfl⟩
  | alternative => exact .inr ⟨_, rfl⟩

theorem entries_of_settled (parent : String) (definition : Json) (path : String) (property : Property)
    (member : .property path property ∈ entriesOf parent definition) : property.Settled := by
  rcases entries_of_below parent definition path property member with own | ⟨items, _, inItems⟩
  · exact property_below_settled _ _ _ path property own
  · exact property_below_settled _ _ _ path property inItems

inductive BelowProperty : Attributes → Prop
  | heading (level : Nat) (path label : String) (optionIndex : Nat) :
      BelowProperty (headingField level path label optionIndex).toAttributes
  | property (level : Nat) (path : String) (property : Property) (settled : property.Settled) :
      BelowProperty (attributes level path property)

theorem build_below (depth level : Nat) (path : String) (property : Property) :
    ∀ field ∈ Field.walkAll (build depth level path property).children,
      BelowProperty field.toAttributes := by
  induction depth generalizing level path property with
  | zero => exact nofun
  | succ depth ih =>
      intro field walked
      obtain ⟨child, inChildren, source⟩ := (Field.mem_walk_all_iff _ _).mp walked
      obtain ⟨entry, inEntries, rfl⟩ := List.mem_map.mp inChildren
      cases entry with
      | heading path label optionIndex =>
          rcases source with rfl | deeper
          · exact .heading (level + 1) path label optionIndex
          · cases deeper
      | property path inner =>
          rcases source with rfl | deeper
          · have settled := entries_of_settled _ _ path inner inEntries
            simpa only [build_attributes] using BelowProperty.property (level + 1) path inner settled
          · exact ih _ path inner field deeper

inductive Compiled (root : Json) : Attributes → Prop
  | common (path : String) (property : Property) (required : Bool)
      (requirement : property.requirement = .fixed required) : Compiled root (attributes 0 path property)
  | heading (group : Group) : Compiled root group.heading.toAttributes
  | groupMember (group : Group) (path name : String) (definition : Json) :
      Compiled root (group.scope (attributes 0 path
        { name := name
          definition := definition
          requirement := group.requirement (properties root) (Group.all root) name }))
  | below (field : Attributes) (inner : BelowProperty field) : Compiled root field

theorem common_compiled (root : Json) (groups : List Group) (depth : Nat) :
    ∀ field ∈ Field.walkAll (commonFields root groups depth), Compiled root field.toAttributes := by
  intro field walked
  obtain ⟨top, inFields, source⟩ := (Field.mem_walk_all_iff _ _).mp walked
  obtain ⟨declared, _, rfl⟩ := List.mem_map.mp inFields
  rcases source with rfl | deeper
  · rw [build_attributes]
    exact .common _ _ _ rfl
  · exact .below _ (build_below _ _ _ _ field deeper)

theorem section_compiled (options : Options) (root : Json) (part : Section)
    (emitted : part ∈ sections options root) :
    ∀ field ∈ Field.walkAll part.fields, Compiled root field.toAttributes := by
  intro field walked
  obtain ⟨top, inFields, source⟩ := (Field.mem_walk_all_iff _ _).mp walked
  rcases List.mem_cons.mp inFields with rfl | member
  · rcases source with rfl | deeper
    · exact .heading part.group
    · cases deeper
  · obtain ⟨path, name, definition, _, _, rfl⟩ := (section_members _ _ _ _ _ part emitted).2 top member
    rcases source with rfl | deeper
    · have made : Compiled root _ := .groupMember part.group path name definition
      rwa [← build_attributes options.maxDepth 0 path _] at made
    · exact .below _ (build_below _ _ _ _ field deeper)

theorem form_compiled (options : Options) (document : Json) :
    ∀ field ∈ (Form.ofDocument options document).allFields,
      Compiled (unwrap document).schema field.toAttributes := by
  intro field walked
  rw [Form.allFields, form_fields] at walked
  obtain ⟨top, inFields, source⟩ := (Field.mem_walk_all_iff _ _).mp walked
  rcases List.mem_append.mp inFields with common | sectioned
  · exact common_compiled _ _ _ field ((Field.mem_walk_all_iff _ _).mpr ⟨top, common, source⟩)
  · obtain ⟨part, emitted, inPart⟩ := List.mem_flatMap.mp sectioned
    exact section_compiled options _ part emitted field
      ((Field.mem_walk_all_iff _ _).mpr ⟨top, inPart, source⟩)

end ConditionalForm.Document
