import ConditionalForm.Proofs.ClaimedPaths
import ConditionalForm.Proofs.DeclaredNames
import ConditionalForm.Proofs.Sections

set_option autoImplicit false

namespace ConditionalForm.Document

theorem number_digits (number : Nat) : ∀ c ∈ (toString number).toList, c.isDigit = true := by
  intro c member
  rw [Nat.toString_eq_repr, Nat.toList_repr] at member
  exact Nat.isDigit_of_mem_toDigits (by decide) (by decide) member

theorem number_unbroken (number : Nat) : Unbroken (toString number).toList := by
  intro c member joint
  rcases joint with rfl | rfl
  · exact absurd (number_digits number _ member) (by decide)
  · exact absurd (number_digits number _ member) (by decide)

-- What follows a number in a text begins with no digit, so the number can be read off the text.
theorem number_unique (a b : Nat) (u v : List Char) (endsA : ∀ c ∈ u.head?, ¬ c.isDigit = true)
    (endsB : ∀ c ∈ v.head?, ¬ c.isDigit = true)
    (same : (toString a).toList ++ u = (toString b).toList ++ v) : a = b := by
  have digits := (run_unique (fun c => c.isDigit = true) _ _ u v (number_digits a) (number_digits b)
    endsA endsB same).1
  rw [Nat.toString_eq_repr, Nat.toString_eq_repr, Nat.toList_repr, Nat.toList_repr] at digits
  rw [← Nat.ofDigitChars_ten_toDigits (n := a), digits, Nat.ofDigitChars_ten_toDigits]

theorem number_injective (a b : Nat) (same : toString a = toString b) : a = b :=
  number_unique a b [] [] nofun nofun (by rw [same])

def Numbered (mark : String) (number : Nat) (tag : String) : Prop :=
  ∃ rest, tag.toList = mark.toList ++ ((toString number).toList ++ rest) ∧ Unbroken rest ∧
    ∀ c ∈ rest.head?, ¬ c.isDigit = true

theorem numbered_tag (mark : String) (number : Nat) : Numbered mark number (mark ++ toString number) :=
  ⟨[], by simp, nofun, nofun⟩

theorem numbered_unique (mark : String) (a b : Nat) (tag : String) (tagA : Numbered mark a tag)
    (tagB : Numbered mark b tag) : a = b := by
  obtain ⟨u, splitA, _, endsA⟩ := tagA
  obtain ⟨v, splitB, _, endsB⟩ := tagB
  exact number_unique a b u v endsA endsB (List.append_cancel_left (splitA.symm.trans splitB))

theorem numbered_plain (mark : String) (number : Nat) (tag : String) (numbered : Numbered mark number tag)
    (known : mark = "branch_" ∨ mark = "option_") : PlainTag tag := by
  obtain ⟨rest, split, whole, _⟩ := numbered
  have unbrokenMark : Unbroken mark.toList := by
    rcases known with rfl | rfl
    · decide
    · decide
  constructor
  · intro c member
    rw [split] at member
    rcases List.mem_append.mp member with inMark | member
    · exact unbrokenMark c inMark
    · rcases List.mem_append.mp member with inNumber | inRest
      · exact number_unbroken number c inNumber
      · exact whole c inRest
  · rcases known with rfl | rfl
    · exact .inl ⟨_, split.symm⟩
    · exact .inr ⟨_, split.symm⟩

theorem positions_differ {α : Type} (items : List α) :
    items.zipIdx.Pairwise fun a b => a.2 ≠ b.2 := by
  have numbers : (items.zipIdx.map Prod.snd).Nodup := by
    rw [List.zipIdx_map_snd]
    exact List.nodup_range'
  exact List.pairwise_map.mp numbers

theorem member_names_plain (source : Json) (regular : Regular source) :
    ∀ name ∈ memberNames (requiredNames source) (properties source), PlainName name := by
  intro name member
  rcases List.mem_append.mp member with required | declared
  · exact regular_required source regular name required
  · exact (regular_properties source regular).2 name (List.mem_filter.mp declared).1

theorem member_names_distinct (required : List String) (own : Members) (unrepeated : required.Nodup)
    (distinct : (Members.keys own).Nodup) : (memberNames required own).Nodup := by
  refine List.nodup_append.mpr ⟨unrepeated, distinct.filter _, ?_⟩
  intro name inRequired other inRest same
  subst same
  have absent := (List.mem_filter.mp inRest).2
  rw [List.contains_iff_mem.mpr inRequired] at absent
  cases absent

def Group.batch (root : Members) (group : Group) : Batch :=
  ⟨group.tag, group.tag, (group.definitions root).map Prod.fst⟩

theorem batch_names (root : Members) (group : Group) :
    (group.batch root).names.Sublist group.members := by
  unfold Group.batch Group.definitions
  induction group.members with
  | nil => exact List.Sublist.slnil
  | cons name names ih =>
      cases found : definition? root group.properties name with
      | none =>
          rw [List.filterMap_cons_none (by rw [found]; rfl)]
          exact ih.cons name
      | some definition =>
          rw [List.filterMap_cons_some (by rw [found]; rfl)]
          exact ih.cons_cons name

theorem alternative_tag (root : Json) (index : Nat) (alternative : Json) (regular : Regular alternative) :
    Numbered "option_" index (Group.ofAlternative (properties root) index alternative).tag := by
  have plain := member_names_plain alternative regular
  simp only [Group.ofAlternative]
  cases names : memberNames (requiredNames alternative) (properties alternative) with
  | nil => exact numbered_tag "option_" index
  | cons first others =>
      rw [names] at plain
      refine ⟨'_' :: first.toList, by simp, fun c member => ?_, fun c head => ?_⟩
      · rcases List.mem_cons.mp member with rfl | inFirst
        · decide
        · exact plain_name_unbroken first (plain first List.mem_cons_self) c inFirst
      · cases head
        decide

theorem branch_tag (root : Json) (group : Group) (member : group ∈ Group.branches root) :
    ∃ number, Numbered "branch_" number group.tag := by
  obtain ⟨number, _, _, _, rfl⟩ := mem_branches root group member
  exact ⟨number, numbered_tag "branch_" number⟩

theorem option_tag (root : Json) (regular : Regular root) (group : Group)
    (member : group ∈ Group.options root) : ∃ number, Numbered "option_" number group.tag := by
  obtain ⟨number, alternative, inAlternatives, rfl⟩ := mem_options root group member
  have whole := hereditary_alternative regular_hereditary.in_schemas root regular alternative inAlternatives
  exact ⟨number, alternative_tag root number alternative whole⟩

theorem group_tag (root : Json) (regular : Regular root) (group : Group) (member : group ∈ Group.all root) :
    PlainTag group.tag := by
  rcases List.mem_append.mp member with branch | option
  · obtain ⟨number, numbered⟩ := branch_tag root group branch
    exact numbered_plain "branch_" number _ numbered (.inl rfl)
  · obtain ⟨number, numbered⟩ := option_tag root regular group option
    exact numbered_plain "option_" number _ numbered (.inr rfl)

theorem group_batch_sound (root : Json) (regular : Regular root) (group : Group)
    (member : group ∈ Group.all root) (unrepeated : group.required.Nodup) :
    (group.batch (properties root)).Sound := by
  have tag := group_tag root regular group member
  obtain ⟨source, whole, required, own⟩ := group_source regular_hereditary.in_schemas root regular group member
  have members : group.members = memberNames (requiredNames source) (properties source) := by
    rw [Group.members, required, own]
  have names := batch_names (properties root) group
  rw [members] at names
  refine ⟨tag.whole, tag, fun name inNames => ?_, List.Nodup.sublist names ?_⟩
  · exact member_names_plain source whole name (names.subset inNames)
  · exact member_names_distinct _ _ (required ▸ unrepeated)
      ((regular_object_iff _).mp (regular_properties source whole).1).1

theorem group_tags_differ (root : Json) (regular : Regular root) :
    (Group.all root).Pairwise fun a b => a.tag ≠ b.tag := by
  refine List.pairwise_append.mpr ⟨?_, ?_, ?_⟩
  · refine List.pairwise_map.mpr ((positions_differ _).imp fun {a b} different same => different ?_)
    exact number_injective a.2 b.2 ((String.append_right_inj _).mp same)
  · refine List.Pairwise.filterMap _ ?_ (List.Pairwise.and_mem.mp (positions_differ _))
    intro entryA entryB positions groupA madeA groupB madeB same
    obtain ⟨a, i⟩ := entryA
    obtain ⟨b, j⟩ := entryB
    obtain ⟨inAll, also, different⟩ := positions
    obtain ⟨_, _, rfl⟩ := Option.map_eq_some_iff.mp madeA
    obtain ⟨_, _, rfl⟩ := Option.map_eq_some_iff.mp madeB
    have tagA := alternative_tag root i a
      (hereditary_alternative regular_hereditary.in_schemas root regular a (List.fst_mem_of_mem_zipIdx inAll))
    have tagB := alternative_tag root j b
      (hereditary_alternative regular_hereditary.in_schemas root regular b (List.fst_mem_of_mem_zipIdx also))
    exact different (numbered_unique "option_" i j _ tagA (same ▸ tagB))
  · intro branch inBranches option inOptions same
    obtain ⟨_, _, branchTag, _⟩ := branch_tag root branch inBranches
    obtain ⟨_, _, optionTag, _⟩ := option_tag root regular option inOptions
    rw [same, optionTag] at branchTag
    simp at branchTag

theorem group_batches_separate (root : Json) (regular : Regular root) :
    ((Group.all root).map (Group.batch (properties root))).Pairwise Batch.Separate :=
  List.pairwise_map.mpr ((group_tags_differ root regular).imp fun differ => ⟨differ, differ⟩)

def alternativeBatches : Nat → List Json → List Batch
  | _, [] => []
  | index, alternative :: others =>
      match (alternative.get? "properties").bind Json.members? with
      | none => alternativeBatches (index + 1) others
      | some own =>
          ⟨toString index, "option_" ++ toString index, own.keys⟩
            :: alternativeBatches (index + 1) others

theorem alternative_batch_origin (index : Nat) (alternatives : List Json) :
    ∀ batch ∈ alternativeBatches index alternatives, ∃ number ≥ index, ∃ alternative ∈ alternatives,
      batch = ⟨toString number, "option_" ++ toString number, (properties alternative).keys⟩ := by
  induction alternatives generalizing index with
  | nil => exact nofun
  | cons alternative others ih =>
      have later : ∀ batch ∈ alternativeBatches (index + 1) others, ∃ number ≥ index,
          ∃ other ∈ alternative :: others,
            batch = ⟨toString number, "option_" ++ toString number, (properties other).keys⟩ := by
        intro batch member
        obtain ⟨number, after, other, inOthers, made⟩ := ih (index + 1) batch member
        exact ⟨number, by omega, other, List.mem_cons_of_mem _ inOthers, made⟩
      rw [alternativeBatches]
      split
      · exact later
      · rename_i own found
        intro batch member
        rcases List.mem_cons.mp member with rfl | member
        · exact ⟨index, Nat.le_refl index, alternative, List.mem_cons_self, by rw [properties, found]; rfl⟩
        · exact later batch member

theorem alternative_batches_separate (index : Nat) (alternatives : List Json) :
    (alternativeBatches index alternatives).Pairwise Batch.Separate := by
  induction alternatives generalizing index with
  | nil => exact List.Pairwise.nil
  | cons alternative others ih =>
      rw [alternativeBatches]
      split
      · exact ih (index + 1)
      · refine List.pairwise_cons.mpr ⟨fun batch member => ?_, ih (index + 1)⟩
        obtain ⟨number, after, _, _, rfl⟩ := alternative_batch_origin (index + 1) others batch member
        have differ : index ≠ number := by omega
        exact ⟨fun same => differ (number_injective index number same),
          fun same => differ (number_injective index number ((String.append_right_inj _).mp same))⟩

theorem alternative_batch_sound (index : Nat) (alternatives : List Json)
    (regular : ∀ alternative ∈ alternatives, Regular alternative) :
    ∀ batch ∈ alternativeBatches index alternatives, batch.Sound := by
  intro batch member
  obtain ⟨number, _, alternative, inAll, rfl⟩ := alternative_batch_origin index alternatives batch member
  obtain ⟨whole, plain⟩ := regular_properties alternative (regular alternative inAll)
  exact ⟨number_unbroken number, numbered_plain "option_" number _ (numbered_tag "option_" number) (.inr rfl),
    plain, ((regular_object_iff _).mp whole).1⟩

end ConditionalForm.Document
