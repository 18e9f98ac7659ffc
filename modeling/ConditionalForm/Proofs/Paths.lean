import ConditionalForm.Field

set_option autoImplicit false

namespace ConditionalForm.Document

def Joint (c : Char) : Prop := c = '.' ∨ c = '['

instance (c : Char) : Decidable (Joint c) := inferInstanceAs (Decidable (c = '.' ∨ c = '['))

def Unbroken (text : List Char) : Prop := ∀ c ∈ text, ¬ Joint c

instance (text : List Char) : Decidable (Unbroken text) := List.decidableBAll _ text

def Continues (rest : List Char) : Prop := ∀ c ∈ rest.head?, Joint c

def Within (path inner : String) : Prop :=
  ∃ rest, Continues rest ∧ inner.toList = path.toList ++ rest

def Apart (a b : String) : Prop := ∀ inner, Within a inner → ¬ Within b inner

theorem run_unique (ofRun : Char → Prop) (a b u v : List Char) (runA : ∀ c ∈ a, ofRun c)
    (runB : ∀ c ∈ b, ofRun c) (endsA : ∀ c ∈ u.head?, ¬ ofRun c) (endsB : ∀ c ∈ v.head?, ¬ ofRun c)
    (same : a ++ u = b ++ v) : a = b ∧ u = v := by
  induction a generalizing b with
  | nil =>
      cases b with
      | nil => exact ⟨rfl, same⟩
      | cons c b =>
          rw [List.nil_append] at same
          subst same
          exact absurd (runB c List.mem_cons_self) (endsA c rfl)
  | cons c a ih =>
      cases b with
      | nil =>
          rw [List.nil_append] at same
          subst same
          exact absurd (runA c List.mem_cons_self) (endsB c rfl)
      | cons d b =>
          obtain ⟨rfl, tails⟩ := List.cons.inj same
          obtain ⟨rfl, ends⟩ := ih b (fun x member => runA x (List.mem_cons_of_mem _ member))
            (fun x member => runB x (List.mem_cons_of_mem _ member)) tails
          exact ⟨rfl, ends⟩

theorem segment_unique (a b u v : List Char) (wholeA : Unbroken a) (wholeB : Unbroken b)
    (continuesA : Continues u) (continuesB : Continues v) (same : a ++ u = b ++ v) : a = b ∧ u = v :=
  run_unique (fun c => ¬ Joint c) a b u v wholeA wholeB
    (fun c first broken => broken (continuesA c first))
    (fun c first broken => broken (continuesB c first)) same

theorem within_self (path : String) : Within path path :=
  ⟨[], nofun, (List.append_nil _).symm⟩

theorem continues_append (rest more : List Char) (continued : Continues rest)
    (after : Continues more) : Continues (rest ++ more) := by
  cases rest with
  | nil => exact after
  | cons c rest => exact continued

theorem within_trans (path middle inner : String) (outer : Within path middle)
    (below : Within middle inner) : Within path inner := by
  obtain ⟨rest, continued, split⟩ := outer
  obtain ⟨more, after, final⟩ := below
  refine ⟨rest ++ more, continues_append rest more continued after, ?_⟩
  rw [final, split, List.append_assoc]

theorem within_antisymm (path child : String) (outer : Within path child) (back : Within child path) :
    child = path := by
  obtain ⟨rest, _, split⟩ := outer
  obtain ⟨more, _, final⟩ := back
  rw [split, List.append_assoc] at final
  have none : rest ++ more = [] := List.self_eq_append_right.mp final
  rw [(List.append_eq_nil_iff.mp none).1, List.append_nil] at split
  exact String.toList_injective split

def reservedPrefixes : List String := ["__section_", "branch_", "option_"]

def PlainName (name : String) : Prop :=
  (∀ c ∈ name.toList, c ∉ ['.', '[', ']']) ∧
    ∀ reserved ∈ reservedPrefixes, ¬ reserved.toList <+: name.toList

instance (name : String) : Decidable (PlainName name) :=
  @instDecidableAnd _ _ (List.decidableBAll _ _) inferInstance

structure PlainTag (tag : String) : Prop where
  whole : Unbroken tag.toList
  marked : "branch_".toList <+: tag.toList ∨ "option_".toList <+: tag.toList

theorem plain_name_unbroken (name : String) (plain : PlainName name) : Unbroken name.toList := by
  intro c member joint
  rcases joint with rfl | rfl
  · exact plain.1 _ member (by decide)
  · exact plain.1 _ member (by decide)

inductive Place where
  | plain (name : String)
  | heading (label : String)
  | tagged (tag name : String)

namespace Place

def Sound : Place → Prop
  | plain name => PlainName name
  | heading label => Unbroken label.toList
  | tagged tag name => PlainTag tag ∧ PlainName name

def segment : Place → String
  | plain name => name
  | heading label => "__section_" ++ label
  | tagged tag _ => tag

def rest : Place → String
  | tagged _ name => "." ++ name
  | _ => ""

theorem segment_unbroken (place : Place) (sound : place.Sound) : Unbroken place.segment.toList := by
  cases place with
  | plain name => exact plain_name_unbroken name sound
  | tagged tag name => exact sound.1.whole
  | heading label =>
      have fixed : Unbroken "__section_".toList := by decide
      intro c member
      rw [segment, String.toList_append] at member
      rcases List.mem_append.mp member with inPrefix | inLabel
      · exact fixed c inPrefix
      · exact sound c inLabel

theorem rest_continues (place : Place) (rest : List Char) (continued : Continues rest) :
    Continues (place.rest.toList ++ rest) := by
  cases place with
  | plain name => exact continued
  | heading label => exact continued
  | tagged tag name =>
      intro c first
      rw [Place.rest, String.toList_append] at first
      exact .inl (Option.some.inj first).symm

theorem plain_not_section (name label : String) (plain : PlainName name) :
    name ≠ "__section_" ++ label := by
  intro same
  subst same
  exact plain.2 "__section_" (by decide) ⟨label.toList, String.toList_append.symm⟩

theorem plain_not_tag (name tag : String) (plain : PlainName name) (tagged : PlainTag tag) :
    name ≠ tag := by
  intro same
  subst same
  rcases tagged.marked with branch | option
  · exact plain.2 "branch_" (by decide) branch
  · exact plain.2 "option_" (by decide) option

theorem section_not_tag (label tag : String) (tagged : PlainTag tag) : "__section_" ++ label ≠ tag := by
  intro same
  subst same
  rcases tagged.marked with branch | option
  · simp at branch
  · simp at option

theorem segment_and_rest_unique (a b : Place) (soundA : a.Sound) (soundB : b.Sound) (u v : List Char)
    (segments : a.segment = b.segment) (rests : a.rest.toList ++ u = b.rest.toList ++ v)
    (continuesA : Continues u) (continuesB : Continues v) : a = b := by
  cases a with
  | plain name =>
      cases b with
      | plain other => exact congrArg plain segments
      | heading label => exact (plain_not_section name label soundA segments).elim
      | tagged tag other => exact (plain_not_tag name tag soundA soundB.1 segments).elim
  | heading label =>
      cases b with
      | plain other => exact (plain_not_section other label soundB segments.symm).elim
      | heading other => exact congrArg heading (String.append_right_inj _ |>.mp segments)
      | tagged tag other => exact (section_not_tag label tag soundB.1 segments).elim
  | tagged tag name =>
      cases b with
      | plain other => exact (plain_not_tag other tag soundB soundA.1 segments.symm).elim
      | heading label => exact (section_not_tag label tag soundA.1 segments.symm).elim
      | tagged other inner =>
          cases (segments : tag = other)
          simp only [Place.rest, String.toList_append, List.append_assoc, List.append_right_inj] at rests
          have names := segment_unique _ _ u v (plain_name_unbroken name soundA.2)
            (plain_name_unbroken inner soundB.2) continuesA continuesB rests
          rw [String.toList_injective names.1]

end Place

structure Layout where
  parent : String
  separator : String
  joint : String

namespace Layout

def Sound (layout : Layout) : Prop :=
  layout.separator = layout.joint ∨ (layout.separator = "[]." ∧ layout.joint = ".")

def lead (layout : Layout) : Place → String
  | .plain _ => layout.separator
  | _ => layout.joint

def path (layout : Layout) (place : Place) : String :=
  layout.parent ++ layout.lead place ++ place.segment ++ place.rest

variable (layout : Layout) (sound : layout.Sound)

include sound in
theorem lead_unique (a b : Place) (u v : List Char)
    (same : (layout.lead a).toList ++ u = (layout.lead b).toList ++ v) :
    layout.lead a = layout.lead b := by
  rcases sound with alike | ⟨separator, joint⟩
  · cases a <;> cases b <;> simp [lead, alike]
  · cases a <;> cases b <;> simp [lead, separator, joint] at same ⊢

include sound in
theorem path_unique (a b : Place) (soundA : a.Sound) (soundB : b.Sound) (u v : List Char)
    (continuesA : Continues u) (continuesB : Continues v)
    (same : (layout.path a).toList ++ u = (layout.path b).toList ++ v) : a = b := by
  simp only [path, String.toList_append, List.append_assoc, List.append_right_inj] at same
  have leads := lead_unique layout sound a b _ _ same
  rw [leads, List.append_right_inj] at same
  obtain ⟨segments, rests⟩ := segment_unique _ _ _ _ (Place.segment_unbroken a soundA)
    (Place.segment_unbroken b soundB) (Place.rest_continues a u continuesA)
    (Place.rest_continues b v continuesB) same
  exact Place.segment_and_rest_unique a b soundA soundB u v (String.toList_injective segments) rests
    continuesA continuesB

include sound in
theorem path_injective (a b : Place) (soundA : a.Sound) (soundB : b.Sound)
    (same : layout.path a = layout.path b) : a = b :=
  path_unique layout sound a b soundA soundB [] [] nofun nofun (by rw [same])

include sound in
theorem places_apart (a b : Place) (soundA : a.Sound) (soundB : b.Sound) (different : a ≠ b) :
    Apart (layout.path a) (layout.path b) := by
  intro inner withinA withinB
  obtain ⟨u, continuesA, splitA⟩ := withinA
  obtain ⟨v, continuesB, splitB⟩ := withinB
  exact different (path_unique layout sound a b soundA soundB u v continuesA continuesB
    (splitA.symm.trans splitB))

end Layout

end ConditionalForm.Document
