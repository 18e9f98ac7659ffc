import ConditionalForm.Proofs.ReachedFields

set_option autoImplicit false

namespace ConditionalForm

def dataNames (fields : List Field) : List String :=
  (fields.filter fun field => !field.isHeading).map fun field => field.name

def DistinctSiblings (fields : List Field) : Prop :=
  (dataNames fields).Nodup ∧ ∀ field ∈ Field.walkAll fields, (dataNames field.children).Nodup

instance (fields : List Field) : Decidable (DistinctSiblings fields) :=
  inferInstanceAs (Decidable ((dataNames fields).Nodup ∧
    ∀ field ∈ Field.walkAll fields, (dataNames field.children).Nodup))

theorem distinct_siblings_below (fields : List Field) (distinct : DistinctSiblings fields)
    (outer : Field) (member : outer ∈ fields) : DistinctSiblings outer.children := by
  refine ⟨distinct.2 outer ((Field.mem_walk_all_iff _ _).mpr ⟨outer, member, .inl rfl⟩), ?_⟩
  intro field inner
  exact distinct.2 field ((Field.mem_walk_all_iff _ _).mpr ⟨outer, member, .inr inner⟩)

namespace Form

def entryAt (form : Form) (states : StateMap) (values : Snapshot) (chain : List Field) : Option Json :=
  Snapshot.descend (chain.map fun field => field.name) (form.payload states values)

def contributes (form : Form) (states : StateMap) (values : Snapshot) (chain : List Field) : Bool :=
  (form.entryAt states values chain).isSome

def contributedNames (form : Form) (states : StateMap) (values : Snapshot) (chain : List Field)
    (fields : List Field) : List String :=
  (fields.filter fun field =>
    !field.isHeading && form.contributes states values (chain ++ [field])).map fun field => field.name

end Form

section Contributions

variable (states : StateMap) (values : Snapshot)

theorem contribution_keys (fields : List Field) :
    (contributions states values fields).keys =
      (fields.filter fun field => !field.isHeading && (field.entry states values).isSome).map
        fun field => field.name := by
  induction fields with
  | nil => rfl
  | cons field fields ih =>
      rw [contributions, Members.keys] at ih ⊢
      cases heading : field.isHeading with
      | true => simp [Field.contribution, heading, ih]
      | false => cases sent : field.entry states values <;> simp [Field.contribution, heading, sent, ih]

theorem contribution_keys_sublist (fields : List Field) :
    (contributions states values fields).keys.Sublist (dataNames fields) := by
  have filtered := List.filter_sublist (p := fun field => (field.entry states values).isSome)
    (l := fields.filter fun field => !field.isHeading)
  rw [List.filter_filter] at filtered
  rw [contribution_keys, dataNames]
  refine List.Sublist.map _ ?_
  simpa only [Bool.and_comm] using filtered

theorem assemble_distinct (fields : List Field) (distinct : (dataNames fields).Nodup) :
    assemble states values [] fields = contributions states values fields := by
  rw [assemble_contributions]
  exact Members.add_all_distinct [] _ (distinct.sublist (contribution_keys_sublist states values fields))

theorem find_contribution (fields : List Field) (distinct : (dataNames fields).Nodup) (field : Field)
    (member : field ∈ fields) (data : field.isHeading = false) :
    Members.find? field.name (contributions states values fields) = field.entry states values := by
  induction fields with
  | nil => cases member
  | cons first fields ih =>
      have split : contributions states values (first :: fields) =
          (first.contribution states values).toList ++ contributions states values fields := by
        cases sent : first.contribution states values <;> simp [contributions, sent]
      rw [split, Members.find_append]
      rcases List.mem_cons.mp member with rfl | later
      · have names : dataNames (field :: fields) = field.name :: dataNames fields := by
          simp [dataNames, data]
        have unseen := (List.nodup_cons.mp (names ▸ distinct)).1
        have absent : Members.find? field.name (contributions states values fields) = none :=
          (Members.find_none_iff _ _).mpr fun again =>
            unseen ((contribution_keys_sublist states values fields).subset again)
        cases sent : field.entry states values <;>
          simp [Field.contribution, data, sent, Members.find?, absent]
      · cases heading : first.isHeading with
        | true =>
            have names : dataNames (first :: fields) = dataNames fields := by simp [dataNames, heading]
            simpa [Field.contribution, heading, Members.find?] using ih (names ▸ distinct) later
        | false =>
            have names : dataNames (first :: fields) = first.name :: dataNames fields := by
              simp [dataNames, heading]
            obtain ⟨unseen, rest⟩ := List.nodup_cons.mp (names ▸ distinct)
            have inNames : field.name ∈ dataNames fields :=
              List.mem_map_of_mem (List.mem_filter.mpr ⟨later, by simp [data]⟩)
            have different : field.name ≠ first.name := fun same => unseen (same ▸ inNames)
            have others := ih rest later
            cases sent : first.entry states values <;>
              simp [Field.contribution, heading, sent, Members.find?, different, others]

theorem descend_names_nil (names : List String) (nonempty : names ≠ []) :
    Snapshot.descend names (.object []) = none := by
  cases names with
  | nil => exact absurd rfl nonempty
  | cons name names => rfl

theorem descend_reached (fields chain : List Field) (field : Field) (distinct : DistinctSiblings fields)
    (reached : Reached fields chain field) :
    Snapshot.descend ((chain ++ [field]).map fun f => f.name)
        (.object (assemble states values [] fields)) =
      if ∀ outer ∈ chain, Shown states outer then field.entry states values else none := by
  induction reached with
  | top member data =>
      rw [assemble_distinct states values _ distinct.1]
      have found := find_contribution states values _ distinct.1 _ member data
      simp [Snapshot.descend, Json.get?, found]
  | @inside fields outer chain field member data group inner ih =>
      have below := ih (distinct_siblings_below fields distinct outer member)
      have found := find_contribution states values fields distinct.1 outer member data
      rw [assemble_distinct states values _ distinct.1, List.cons_append, List.map_cons,
        Snapshot.descend, Json.get?, found, entry_group states values outer group]
      by_cases shown : Shown states outer
      · have visible : (StateMap.stateAt states outer.path).visible = true := shown
        simp only [List.forall_mem_cons, shown, true_and]
        rw [← below]
        split
        · rfl
        · rename_i unsent
          have empty : assemble states values [] outer.children = [] := by
            simpa [visible] using (not_or.mp fun sent => unsent ⟨visible, sent⟩).1
          rw [empty]
          exact (descend_names_nil _ (by simp)).symm
      · have hidden : ¬ ∀ f ∈ outer :: chain, Shown states f := fun all => shown (all outer (by simp))
        rw [if_neg hidden, if_neg fun sent => shown sent.1]
        rfl

end Contributions

namespace Form

structure LeafContent (form : Form) (states : StateMap) (values : Snapshot) (chain : List Field)
    (leaf : Field) : Prop where
  contributes_iff : form.contributes states values (chain ++ [leaf]) = true ↔
    (∀ field ∈ chain ++ [leaf], Shown states field) ∧
      (StateMap.stateAt states leaf.path).includes (leaf.entered values) = true
  entry : form.contributes states values (chain ++ [leaf]) = true →
    form.entryAt states values (chain ++ [leaf]) = some ((leaf.entered values).getD .null)

structure GroupContent (form : Form) (states : StateMap) (values : Snapshot) (chain : List Field)
    (group : Field) : Prop where
  contributes_iff : form.contributes states values (chain ++ [group]) = true ↔
    (∀ field ∈ chain ++ [group], Shown states field) ∧
      ((∃ child ∈ group.children, child.isHeading = false ∧
          form.contributes states values (chain ++ [group] ++ [child]) = true) ∨
        (StateMap.stateAt states group.path).requiredNow = true)
  entry : form.contributes states values (chain ++ [group]) = true →
    ∃ body, form.entryAt states values (chain ++ [group]) = some (.object body) ∧
      Members.keys body = form.contributedNames states values (chain ++ [group]) group.children

section Reached

variable (form : Form) (states : StateMap) (values : Snapshot) (distinct : DistinctSiblings form.fields)
variable (chain : List Field) (field : Field) (reached : Reached form.fields chain field)

include distinct reached in
theorem entry_at_reached : form.entryAt states values (chain ++ [field]) =
    if ∀ outer ∈ chain, Shown states outer then field.entry states values else none :=
  descend_reached states values form.fields chain field distinct reached

include distinct reached in
theorem contributes_reached_iff : form.contributes states values (chain ++ [field]) = true ↔
    (∀ f ∈ chain ++ [field], Shown states f) ∧ (field.entry states values).isSome = true := by
  rw [contributes, entry_at_reached form states values distinct chain field reached]
  constructor
  · intro found
    split at found
    · rename_i shown
      obtain ⟨value, sent⟩ := Option.isSome_iff_exists.mp found
      refine ⟨fun f member => ?_, found⟩
      rcases List.mem_append.mp member with inChain | last
      · exact shown f inChain
      · cases List.mem_singleton.mp last
        exact entry_shown states values field value sent
    · cases found
  · intro sent
    obtain ⟨shown, found⟩ := sent
    rwa [if_pos fun f member => shown f (List.mem_append_left _ member)]

include distinct reached in
theorem entry_at_contributing (present : form.contributes states values (chain ++ [field]) = true) :
    form.entryAt states values (chain ++ [field]) = field.entry states values := by
  obtain ⟨shown, _⟩ :=
    (contributes_reached_iff form states values distinct chain field reached).mp present
  rw [entry_at_reached form states values distinct chain field reached,
    if_pos fun f member => shown f (List.mem_append_left _ member)]

include distinct reached in
theorem leaf_content (leaf : field.isGroup = false) :
    LeafContent form states values chain field := by
  have located := contributes_reached_iff form states values distinct chain field reached
  have entry := entry_leaf states values field leaf
  rw [Attributes.leafEntry] at entry
  constructor
  · rw [located, entry]
    cases (StateMap.stateAt states field.path).includes (field.entered values) <;> simp
  · intro present
    obtain ⟨_, sent⟩ := located.mp present
    rw [entry_at_contributing form states values distinct chain field reached present]
    rw [entry] at sent ⊢
    split
    · rfl
    · rename_i excluded
      rw [if_neg excluded] at sent
      cases sent

include distinct reached in
theorem child_contributes (group : field.isGroup = true)
    (shown : ∀ f ∈ chain ++ [field], Shown states f) (child : Field) (member : child ∈ field.children)
    (data : child.isHeading = false) :
    form.contributes states values (chain ++ [field] ++ [child]) = (child.entry states values).isSome := by
  have below := reached_extend form.fields chain field child reached group member data
  rw [contributes, entry_at_reached form states values distinct _ child below, if_pos shown]

include distinct reached in
theorem contributed_names_below (group : field.isGroup = true)
    (shown : ∀ f ∈ chain ++ [field], Shown states f) :
    form.contributedNames states values (chain ++ [field]) field.children =
      Members.keys (contributions states values field.children) := by
  rw [contribution_keys, contributedNames]
  refine congrArg _ (List.filter_congr fun child member => ?_)
  cases data : child.isHeading with
  | true => rfl
  | false =>
      rw [child_contributes form states values distinct chain field reached group shown child member data]

include distinct reached in
theorem group_content (group : field.isGroup = true) :
    GroupContent form states values chain field := by
  have located := contributes_reached_iff form states values distinct chain field reached
  have below := child_contributes form states values distinct chain field reached group
  constructor
  · rw [located, entry_group_sent_iff states values field group]
    constructor
    · intro sent
      obtain ⟨shown, _, source⟩ := sent
      refine ⟨shown, source.imp (fun sender => ?_) id⟩
      obtain ⟨child, member, data, sent⟩ := sender
      exact ⟨child, member, data, (below shown child member data).trans sent⟩
    · intro sent
      obtain ⟨shown, source⟩ := sent
      refine ⟨shown, shown field (List.mem_append_right _ List.mem_cons_self),
        source.imp (fun sender => ?_) id⟩
      obtain ⟨child, member, data, sent⟩ := sender
      exact ⟨child, member, data, (below shown child member data).symm.trans sent⟩
  · intro present
    obtain ⟨shown, sent⟩ := located.mp present
    have siblings := distinct.2 field (reached_walked form.fields chain field reached)
    rw [entry_at_contributing form states values distinct chain field reached present]
    rw [entry_group states values field group] at sent ⊢
    split
    · refine ⟨_, rfl, ?_⟩
      rw [assemble_distinct states values field.children siblings]
      exact (contributed_names_below form states values distinct chain field reached group shown).symm
    · rename_i excluded
      rw [if_neg excluded] at sent
      cases sent

end Reached

theorem contributed_names_top (form : Form) (states : StateMap) (values : Snapshot)
    (distinct : DistinctSiblings form.fields) :
    form.contributedNames states values [] form.fields =
      Members.keys (contributions states values form.fields) := by
  rw [contribution_keys, contributedNames]
  refine congrArg _ (List.filter_congr fun field member => ?_)
  cases data : field.isHeading with
  | true => rfl
  | false =>
      rw [contributes, entry_at_reached form states values distinct [] field (.top member data),
        if_pos (by simp)]

def loadField : Field where
  path := "BEAM.LOAD"
  name := "LOAD"
  type := .object
  children := [{ path := "BEAM.LOAD.FX", name := "FX", type := .number }]

def beamField : Field where
  path := "BEAM"
  name := "BEAM"
  type := .object
  children := [{ path := "BEAM.SPAN", name := "SPAN", type := .number }, loadField]

def beamForm : Form := { fields := [beamField, { path := "NAME", name := "NAME" }] }

def beamStates : StateMap := [("BEAM.LOAD", ⟨true, .required, true, true⟩), ("BEAM.SPAN", .hidden)]

end Form

end ConditionalForm
