import ConditionalForm.Proofs.PayloadEntries

set_option autoImplicit false

namespace ConditionalForm

inductive Reached : List Field → List Field → Field → Prop
  | top {fields : List Field} {field : Field} (member : field ∈ fields)
      (data : field.isHeading = false) : Reached fields [] field
  | inside {fields : List Field} {outer : Field} {chain : List Field} {field : Field}
      (member : outer ∈ fields) (data : outer.isHeading = false) (group : outer.isGroup = true)
      (inner : Reached outer.children chain field) : Reached fields (outer :: chain) field

def Shown (states : StateMap) (field : Field) : Prop :=
  (StateMap.stateAt states field.path).visible = true

instance (states : StateMap) (field : Field) : Decidable (Shown states field) :=
  inferInstanceAs (Decidable (_ = true))

theorem reached_extend (fields chain : List Field) (field child : Field)
    (reached : Reached fields chain field) (group : field.isGroup = true) (member : child ∈ field.children)
    (data : child.isHeading = false) : Reached fields (chain ++ [field]) child := by
  induction reached with
  | top inFields outerData => exact .inside inFields outerData group (.top member data)
  | inside inFields outerData outerGroup _ ih => exact .inside inFields outerData outerGroup (ih group member)

theorem reached_walked (fields chain : List Field) (field : Field) (reached : Reached fields chain field) :
    field ∈ Field.walkAll fields := by
  induction reached with
  | top member _ => exact (Field.mem_walk_all_iff _ _).mpr ⟨_, member, .inl rfl⟩
  | inside member _ _ _ ih => exact (Field.mem_walk_all_iff _ _).mpr ⟨_, member, .inr ih⟩

def LeavesAgree (states : StateMap) (v w : Snapshot) (fields : List Field) : Prop :=
  ∀ chain leaf, Reached fields chain leaf → (∀ field ∈ chain ++ [leaf], Shown states field) →
    leaf.isGroup = false → leaf.entered v = leaf.entered w

section LeavesAgree

variable {states : StateMap} {v w : Snapshot}

theorem leaves_agree_cons (field : Field) (fields : List Field)
    (agree : LeavesAgree states v w (field :: fields)) :
    LeavesAgree states v w [field] ∧ LeavesAgree states v w fields := by
  constructor
  · intro chain leaf reached
    cases reached with
    | top member data =>
        exact agree [] leaf (.top (List.mem_singleton.mp member ▸ List.mem_cons_self) data)
    | inside member data group inner =>
        exact agree _ leaf (.inside (List.mem_singleton.mp member ▸ List.mem_cons_self) data group inner)
  · intro chain leaf reached
    cases reached with
    | top member data => exact agree [] leaf (.top (List.mem_cons_of_mem _ member) data)
    | inside member data group inner =>
        exact agree _ leaf (.inside (List.mem_cons_of_mem _ member) data group inner)

theorem leaves_agree_below (field : Field) (data : field.isHeading = false) (group : field.isGroup = true)
    (shown : Shown states field) (agree : LeavesAgree states v w [field]) :
    LeavesAgree states v w field.children := by
  intro chain leaf reached visible
  refine agree (field :: chain) leaf (.inside List.mem_cons_self data group reached) fun outer member => ?_
  rcases List.mem_cons.mp member with rfl | inner
  · exact shown
  · exact visible outer inner

mutual
theorem entry_agree (field : Field) (data : field.isHeading = false)
    (agree : LeavesAgree states v w [field]) : field.entry states v = field.entry states w := by
  obtain ⟨attributes, children⟩ := field
  cases group : (⟨attributes, children⟩ : Field).isGroup with
  | false =>
      rw [entry_leaf states v _ group, entry_leaf states w _ group]
      by_cases shown : Shown states ⟨attributes, children⟩
      · have entered := agree [] _ (.top List.mem_cons_self data) (by simpa using shown) group
        rw [Attributes.leafEntry, Attributes.leafEntry, entered]
      · have hidden : (StateMap.stateAt states attributes.path).visible = false :=
          Bool.eq_false_iff.mpr shown
        simp [Attributes.leafEntry, FieldState.includes, hidden]
  | true =>
      rw [entry_group states v _ group, entry_group states w _ group]
      by_cases shown : Shown states ⟨attributes, children⟩
      · have below := leaves_agree_below _ data group shown agree
        rw [assemble_contributions, assemble_contributions, contributions_agree children below]
      · rw [if_neg fun sent => shown sent.1, if_neg fun sent => shown sent.1]

theorem contributions_agree (fields : List Field) (agree : LeavesAgree states v w fields) :
    contributions states v fields = contributions states w fields := by
  cases fields with
  | nil => rfl
  | cons field fields =>
      obtain ⟨first, others⟩ := leaves_agree_cons field fields agree
      have own : field.contribution states v = field.contribution states w := by
        rw [Field.contribution, Field.contribution]
        cases data : field.isHeading with
        | true => rfl
        | false => rw [entry_agree field data first]
      have rest := contributions_agree fields others
      rw [contributions] at rest ⊢
      rw [contributions, List.filterMap_cons, List.filterMap_cons, own, rest]
      rfl
end

theorem payload_agree (form : Form) (agree : LeavesAgree states v w form.fields) :
    form.payload states v = form.payload states w := by
  rw [Form.payload, Form.payload, assemble_contributions, assemble_contributions,
    contributions_agree form.fields agree]

end LeavesAgree

end ConditionalForm
