import ConditionalForm.Json.Basic

set_option autoImplicit false

namespace ConditionalForm

namespace Json

mutual
def WellFormed : Json → Prop
  | .array items => WellFormedItems items
  | .object members => (Members.keys members).Nodup ∧ WellFormedMembers members
  | _ => True
def WellFormedItems : List Json → Prop
  | [] => True
  | item :: items => WellFormed item ∧ WellFormedItems items
def WellFormedMembers : List (String × Json) → Prop
  | [] => True
  | (_, value) :: members => WellFormed value ∧ WellFormedMembers members
end

theorem well_formed_items_iff (items : List Json) :
    WellFormedItems items ↔ ∀ item ∈ items, item.WellFormed := by
  induction items with
  | nil => simp [WellFormedItems]
  | cons item items ih => simp [WellFormedItems, ih]

theorem well_formed_members_iff (members : Members) :
    WellFormedMembers members ↔ ∀ member ∈ members, member.2.WellFormed := by
  induction members with
  | nil => simp [WellFormedMembers]
  | cons member members ih => simp [WellFormedMembers, ih]

end Json

namespace Members

theorem mem_of_find (name : String) (members : Members) (value : Json)
    (found : find? name members = some value) : (name, value) ∈ members := by
  induction members with
  | nil => cases found
  | cons member members ih =>
      rw [find?] at found
      by_cases same : name = member.1
      · rw [if_pos same] at found
        cases found
        subst same
        exact List.mem_cons_self
      · rw [if_neg same] at found
        exact List.mem_cons_of_mem _ (ih found)

theorem find_of_mem (members : Members) (distinct : (keys members).Nodup) (member : String × Json)
    (listed : member ∈ members) : find? member.1 members = some member.2 := by
  induction members with
  | nil => cases listed
  | cons first members ih =>
      obtain ⟨unseen, later⟩ := List.nodup_cons.mp distinct
      rcases List.mem_cons.mp listed with rfl | inRest
      · simp [find?]
      · have other : member.1 ≠ first.1 := fun same => unseen (same ▸ List.mem_map_of_mem inRest)
        rw [find?, if_neg other, ih later inRest]

theorem mem_of_insert (name : String) (value : Json) (members : Members) (entry : String × Json)
    (member : entry ∈ insert name value members) : entry = (name, value) ∨ entry ∈ members := by
  induction members with
  | nil => exact .inl (List.mem_singleton.mp member)
  | cons first members ih =>
      rw [insert] at member
      by_cases same : name = first.1
      · rw [if_pos same] at member
        rcases List.mem_cons.mp member with rfl | later
        · exact .inl (by rw [same])
        · exact .inr (List.mem_cons_of_mem _ later)
      · rw [if_neg same] at member
        rcases List.mem_cons.mp member with rfl | later
        · exact .inr List.mem_cons_self
        · exact (ih later).imp id (List.mem_cons_of_mem _)

theorem insert_keys_nodup (name : String) (value : Json) (members : Members)
    (distinct : (keys members).Nodup) : (keys (insert name value members)).Nodup := by
  induction members with
  | nil => exact List.nodup_cons.mpr ⟨nofun, List.nodup_nil⟩
  | cons first members ih =>
      obtain ⟨unseen, later⟩ := List.nodup_cons.mp distinct
      rw [insert]
      by_cases same : name = first.1
      · rw [if_pos same]
        exact distinct
      · rw [if_neg same]
        refine List.nodup_cons.mpr ⟨fun again => ?_, ih later⟩
        obtain ⟨entry, member, key⟩ := List.mem_map.mp again
        rcases mem_of_insert name value members entry member with rfl | old
        · exact same key
        · exact unseen (key ▸ List.mem_map_of_mem old)

theorem mem_of_overlay (base own : Members) (entry : String × Json)
    (member : entry ∈ overlay base own) : entry ∈ base ∨ entry ∈ own := by
  induction own generalizing base with
  | nil => exact .inl member
  | cons first own ih =>
      rcases ih _ member with inBase | inOwn
      · rcases mem_of_insert first.1 first.2 base entry inBase with rfl | old
        · exact .inr List.mem_cons_self
        · exact .inl old
      · exact .inr (List.mem_cons_of_mem _ inOwn)

theorem overlay_keys_nodup (base own : Members) (distinct : (keys base).Nodup) :
    (keys (overlay base own)).Nodup := by
  induction own generalizing base with
  | nil => exact distinct
  | cons first own ih => exact ih _ (insert_keys_nodup first.1 first.2 base distinct)

end Members

namespace Json

theorem well_formed_overlay (base own : Members) (wellBase : (object base).WellFormed)
    (wellOwn : WellFormedMembers own) : (object (Members.overlay base own)).WellFormed := by
  refine ⟨Members.overlay_keys_nodup base own wellBase.1, (well_formed_members_iff _).mpr ?_⟩
  intro entry member
  rcases Members.mem_of_overlay base own entry member with inBase | inOwn
  · exact (well_formed_members_iff base).mp wellBase.2 entry inBase
  · exact (well_formed_members_iff own).mp wellOwn entry inOwn

end Json

end ConditionalForm
