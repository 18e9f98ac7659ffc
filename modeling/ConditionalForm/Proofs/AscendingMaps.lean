import ConditionalForm.SortedMap
import Mathlib.Data.List.Induction
import Mathlib.Data.List.Sort
import Mathlib.Data.String.Basic

set_option autoImplicit false

namespace ConditionalForm

namespace SortedMap

variable {α : Type}

def Ascending (map : SortedMap α) : Prop := map.Pairwise fun earlier later => earlier.1 < later.1

theorem mem_of_insert (key : String) (value : α) (map : SortedMap α) (entry : String × α)
    (member : entry ∈ insert key value map) : entry = (key, value) ∨ entry ∈ map := by
  induction map with
  | nil => simpa [insert] using member
  | cons first tail ih =>
      by_cases less : key < first.1
      · simpa [insert, less] using member
      · by_cases same : key = first.1
        · rw [insert, if_neg less, if_pos same] at member
          exact (List.mem_cons.mp member).imp id (List.mem_cons_of_mem first)
        · rw [insert, if_neg less, if_neg same] at member
          rcases List.mem_cons.mp member with rfl | later
          · exact .inr List.mem_cons_self
          · exact (ih later).imp id (List.mem_cons_of_mem first)

theorem insert_ascending (key : String) (value : α) (map : SortedMap α) (ordered : Ascending map) :
    Ascending (insert key value map) := by
  induction map with
  | nil => simp [insert, Ascending]
  | cons first tail ih =>
      obtain ⟨before, later⟩ := List.pairwise_cons.mp ordered
      by_cases less : key < first.1
      · rw [insert, if_pos less]
        refine List.pairwise_cons.mpr ⟨fun entry member => ?_, ordered⟩
        rcases List.mem_cons.mp member with rfl | inTail
        · exact less
        · exact String.lt_trans less (before entry inTail)
      · by_cases same : key = first.1
        · rw [insert, if_neg less, if_pos same]
          exact List.pairwise_cons.mpr ⟨same ▸ before, later⟩
        · have greater : first.1 < key := by
            apply String.not_le.mp
            intro least
            exact same (String.le_antisymm (String.not_lt.mp less) least).symm
          rw [insert, if_neg less, if_neg same]
          refine List.pairwise_cons.mpr ⟨fun entry member => ?_, ih later⟩
          rcases mem_of_insert key value tail entry member with rfl | inTail
          · exact greater
          · exact before entry inTail

theorem of_list_ascending (entries : List (String × α)) : Ascending (ofList entries) := by
  have filled (map : SortedMap α) (ordered : Ascending map) :
      Ascending (entries.foldl (fun map entry => insert entry.1 entry.2 map) map) := by
    induction entries generalizing map with
    | nil => exact ordered
    | cons entry rest ih => exact ih _ (insert_ascending entry.1 entry.2 map ordered)
  exact filled [] List.Pairwise.nil

theorem ascending_keys_distinct (map : SortedMap α) (ordered : Ascending map) : (keys map).Nodup := by
  rw [keys, List.Nodup, List.pairwise_map]
  refine ordered.imp fun {earlier later} less same => ?_
  rw [same] at less
  exact String.lt_irrefl _ less

theorem mem_of_fill (entries : List (String × α)) (map : SortedMap α) (entry : String × α)
    (member : entry ∈ entries.foldl (fun map entry => insert entry.1 entry.2 map) map) :
    entry ∈ entries ∨ entry ∈ map := by
  induction entries generalizing map with
  | nil => exact .inr member
  | cons first rest ih =>
      rcases ih _ member with later | held
      · exact .inl (List.mem_cons_of_mem first later)
      · rcases mem_of_insert first.1 first.2 map entry held with rfl | older
        · exact .inl List.mem_cons_self
        · exact .inr older

theorem mem_of_list (entries : List (String × α)) (entry : String × α) (member : entry ∈ ofList entries) :
    entry ∈ entries :=
  (mem_of_fill entries [] entry member).resolve_right List.not_mem_nil

theorem mem_of_get (key : String) (map : SortedMap α) (value : α) (found : get? key map = some value) :
    (key, value) ∈ map := by
  induction map with
  | nil => cases found
  | cons entry tail ih =>
      rw [get?] at found
      by_cases same : key = entry.1
      · rw [if_pos same] at found
        cases found
        exact same ▸ List.mem_cons_self
      · rw [if_neg same] at found
        exact List.mem_cons_of_mem _ (ih found)

theorem mem_keys_iff (key : String) (map : SortedMap α) :
    key ∈ keys map ↔ ∃ value, get? key map = some value := by
  induction map with
  | nil => simp [keys, get?]
  | cons entry tail ih =>
      by_cases same : key = entry.1
      · simp [keys, get?, same]
      · simpa [keys, get?, same] using ih

theorem get_below (key : String) (map : SortedMap α) (below : ∀ entry ∈ map, key < entry.1) :
    get? key map = none := by
  induction map with
  | nil => rfl
  | cons entry tail ih =>
      have different : key ≠ entry.1 := by
        intro same
        exact String.lt_irrefl key (same ▸ below entry List.mem_cons_self)
      rw [get?, if_neg different]
      exact ih fun other member => below other (List.mem_cons_of_mem entry member)

-- The least key of one map is found in the other, where it can be no later one.
theorem least_key_le (first other : String × α) (tail rest : SortedMap α) (ordered : Ascending (other :: rest))
    (same : ∀ key, get? key (first :: tail) = get? key (other :: rest)) : other.1 ≤ first.1 := by
  apply String.not_lt.mp
  intro less
  have absent : get? first.1 (other :: rest) = none := by
    refine get_below first.1 _ fun entry member => ?_
    rcases List.mem_cons.mp member with rfl | later
    · exact less
    · exact String.lt_trans less ((List.pairwise_cons.mp ordered).1 entry later)
  have found := same first.1
  rw [absent, get?, if_pos rfl] at found
  cases found

theorem ascending_ext (left right : SortedMap α) (orderedLeft : Ascending left) (orderedRight : Ascending right)
    (same : ∀ key, get? key left = get? key right) : left = right := by
  induction left generalizing right with
  | nil =>
      cases right with
      | nil => rfl
      | cons other rest =>
          have found := same other.1
          simp [get?] at found
  | cons first tail ih =>
      cases right with
      | nil =>
          have found := same first.1
          simp [get?] at found
      | cons other rest =>
          obtain ⟨key, value⟩ := first
          obtain ⟨otherKey, otherValue⟩ := other
          have keys : otherKey = key := String.le_antisymm
            (least_key_le _ _ _ _ orderedRight same) (least_key_le _ _ _ _ orderedLeft fun key => (same key).symm)
          subst keys
          have values : value = otherValue := by simpa [get?] using same otherKey
          subst values
          obtain ⟨beforeLeft, laterLeft⟩ := List.pairwise_cons.mp orderedLeft
          obtain ⟨beforeRight, laterRight⟩ := List.pairwise_cons.mp orderedRight
          rw [ih rest laterLeft laterRight fun query => ?_]
          by_cases first : query = otherKey
          · rw [first, get_below otherKey tail beforeLeft, get_below otherKey rest beforeRight]
          · simpa [get?, first] using same query

theorem get_of_list (entries : List (String × α)) (key : String) :
    get? key (ofList entries) = (entries.reverse.find? fun entry => entry.1 == key).map Prod.snd := by
  induction entries using List.reverseRecOn with
  | nil => rfl
  | append_singleton entries entry ih =>
      have last : ofList (entries ++ [entry]) = insert entry.1 entry.2 (ofList entries) := by
        rw [ofList, List.foldl_append]
        rfl
      rw [last, List.reverse_append, List.reverse_singleton, List.singleton_append]
      by_cases same : entry.1 = key
      · subst same
        simp [get_insert_self]
      · rw [get_insert_other _ _ _ _ (Ne.symm same), ih]
        simp [same]

theorem mem_of_list_keys (entries : List (String × α)) (key : String) :
    key ∈ keys (ofList entries) ↔ ∃ entry ∈ entries, entry.1 = key := by
  rw [mem_keys_iff]
  constructor
  · rintro ⟨value, found⟩
    exact ⟨(key, value), mem_of_list entries _ (mem_of_get key _ value found), rfl⟩
  · rintro ⟨entry, member, rfl⟩
    rw [get_of_list]
    refine Option.isSome_iff_exists.mp ?_
    rw [Option.isSome_map, List.find?_isSome]
    exact ⟨entry, List.mem_reverse.mpr member, beq_self_eq_true entry.1⟩

end SortedMap

namespace SortedSet

def Ascending (set : SortedSet) : Prop := set.Pairwise fun earlier later => earlier < later

theorem insert_ascending (text : String) (set : SortedSet) (ordered : Ascending set) :
    Ascending (insert text set) := by
  induction set with
  | nil => simp [insert, Ascending]
  | cons first tail ih =>
      obtain ⟨before, later⟩ := List.pairwise_cons.mp ordered
      by_cases less : text < first
      · rw [insert, if_pos less]
        refine List.pairwise_cons.mpr ⟨fun other member => ?_, ordered⟩
        rcases List.mem_cons.mp member with rfl | inTail
        · exact less
        · exact String.lt_trans less (before other inTail)
      · by_cases same : text = first
        · rwa [insert, if_neg less, if_pos same]
        · have greater : first < text := by
            apply String.not_le.mp
            intro least
            exact same (String.le_antisymm (String.not_lt.mp less) least).symm
          rw [insert, if_neg less, if_neg same]
          refine List.pairwise_cons.mpr ⟨fun other member => ?_, ih later⟩
          rcases (mem_insert text other tail).mp member with rfl | inTail
          · exact greater
          · exact before other inTail

theorem union_ascending (left right : SortedSet) (ordered : Ascending left) : Ascending (union left right) :=
  List.foldlRecOn right _ ordered fun set held text _ => insert_ascending text set held

theorem ascending_ext (left right : SortedSet) (orderedLeft : Ascending left) (orderedRight : Ascending right)
    (same : ∀ text, text ∈ left ↔ text ∈ right) : left = right :=
  List.Pairwise.eq_of_mem_iff orderedLeft orderedRight same

end SortedSet

end ConditionalForm
