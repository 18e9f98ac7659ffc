set_option autoImplicit false

namespace ConditionalForm

abbrev SortedMap (α : Type) := List (String × α)

namespace SortedMap

variable {α : Type}

def insert (key : String) (value : α) : SortedMap α → SortedMap α
  | [] => [(key, value)]
  | (other, old) :: tail =>
      if key < other then (key, value) :: (other, old) :: tail
      else if key = other then (key, value) :: tail
      else (other, old) :: insert key value tail

def get? (key : String) : SortedMap α → Option α
  | [] => none
  | (other, value) :: tail => if key = other then some value else get? key tail

def contains (key : String) (map : SortedMap α) : Bool := (get? key map).isSome

def keys (map : SortedMap α) : List String := map.map Prod.fst

def ofList (entries : List (String × α)) : SortedMap α :=
  entries.foldl (fun map entry => insert entry.1 entry.2 map) []

theorem get_insert_self (key : String) (value : α) (map : SortedMap α) :
    get? key (insert key value map) = some value := by
  induction map with
  | nil => simp [insert, get?]
  | cons entry tail ih =>
      obtain ⟨other, old⟩ := entry
      simp only [insert]
      split
      · simp [get?]
      · split
        · simp [get?]
        · rename_i different
          simp [get?, different, ih]

theorem get_insert_other (key query : String) (value : α) (map : SortedMap α)
    (different : query ≠ key) : get? query (insert key value map) = get? query map := by
  induction map with
  | nil => simp [insert, get?, different]
  | cons entry tail ih =>
      obtain ⟨other, old⟩ := entry
      simp only [insert]
      split
      · simp [get?, different]
      · split
        · rename_i same
          subst same
          simp [get?, different]
        · simp [get?, ih]

theorem get_fill (keys : List String) (value : α) (map : SortedMap α) (query : String) :
    get? query ((keys.map (·, value)).foldl (fun map entry => insert entry.1 entry.2 map) map) =
      if query ∈ keys then some value else get? query map := by
  induction keys generalizing map with
  | nil => simp
  | cons key rest ih =>
      rw [List.map_cons, List.foldl_cons, ih]
      by_cases later : query ∈ rest
      · simp [later]
      · by_cases same : query = key
        · subst same
          simp [later, get_insert_self]
        · simp [later, same, get_insert_other]

theorem get_untouched (entries : List (String × α)) (map : SortedMap α) (query : String)
    (absent : ∀ entry ∈ entries, entry.1 ≠ query) :
    get? query (entries.foldl (fun map entry => insert entry.1 entry.2 map) map) =
      get? query map := by
  induction entries generalizing map with
  | nil => rfl
  | cons entry rest ih =>
      rw [List.foldl_cons, ih _ fun later member => absent later (List.mem_cons_of_mem _ member)]
      exact get_insert_other entry.1 query entry.2 map (absent entry List.mem_cons_self).symm

theorem get_of_list_last (before after : List (String × α)) (key : String) (value : α)
    (absent : ∀ entry ∈ after, entry.1 ≠ key) :
    get? key (ofList (before ++ (key, value) :: after)) = some value := by
  unfold ofList
  rw [List.foldl_append, List.foldl_cons, get_untouched after _ key absent, get_insert_self]

end SortedMap

abbrev SortedSet := List String

namespace SortedSet

def insert (text : String) : SortedSet → SortedSet
  | [] => [text]
  | other :: tail =>
      if text < other then text :: other :: tail
      else if text = other then other :: tail
      else other :: insert text tail

def ofList (texts : List String) : SortedSet := texts.foldl (fun set text => insert text set) []

def union (left right : SortedSet) : SortedSet := right.foldl (fun set text => insert text set) left

theorem mem_insert (text query : String) (set : SortedSet) :
    query ∈ insert text set ↔ query = text ∨ query ∈ set := by
  induction set with
  | nil => simp [insert]
  | cons other tail ih =>
      simp only [insert]
      split
      · simp
      · split
        · rename_i same
          subst same
          simp
        · simp only [List.mem_cons, ih]
          constructor
          · rintro (h | h | h) <;> simp [h]
          · rintro (h | h | h) <;> simp [h]

end SortedSet

end ConditionalForm
