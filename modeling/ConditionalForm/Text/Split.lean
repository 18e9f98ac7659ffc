set_option autoImplicit false

namespace ConditionalForm.Text

def parts (separator : Char) : List Char → List (List Char)
  | [] => [[]]
  | c :: rest =>
      if c = separator then [] :: parts separator rest
      else
        match parts separator rest with
        | [] => [[c]]
        | part :: others => (c :: part) :: others

def split (separator : Char) (text : String) : List String :=
  (parts separator text.toList).map String.ofList

def afterLast (separator : Char) (text : String) : String :=
  String.ofList (((parts separator text.toList).getLast?).getD [])

theorem parts_whole (separator : Char) (text : List Char) (whole : separator ∉ text) :
    parts separator text = [text] := by
  induction text with
  | nil => rfl
  | cons c rest ih =>
      have first : c ≠ separator := fun same => whole (same ▸ List.mem_cons_self)
      rw [parts, if_neg first, ih fun later => whole (List.mem_cons_of_mem c later)]

theorem parts_append (separator : Char) (text rest : List Char) (whole : separator ∉ text) :
    parts separator (text ++ separator :: rest) = text :: parts separator rest := by
  induction text with
  | nil => exact if_pos rfl
  | cons c text ih =>
      have first : c ≠ separator := fun same => whole (same ▸ List.mem_cons_self)
      rw [List.cons_append, parts, if_neg first, ih fun later => whole (List.mem_cons_of_mem c later)]

theorem parts_last (separator : Char) (front last : List Char) (whole : separator ∉ last) :
    ∃ first others, parts separator (front ++ separator :: last) = first :: others ++ [last] := by
  induction front with
  | nil => exact ⟨[], [], by rw [List.nil_append, parts, if_pos rfl, parts_whole separator last whole]; rfl⟩
  | cons c front ih =>
      obtain ⟨first, others, split⟩ := ih
      by_cases same : c = separator
      · exact ⟨[], first :: others, by rw [List.cons_append, parts, if_pos same, split]; rfl⟩
      · exact ⟨c :: first, others, by rw [List.cons_append, parts, if_neg same, split]; rfl⟩

theorem after_last_whole (separator : Char) (text : String) (whole : separator ∉ text.toList) :
    afterLast separator text = text := by
  rw [afterLast, parts_whole separator text.toList whole]
  exact String.ofList_toList

theorem after_last_append (separator : Char) (text : String) (front last : List Char)
    (split : text.toList = front ++ separator :: last) (whole : separator ∉ last) :
    afterLast separator text = String.ofList last := by
  obtain ⟨first, others, parted⟩ := parts_last separator front last whole
  rw [afterLast, split, parted, List.getLast?_concat, Option.getD_some]

end ConditionalForm.Text
