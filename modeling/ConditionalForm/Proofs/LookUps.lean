import ConditionalForm.Snapshot

set_option autoImplicit false

namespace ConditionalForm

theorem Text.parts_first (separator : Char) (text : List Char) :
    ∃ others, parts separator text = text.takeWhile (fun c => c != separator) :: others := by
  induction text with
  | nil => exact ⟨[], rfl⟩
  | cons c text ih =>
      obtain ⟨others, split⟩ := ih
      by_cases same : c = separator
      · exact ⟨parts separator text, by simp [parts, same]⟩
      · exact ⟨others, by simp [parts, same, split]⟩

theorem Text.parts_join (separator : Char) (text rest : List Char) :
    parts separator (text ++ separator :: rest) = parts separator text ++ parts separator rest := by
  induction text with
  | nil => exact if_pos rfl
  | cons c text ih =>
      rw [List.cons_append, parts, parts, ih]
      split
      · rfl
      · obtain ⟨others, split⟩ := parts_first separator text
        rw [split]
        rfl

namespace Snapshot

def firstSegment (path : String) : String :=
  String.ofList (path.toList.takeWhile fun c => c != '.')

theorem segments_first (path : String) : ∃ others, segments path = firstSegment path :: others := by
  obtain ⟨others, split⟩ := Text.parts_first '.' path.toList
  exact ⟨others.map String.ofList, by rw [segments, Text.split, split, List.map_cons, firstSegment]⟩

theorem segments_whole (name : String) (whole : '.' ∉ name.toList) : segments name = [name] := by
  rw [segments, Text.split, Text.parts_whole _ _ whole, List.map_singleton, String.ofList_toList]

theorem first_segment_undotted (path : String) : '.' ∉ (firstSegment path).toList := by
  rw [firstSegment, String.toList_ofList]
  exact fun dot => absurd (List.all_eq_true.mp List.all_takeWhile _ dot) (by decide)

theorem segments_join (outer inner : String) :
    segments (outer ++ "." ++ inner) = segments outer ++ segments inner := by
  have split : (outer ++ "." ++ inner).toList = outer.toList ++ '.' :: inner.toList := by simp
  rw [segments, Text.split, split, Text.parts_join, List.map_append]
  rfl

theorem descend_append (front back : List String) (value : Json) :
    descend (front ++ back) value = (descend front value).bind (descend back) := by
  induction front generalizing value with
  | nil => rfl
  | cons segment front ih =>
      rw [List.cons_append, descend, descend, Option.bind_assoc]
      exact congrArg _ (funext ih)

theorem descend_through (path : String) (value inner : Json)
    (found : descend (segments path) value = some inner) : ∃ members, value = .object members := by
  obtain ⟨others, split⟩ := segments_first path
  rw [split, descend] at found
  cases value with
  | object members => exact ⟨members, rfl⟩
  | _ => cases found

theorem lookup_held_only (values : Snapshot) (path : String)
    (nowhere : descend (segments path) (.object values) = none) :
    values.lookup path = Members.find? path values := by
  rw [lookup, nowhere]
  cases Members.find? path values <;> rfl

theorem lookup_agree (v w : Snapshot) (path : String)
    (whole : Members.find? path v = Members.find? path w)
    (outer : Members.find? (firstSegment path) v = Members.find? (firstSegment path) w) :
    v.lookup path = w.lookup path := by
  obtain ⟨others, split⟩ := segments_first path
  rw [lookup, lookup, whole, split, descend, descend, Json.get?, Json.get?, outer]

theorem lookup_absent (values : Snapshot) (path : String) (whole : Members.find? path values = none)
    (outer : Members.find? (firstSegment path) values = none) : values.lookup path = none := by
  obtain ⟨others, split⟩ := segments_first path
  rw [lookup, whole, split, descend, Json.get?, outer]
  rfl

theorem lookup_same_entries (v w : Snapshot)
    (same : ∀ key, Members.find? key v = Members.find? key w) (path : String) :
    v.lookup path = w.lookup path :=
  lookup_agree v w path (same path) (same (firstSegment path))

theorem first_segment_cases (path : String) :
    path = firstSegment path ∨ ∃ rest, path = firstSegment path ++ "." ++ rest := by
  have split := List.takeWhile_append_dropWhile (p := fun c => c != '.') (l := path.toList)
  cases after : path.toList.dropWhile fun c => c != '.' with
  | nil =>
      rw [after, List.append_nil] at split
      left
      rw [firstSegment, split, String.ofList_toList]
  | cons c rest =>
      have dot : c = '.' := by
        have first := List.head?_dropWhile_not (fun c => c != '.') path.toList
        rw [after] at first
        simpa using first
      refine .inr ⟨String.ofList rest, String.toList_injective ?_⟩
      rw [firstSegment, String.toList_append, String.toList_append, String.toList_ofList,
        String.toList_ofList]
      rw [after, dot] at split
      simpa using split.symm

theorem first_segment_dotted (outer rest : String) (whole : '.' ∉ outer.toList) :
    firstSegment (outer ++ "." ++ rest) = outer := by
  have stays : ∀ c ∈ outer.toList, (c != '.') = true := fun c member =>
    bne_iff_ne.mpr fun same => whole (same ▸ member)
  have split : (outer ++ "." ++ rest).toList = outer.toList ++ '.' :: rest.toList := by simp
  rw [firstSegment, split, List.takeWhile_append_of_pos stays]
  simp

theorem dotted_injective (outer other inner rest : String) (wholeOuter : '.' ∉ outer.toList)
    (wholeOther : '.' ∉ other.toList) (same : outer ++ "." ++ inner = other ++ "." ++ rest) :
    outer = other ∧ inner = rest := by
  have first : outer = other := by
    rw [← first_segment_dotted outer inner wholeOuter, same, first_segment_dotted other rest wholeOther]
  rw [first] at same
  exact ⟨first, (String.append_right_inj _).mp same⟩

theorem segments_nested (outer inner : String) (wholeOuter : '.' ∉ outer.toList)
    (wholeInner : '.' ∉ inner.toList) : segments (outer ++ "." ++ inner) = [outer, inner] := by
  have split : (outer ++ "." ++ inner).toList = outer.toList ++ '.' :: inner.toList := by simp
  rw [segments, Text.split, split, Text.parts_append _ _ _ wholeOuter, Text.parts_whole _ _ wholeInner]
  simp

theorem lookup_nested (values : Snapshot) (outer inner : String) (wholeOuter : '.' ∉ outer.toList)
    (wholeInner : '.' ∉ inner.toList) :
    values.lookup (outer ++ "." ++ inner) = (Members.find? (outer ++ "." ++ inner) values).or
      ((Members.find? outer values).bind (Json.get? inner)) := by
  rw [lookup, segments_nested outer inner wholeOuter wholeInner]
  cases Members.find? (outer ++ "." ++ inner) values with
  | some value => rfl
  | none =>
      rw [Option.none_or, descend, Json.get?]
      cases Members.find? outer values with
      | none => rfl
      | some value =>
          rw [Option.bind_some, Option.bind_some, descend]
          cases Json.get? inner value <;> rfl

theorem lookup_whole (values : Snapshot) (name : String) (whole : '.' ∉ name.toList) :
    values.lookup name = Members.find? name values := by
  rw [lookup, segments_whole name whole]
  cases found : Members.find? name values with
  | some value => rfl
  | none => simp [descend, Json.get?, found]

end Snapshot

end ConditionalForm
