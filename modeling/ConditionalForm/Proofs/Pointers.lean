import ConditionalForm.Json.Pointer
import ConditionalForm.Proofs.Batches
import ConditionalForm.Proofs.WellFormed
import ConditionalForm.Text.Split

set_option autoImplicit false

namespace ConditionalForm.Pointer

def unescape? : List Char → Option (List Char)
  | [] => some []
  | '~' :: '0' :: rest => (unescape? rest).map ('~' :: ·)
  | '~' :: '1' :: rest => (unescape? rest).map ('/' :: ·)
  | '~' :: _ => none
  | c :: rest => (unescape? rest).map (c :: ·)

def read? (text : String) : Option Pointer :=
  match Text.parts '/' text.toList with
  | [] :: segments => segments.mapM fun segment => (unescape? segment).map String.ofList
  | _ => none

def item? (segment : String) (items : List Json) : Option Json :=
  (items.zipIdx.find? fun item => toString item.2 == segment).map Prod.fst

def step? (segment : String) : Json → Option Json
  | .object members => Members.find? segment members
  | .array items => item? segment items
  | _ => none

def follow : Pointer → Json → Option Json
  | [], value => some value
  | segment :: rest, value => (step? segment value).bind (follow rest)

def escape (segment : String) : List Char := segment.toList.flatMap escapeChar

theorem unescape_plain (c : Char) (rest : List Char) (plain : c ≠ '~') :
    unescape? (c :: rest) = (unescape? rest).map (c :: ·) := by
  rw [unescape?] <;> simp [plain]

theorem unescape_escaped (text : List Char) :
    unescape? (text.flatMap escapeChar) = some text := by
  induction text with
  | nil => rfl
  | cons c text ih =>
      by_cases tilde : c = '~'
      · subst tilde
        simp [escapeChar, unescape?, ih]
      · by_cases slash : c = '/'
        · subst slash
          simp [escapeChar, unescape?, ih]
        · have plain : escapeChar c = [c] := by simp [escapeChar]
          rw [List.flatMap_cons, plain, List.singleton_append, unescape_plain c _ tilde, ih]
          rfl

theorem escape_without_slash (segment : String) : '/' ∉ escape segment := by
  intro slash
  obtain ⟨c, _, escaped⟩ := List.mem_flatMap.mp slash
  unfold escapeChar at escaped
  split at escaped
  · simp at escaped
  · simp at escaped
  · rename_i other
    exact other (List.mem_singleton.mp escaped).symm

theorem render_cons (segment : String) (rest : Pointer) :
    (render (segment :: rest)).toList = '/' :: (escape segment ++ (render rest).toList) := by
  simp [render, escape, String.join_cons]

theorem escaped_parts (segment : String) (rest : Pointer) :
    Text.parts '/' (escape segment ++ (render rest).toList) = (segment :: rest).map escape := by
  induction rest generalizing segment with
  | nil =>
      have last : (render []).toList = [] := rfl
      rw [last, List.append_nil, Text.parts_whole _ _ (escape_without_slash segment)]
      rfl
  | cons next rest ih =>
      rw [render_cons, Text.parts_append _ _ _ (escape_without_slash segment), ih next]
      rfl

theorem render_parts (pointer : Pointer) :
    Text.parts '/' (render pointer).toList = [] :: pointer.map escape := by
  cases pointer with
  | nil => rfl
  | cons segment rest => rw [render_cons, Text.parts, if_pos rfl, escaped_parts]

theorem read_render (pointer : Pointer) : read? (render pointer) = some pointer := by
  rw [read?, render_parts]
  induction pointer with
  | nil => rfl
  | cons segment rest ih =>
      simp only [List.map_cons, List.mapM_cons, escape, unescape_escaped, Option.map_some,
        String.ofList_toList] at ih ⊢
      simp [ih]

theorem item_from (items : List Json) (start position : Nat) :
    ((items.zipIdx start).find? fun item => toString item.2 == toString (start + position)).map
      Prod.fst = items[position]? := by
  induction items generalizing start position with
  | nil => rfl
  | cons item items ih =>
      cases position with
      | zero => simp
      | succ position =>
          have other : (toString start == toString (start + (position + 1))) = false := by
            refine beq_eq_false_iff_ne.mpr fun same => ?_
            have equal := Document.number_injective _ _ same
            omega
          rw [List.zipIdx_cons, List.find?_cons_of_neg, List.getElem?_cons_succ,
            ← ih (start + 1) position, Nat.add_assoc, Nat.add_comm 1 position]
          exact ne_true_of_eq_false other

theorem follow_member (name : String) (members : Members) :
    follow [name] (.object members) = Members.find? name members := by
  rw [follow, step?]
  cases Members.find? name members <;> rfl

theorem follow_item (items : List Json) (position : Nat) :
    follow [toString position] (.array items) = items[position]? := by
  have found := item_from items 0 position
  rw [Nat.zero_add] at found
  rw [follow, step?, item?, found]
  cases items[position]? <;> rfl

theorem follow_append (outer inner : Pointer) (value : Json) :
    follow (outer ++ inner) value = (follow outer value).bind (follow inner) := by
  induction outer generalizing value with
  | nil => rfl
  | cons segment outer ih =>
      rw [List.cons_append, follow, follow, Option.bind_assoc]
      congr 1
      funext inside
      exact ih inside

theorem well_formed_step (segment : String) (value inner : Json) (wellFormed : value.WellFormed)
    (found : step? segment value = some inner) : inner.WellFormed := by
  cases value with
  | object members =>
      have member := Members.mem_of_find segment members inner found
      exact (Json.well_formed_members_iff members).mp wellFormed.2 _ member
  | array items =>
      obtain ⟨item, atPlace, rfl⟩ := Option.map_eq_some_iff.mp found
      have member := List.fst_mem_of_mem_zipIdx (List.mem_of_find?_eq_some atPlace)
      exact (Json.well_formed_items_iff items).mp wellFormed _ member
  | _ => cases found

theorem well_formed_follow (pointer : Pointer) (value inner : Json) (wellFormed : value.WellFormed)
    (found : follow pointer value = some inner) : inner.WellFormed := by
  induction pointer generalizing value with
  | nil =>
      cases found
      exact wellFormed
  | cons segment rest ih =>
      obtain ⟨next, first, later⟩ := Option.bind_eq_some_iff.mp found
      exact ih next (well_formed_step segment value next wellFormed first) later

theorem follow_of_get (name : String) (value inner : Json) (found : value.get? name = some inner) :
    follow [name] value = some inner := by
  cases value with
  | object members => exact (follow_member name members).trans found
  | _ => cases found

theorem follow_get (pointer : Pointer) (document : Json) (members : Members) (name : String)
    (found : follow pointer document = some (.object members)) :
    follow (pointer ++ [name]) document = Members.find? name members := by
  rw [follow_append, found, Option.bind_some, follow_member]

theorem follow_position (pointer : Pointer) (document : Json) (items : List Json) (position : Nat)
    (found : follow pointer document = some (.array items)) :
    follow (pointer ++ [toString position]) document = items[position]? := by
  rw [follow_append, found, Option.bind_some, follow_item]

end ConditionalForm.Pointer
