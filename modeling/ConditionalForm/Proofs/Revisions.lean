import ConditionalForm.Proofs.PayloadEntries
import ConditionalForm.Proofs.Wrappers

set_option autoImplicit false

namespace ConditionalForm

def Members.alter (name : String) (change : Json → Json) (members : Members) : Members :=
  members.map fun member => (member.1, if member.1 = name then change member.2 else member.2)

theorem Members.find_alter (changed : String) (change : Json → Json) (members : Members) (name : String) :
    Members.find? name (members.alter changed change) =
      if name = changed then (Members.find? name members).map change else Members.find? name members := by
  rw [Members.alter]
  induction members with
  | nil => simp [Members.find?]
  | cons member members ih =>
      by_cases first : name = member.1
      · subst first
        by_cases same : member.1 = changed <;> simp [Members.find?, same]
      · simp only [List.map_cons, Members.find?, if_neg first, ih]

theorem Members.contains_alter (changed : String) (change : Json → Json) (members : Members) (name : String) :
    Members.contains name (members.alter changed change) = Members.contains name members := by
  rw [Members.contains, Members.contains, Members.find_alter]
  by_cases same : name = changed <;> simp [same]

theorem Members.alter_absent (name : String) (change : Json → Json) (members : Members)
    (absent : Members.contains name members = false) : members.alter name change = members := by
  refine (List.map_congr_left fun member held => ?_).trans (List.map_id members)
  have other : member.1 ≠ name := by
    rintro rfl
    have present := (Members.contains_iff member.1 members).mpr (List.mem_map_of_mem held)
    cases absent.symm.trans present
  rw [if_neg other]
  rfl

namespace Json

def revise (change : Json → Json) : Pointer → Json → Json
  | [], value => change value
  | segment :: rest, .object members => .object (Members.alter segment (revise change rest) members)
  | _ :: _, value => value

variable (change : Json → Json)

theorem get_revised (segment : String) (rest : Pointer) (value : Json) (name : String) :
    (value.revise change (segment :: rest)).get? name =
      if name = segment then (value.get? name).map (revise change rest) else value.get? name := by
  cases value with
  | object members => exact Members.find_alter segment _ members name
  | _ => simp [revise, get?]

theorem get_beside (segment : String) (rest : Pointer) (value : Json) (name : String)
    (beside : name ≠ segment) : (value.revise change (segment :: rest)).get? name = value.get? name := by
  rw [get_revised, if_neg beside]

theorem text_revised (segment : String) (rest : Pointer) (value : Json) :
    (value.revise change (segment :: rest)).text? = value.text? := by
  cases value <;> rfl

theorem get_text_revised (outer segment : String) (rest : Pointer) (value : Json) (name : String) :
    ((value.revise change (outer :: segment :: rest)).get? name).bind text? =
      (value.get? name).bind text? := by
  rw [get_revised]
  split
  · cases value.get? name with
    | none => rfl
    | some inner => exact text_revised change segment rest inner
  · rfl

end Json

namespace Document

variable (change : Json → Json)

theorem schema_key_altered (name : String) (members : Members) :
    hasSchemaKey (members.alter name change) = hasSchemaKey members := by
  simp only [hasSchemaKey, Members.contains_alter]

theorem is_schema_revised (segment : String) (rest : Pointer) (value : Json) :
    isSchema (value.revise change (segment :: rest)) = isSchema value := by
  cases value with
  | object members => exact schema_key_altered _ segment members
  | _ => rfl

theorem layer_revised_inside (document : Json) (layer : Layer) (inner : Json) (segment : String)
    (rest : Pointer) (found : layer? document = some (layer, inner)) :
    layer? (document.revise change (layer.pointer ++ segment :: rest)) =
      some (layer, inner.revise change (segment :: rest)) := by
  unfold layer? at found
  split at found
  · rename_i members
    split at found
    · split at found
      · rename_i key inside properties
        obtain ⟨fits, made⟩ := Option.ite_none_right_eq_some.mp found
        cases made
        obtain ⟨argument, known⟩ := Bool.and_eq_true_iff.mp fits
        have sole : (Json.object [(key, inner)]).revise change (key :: segment :: rest) =
            .object [(key, inner.revise change (segment :: rest))] := by
          simp [Json.revise, Members.alter]
        refine layer_argument key _ _ ?_ argument (is_schema_revised change segment rest inner ▸ known)
        rw [Members.find_alter, if_pos rfl, properties, Option.map_some]
        exact congrArg some sole
      · cases found
    · rename_i foreign
      split at found
      · rename_i key inside
        cases found
        have bare : hasSchemaKey
            (Members.alter key (Json.revise change (segment :: rest)) [(key, .object inside)]) = false := by
          rw [schema_key_altered]
          simpa using foreign
        simp only [Layer.pointer, List.singleton_append, Json.revise, layer?, bare]
        simp [Members.alter, Json.revise]
      · cases found
  · cases found

theorem layer_revised_beside (document : Json) (keyword : String) (known : keyword ∈ schemaKeys)
    (beside : keyword ≠ "properties") : layer? (document.revise change [keyword]) = layer? document := by
  cases document with
  | object members =>
      have same := schema_key_altered (Json.revise change []) keyword members
      have properties := Members.find_alter keyword (Json.revise change []) members "properties"
      rw [if_neg beside.symm] at properties
      cases schema : hasSchemaKey members with
      | true =>
          rw [schema] at same
          rw [Json.revise]
          unfold layer?
          dsimp only
          rw [if_pos same, if_pos schema, properties]
      | false =>
          have absent : Members.contains keyword members = false := by
            simpa using List.any_eq_false.mp schema keyword known
          rw [Json.revise, Members.alter_absent _ _ _ absent]
  | _ => rfl

theorem layer_revised_within (document : Json) (layer : Layer) (inner : Json) (u : Unwrapped)
    (keyword : String) (found : layer? document = some (layer, inner)) :
    layer? (document.revise change ((u.within layer).pointer ++ [keyword])) =
      some (layer, inner.revise change (u.pointer ++ [keyword])) := by
  obtain ⟨segment, rest, split⟩ := List.exists_cons_of_ne_nil
    (List.append_ne_nil_of_right_ne_nil u.pointer (List.cons_ne_nil keyword []))
  have outer : (u.within layer).pointer ++ [keyword] = layer.pointer ++ segment :: rest := by
    rw [← split, ← List.append_assoc]
    rfl
  rw [outer, split]
  exact layer_revised_inside change document layer inner segment rest found

theorem unwrap_revised (keyword : String) (known : keyword ∈ schemaKeys) (beside : keyword ≠ "properties")
    (most named argument : Nat) (document : Json) :
    let u := unwrapWithin most named argument document
    unwrapWithin most named argument (document.revise change (u.pointer ++ [keyword])) =
      ⟨u.layers, u.schema.revise change [keyword]⟩ := by
  induction most generalizing named argument document with
  | zero => rfl
  | succ most ih =>
      have bare := layer_revised_beside change document keyword known beside
      cases found : layer? document with
      | none =>
          rw [unwrap_bare _ _ _ document found]
          exact unwrap_bare _ _ _ _ (bare.trans found)
      | some taken =>
          obtain ⟨layer, inner⟩ := taken
          have inside (u : Unwrapped) := layer_revised_within change document layer inner u keyword found
          cases layer with
          | named key =>
              cases named with
              | zero => simp [unwrapWithin, found, bare, Unwrapped.pointer]
              | succ more =>
                  simp only [unwrapWithin, found, inside, ih]
                  rfl
          | argument key =>
              cases argument with
              | zero => simp [unwrapWithin, found, bare, Unwrapped.pointer]
              | succ more =>
                  simp only [unwrapWithin, found, inside, ih]
                  rfl

end Document

end ConditionalForm
