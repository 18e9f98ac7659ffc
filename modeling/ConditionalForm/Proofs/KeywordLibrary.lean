import ConditionalForm.Proofs.SchemaKeywords
import ConditionalForm.Schema.Check

set_option autoImplicit false

namespace ConditionalForm.Constraint

open Json

def ofKeyword? (consequence : Option Constraint) (keyword : String) (value : Json) : Option (List Constraint) :=
  match keyword with
  | "items" => (ofSchema? value).map fun each => [.items each]
  | "allOf" => (ofList? value).map fun constraints => [.all constraints]
  | "properties" => ofProperties? value
  | "if" => (ofSchema? value).map (conditional consequence)
  | keyword => (simple? keyword value).map fun rules => rules.map .keeps

theorem of_keywords_cons (consequence : Option Constraint) (keyword : String) (value : Json)
    (members : List (String × Json)) : ofKeywords? consequence ((keyword, value) :: members) =
      (ofKeyword? consequence keyword value).bind fun first =>
        (ofKeywords? consequence members).map (first ++ ·) := by
  have joined (own : Option (List Constraint)) :
      (own.bind fun first => (ofKeywords? consequence members).bind fun others => some (first ++ others)) =
        own.bind fun first => (ofKeywords? consequence members).map (first ++ ·) := by
    cases ofKeywords? consequence members <;> rfl
  unfold ofKeyword?
  split
  · rw [ofKeywords?]
    exact joined _
  · rw [ofKeywords?]
    exact joined _
  · rw [ofKeywords?]
    exact joined _
  · rw [ofKeywords?]
    exact joined _
  · rw [ofKeywords?]
    · exact joined _
    all_goals assumption

theorem unknown_keyword (consequence : Option Constraint) (keyword : String) (value : Json)
    (unknown : keywordKind? keyword = none) : ofKeyword? consequence keyword value = some [] := by
  have silent : simple? keyword value = some [] := by
    unfold simple?
    split
    case h_9 => rfl
    all_goals cases unknown
  unfold ofKeyword?
  split
  case h_5 =>
    rw [silent]
    rfl
  all_goals cases unknown

theorem texts_flat (items : List Json) (texts : List String) (read : items.mapM text? = some texts) :
    items.all isScalar = true := by
  induction items generalizing texts with
  | nil => rfl
  | cons item items ih =>
      rw [List.mapM_cons] at read
      obtain ⟨first, readFirst, read⟩ := Option.bind_eq_some_iff.mp read
      obtain ⟨others, readOthers, _⟩ := Option.bind_eq_some_iff.mp read
      cases item with
      | text s => exact ih others readOthers
      | _ => cases readFirst

theorem distinct_texts_flat (items : List Json) (nested : items.all isScalar = false) :
    distinctTexts? items = none := by
  rw [distinctTexts?]
  cases read : items.mapM text? with
  | none => rfl
  | some texts =>
      rw [texts_flat items texts read] at nested
      cases nested

theorem nested_types (value : Json) (nested : value.isFlat = false) : types? value = none := by
  cases value with
  | object members => rfl
  | array names =>
      cases names with
      | nil => rfl
      | cons name names =>
          unfold types?
          dsimp only
          rw [distinct_texts_flat (name :: names) nested]
          rfl
  | _ => cases nested

theorem nested_number (value : Json) (nested : value.isFlat = false) : value.number? = none := by
  cases value with
  | number n => cases nested
  | _ => rfl

theorem nested_count (value : Json) (nested : value.isFlat = false) : count? value = none := by
  cases value with
  | number n => cases nested
  | _ => rfl

theorem nested_names (value : Json) (nested : value.isFlat = false) :
    value.items?.bind distinctTexts? = none := by
  cases value with
  | array items => exact distinct_texts_flat items nested
  | _ => rfl

theorem nested_plain (consequence : Option Constraint) (keyword : String) (value : Json)
    (plain : keywordKind? keyword = some .plain) (nested : value.isFlat = false) :
    ofKeyword? consequence keyword value = none := by
  unfold keywordKind? at plain
  split at plain
  case h_8 => simp [ofKeyword?, simple?, nested_types value nested]
  case h_9 => simp [ofKeyword?, simple?, nested_number value nested]
  case h_10 => simp [ofKeyword?, simple?, nested_number value nested]
  case h_11 => simp [ofKeyword?, simple?, nested_count value nested]
  case h_12 => simp [ofKeyword?, simple?, nested_count value nested]
  case h_13 => simp [ofKeyword?, simple?, nested_names value nested]
  all_goals cases plain

theorem read_through {α : Type} {read : Json → Option α} {known : Json → Option Json} {value : Json}
    (through : read value = (known value).bind read) :
    (∀ part, known value = some part → read value = read part) ∧ (known value = none → read value = none) := by
  constructor
  · intro part found
    rw [through, found, Option.bind_some]
  · intro malformed
    rw [through, malformed, Option.bind_none]

theorem plain_known (kind : KeywordKind) (value part : Json) (held : kind = .data ∨ kind = .plain)
    (found : knownValue? kind value = some part) : part = value := by
  rcases held with rfl | rfl
  · exact (Option.some.inj found).symm
  · rw [knownValue?] at found
    split at found
    · exact (Option.some.inj found).symm
    · cases found

-- The consequence of a conditional is read by itself, so that a malformed one shows there.
theorem value_known (key : String) (kind : KeywordKind) (value : Json) (known : keywordKind? key = some kind)
    (schema : ofSchema? value = value.knownPart?.bind ofSchema?) (list : ofList? value = value.knownList?.bind ofList?)
    (properties : ofProperties? value = value.knownProperties?.bind ofProperties?) :
    (∀ part, knownValue? kind value = some part → (key = "then" → ofSchema? value = ofSchema? part) ∧
      ∀ consequence, ofKeyword? consequence key value = ofKeyword? consequence key part) ∧
    (knownValue? kind value = none → (key = "then" ∧ ofSchema? value = none) ∨
      ∀ consequence, ofKeyword? consequence key value = none) := by
  obtain ⟨sameSchema, noSchema⟩ := read_through schema
  obtain ⟨sameList, noList⟩ := read_through list
  obtain ⟨sameProperties, noProperties⟩ := read_through properties
  cases kind with
  | schema =>
      refine ⟨fun part found => ⟨fun _ => sameSchema part found, ?_⟩, fun malformed => ?_⟩
      · unfold keywordKind? at known
        split at known <;> cases known
        · exact fun _ => congrArg (Option.map _) (sameSchema part found)
        · exact fun _ => congrArg (Option.map _) (sameSchema part found)
        · exact fun _ => rfl
      · unfold keywordKind? at known
        split at known <;> cases known
        · exact .inr fun _ => congrArg (Option.map _) (noSchema malformed)
        · exact .inr fun _ => congrArg (Option.map _) (noSchema malformed)
        · exact .inl ⟨rfl, noSchema malformed⟩
  | schemas =>
      unfold keywordKind? at known
      split at known <;> cases known
      exact ⟨fun part found => ⟨nofun, fun _ => congrArg (Option.map _) (sameList part found)⟩,
        fun malformed => .inr fun _ => congrArg (Option.map _) (noList malformed)⟩
  | properties =>
      unfold keywordKind? at known
      split at known <;> cases known
      exact ⟨fun part found => ⟨nofun, fun _ => sameProperties part found⟩,
        fun malformed => .inr fun _ => noProperties malformed⟩
  | data =>
      refine ⟨fun part found => ?_, nofun⟩
      rw [plain_known _ _ _ (.inl rfl) found]
      exact ⟨fun _ => rfl, fun _ => rfl⟩
  | plain =>
      refine ⟨fun part found => ?_, fun malformed => .inr fun consequence => ?_⟩
      · rw [plain_known _ _ _ (.inr rfl) found]
        exact ⟨fun _ => rfl, fun _ => rfl⟩
      · refine nested_plain consequence key value known ?_
        rw [knownValue?] at malformed
        split at malformed
        · cases malformed
        · rename_i nested
          exact Bool.eq_false_iff.mpr nested

def ReadAlike (members : List (String × Json)) : Option (List (String × Json)) → Prop
  | some part => ofMember? "then" members = ofMember? "then" part ∧
      ∀ consequence, ofKeywords? consequence members = ofKeywords? consequence part
  | none => ofMember? "then" members = none ∨ ∀ consequence, ofKeywords? consequence members = none

theorem unknown_alike (key : String) (value : Json) (members : List (String × Json)) (known : keywordKind? key = none)
    (part : Option (List (String × Json))) (rest : ReadAlike members part) :
    ReadAlike ((key, value) :: members) part := by
  have other : key ≠ "then" := by
    rintro rfl
    cases known
  have member : ofMember? "then" ((key, value) :: members) = ofMember? "then" members := by
    rw [ofMember?, if_neg other]
  have keywords (consequence : Option Constraint) :
      ofKeywords? consequence ((key, value) :: members) = ofKeywords? consequence members := by
    rw [of_keywords_cons, unknown_keyword consequence key value known]
    cases ofKeywords? consequence members <;> rfl
  cases part with
  | none =>
      exact rest.imp (fun malformed => member.trans malformed) fun malformed consequence =>
        (keywords consequence).trans (malformed consequence)
  | some part => exact ⟨member.trans rest.1, fun consequence => (keywords consequence).trans (rest.2 consequence)⟩

theorem known_alike (key : String) (value : Json) (members : List (String × Json)) (own : Option Json)
    (rest : Option (List (String × Json))) (alike : ReadAlike members rest)
    (same : ∀ part, own = some part → (key = "then" → ofSchema? value = ofSchema? part) ∧
      ∀ consequence, ofKeyword? consequence key value = ofKeyword? consequence key part)
    (malformed : own = none → (key = "then" ∧ ofSchema? value = none) ∨
      ∀ consequence, ofKeyword? consequence key value = none) :
    ReadAlike ((key, value) :: members) (own.bind fun part => rest.map ((key, part) :: ·)) := by
  cases own with
  | none =>
      rcases malformed rfl with ⟨rfl, unread⟩ | unread
      · left
        rw [ofMember?, if_pos rfl, unread]
        rfl
      · right
        intro consequence
        rw [of_keywords_cons, unread consequence]
        rfl
  | some part =>
      obtain ⟨asMember, asKeyword⟩ := same part rfl
      cases rest with
      | none =>
          rcases alike with unread | unread
          · left
            rw [ofMember?, unread]
            split
            · cases ofSchema? value <;> rfl
            · rfl
          · right
            intro consequence
            rw [of_keywords_cons, unread consequence]
            cases ofKeyword? consequence key value <;> rfl
      | some others =>
          constructor
          · rw [ofMember?, ofMember?, alike.1]
            split
            · rename_i consequence
              rw [asMember consequence]
            · rfl
          · intro consequence
            rw [of_keywords_cons, of_keywords_cons, asKeyword consequence, alike.2 consequence]

theorem object_known (members : List (String × Json)) (alike : ReadAlike members (knownMembers? members)) :
    ofSchema? (.object members) = (knownPart? (.object members)).bind ofSchema? := by
  rw [knownPart?, Option.bind_map]
  cases known : knownMembers? members with
  | none =>
      rw [known] at alike
      rw [ofSchema?]
      rcases alike with unread | unread
      · rw [unread]
        rfl
      · simp only [unread]
        cases ofMember? "then" members <;> rfl
  | some part =>
      rw [known] at alike
      rw [Option.bind_some, Function.comp_apply, ofSchema?, ofSchema?, alike.1]
      simp only [alike.2]

mutual
theorem schema_known (schema : Json) : ofSchema? schema = schema.knownPart?.bind ofSchema? := by
  cases schema with
  | object members => exact object_known members (members_known members)
  | _ => rfl

theorem members_known (members : List (String × Json)) : ReadAlike members (knownMembers? members) := by
  cases members with
  | nil => exact ⟨rfl, fun _ => rfl⟩
  | cons member members =>
      obtain ⟨key, value⟩ := member
      have rest := members_known members
      cases known : keywordKind? key with
      | none =>
          rw [known_members_unknown key value members known]
          exact unknown_alike key value members known _ rest
      | some kind =>
          obtain ⟨same, malformed⟩ := value_known key kind value known (schema_known value) (list_known value)
            (properties_known value)
          rw [known_members_cons key value members kind known]
          exact known_alike key value members _ _ rest same malformed

theorem list_known (value : Json) : ofList? value = value.knownList?.bind ofList? := by
  cases value with
  | array schemas =>
      cases schemas with
      | nil => rfl
      | cons schema schemas =>
          have read := schemas_known (schema :: schemas)
          rw [knownItems?] at read
          rw [knownList?, knownItems?, ofList?, read]
          cases schema.knownPart? with
          | none => rfl
          | some part => cases knownItems? schemas <;> rfl
  | _ => rfl

theorem schemas_known (schemas : List Json) : ofSchemas? schemas = (knownItems? schemas).bind ofSchemas? := by
  cases schemas with
  | nil => rfl
  | cons schema schemas =>
      rw [ofSchemas?, knownItems?, schema_known schema, schemas_known schemas]
      cases schema.knownPart? with
      | none => rfl
      | some part =>
          cases knownItems? schemas with
          | none =>
              rw [Option.bind_some]
              cases ofSchema? part <;> rfl
          | some others => rfl

theorem properties_known (value : Json) : ofProperties? value = value.knownProperties?.bind ofProperties? := by
  cases value with
  | object members =>
      rw [knownProperties?, Option.bind_map]
      exact named_known members
  | _ => rfl

theorem named_known (members : List (String × Json)) :
    ofNamed? members = (knownNamed? members).bind ofNamed? := by
  cases members with
  | nil => rfl
  | cons member members =>
      obtain ⟨name, schema⟩ := member
      rw [ofNamed?, knownNamed?, schema_known schema, named_known members]
      cases schema.knownPart? with
      | none => rfl
      | some part =>
          cases knownNamed? members with
          | none =>
              rw [Option.bind_some]
              cases ofSchema? part <;> rfl
          | some others => rfl
end

theorem library_conforms : library.Conforms where
  ignores_unknown := by
    intro schema part _ known
    rw [library]
    dsimp only
    rw [schema_known schema, known, Option.bind_some]
  rejects_malformed := by
    intro schema _ malformed
    rw [library]
    dsimp only
    rw [schema_known schema, malformed]
    rfl

end ConditionalForm.Constraint
