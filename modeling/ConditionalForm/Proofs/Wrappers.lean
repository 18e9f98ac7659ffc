import ConditionalForm.Document.Compile
import ConditionalForm.Payload
import ConditionalForm.Proofs.WellFormed

set_option autoImplicit false

namespace ConditionalForm.Document

def under (names : List String) (inner : Json) : Json :=
  names.foldr (fun name value => .object [(name, value)]) inner

theorem under_object (names : List String) (members : Members) :
    ∃ outer, under names (.object members) = .object outer := by
  cases names with
  | nil => exact ⟨members, rfl⟩
  | cons name names => exact ⟨_, rfl⟩

theorem descend_under (names : List String) (inner : Json) :
    Snapshot.descend names (under names inner) = some inner := by
  induction names with
  | nil => rfl
  | cons name names ih =>
      have held : (under (name :: names) inner).get? name = some (under names inner) := if_pos rfl
      rw [Snapshot.descend, held, Option.bind_some, ih]

theorem schema_object (value : Json) (known : isSchema value = true) : ∃ members, value = .object members := by
  cases value with
  | object members => exact ⟨members, rfl⟩
  | _ => cases known

theorem layer_named (name : String) (members : Members) (free : name ∉ schemaKeys) :
    layer? (.object [(name, .object members)]) = some (.named name, .object members) := by
  have other : hasSchemaKey [(name, .object members)] = false := by
    rw [hasSchemaKey, List.any_eq_false]
    intro key known held
    have same : key ≠ name := fun same => free (same ▸ known)
    simp [Members.contains, Members.find?, same] at held
  rw [layer?, if_neg (Bool.eq_false_iff.mp other)]

theorem layer_argument (name : String) (members : Members) (schema : Json)
    (sole : Members.find? "properties" members = some (.object [(name, schema)]))
    (argument : isArgumentName name = true) (known : isSchema schema = true) :
    layer? (.object members) = some (.argument name, schema) := by
  have wrapper : hasSchemaKey members = true :=
    List.any_eq_true.mpr ⟨"properties", List.mem_cons_self, by rw [Members.contains, sole]; rfl⟩
  unfold layer?
  dsimp only
  rw [if_pos wrapper, sole]
  simp [argument, known]

section Unwrap

variable (most named argument : Nat)

theorem unwrap_bare (schema : Json) (bare : layer? schema = none) :
    unwrapWithin most named argument schema = ⟨[], schema⟩ := by
  cases most with
  | zero => rfl
  | succ most => simp [unwrapWithin, bare]

theorem unwrap_under (names : List String) (members : Members)
    (free : ∀ name ∈ names, name ∉ schemaKeys) :
    unwrapWithin (most + names.length) (named + names.length) argument (under names (.object members)) =
      ⟨names.map .named ++ (unwrapWithin most named argument (.object members)).layers,
        (unwrapWithin most named argument (.object members)).schema⟩ := by
  induction names with
  | nil => rfl
  | cons name names ih =>
      obtain ⟨outer, made⟩ := under_object names members
      have layer : layer? (under (name :: names) (.object members)) =
          some (.named name, under names (.object members)) := by
        rw [made]
        exact (congrArg (fun value => layer? (.object [(name, value)])) made).trans
          (layer_named name outer (free name List.mem_cons_self))
      have inner := ih fun other member => free other (List.mem_cons_of_mem _ member)
      rw [List.length_cons, ← Nat.add_assoc, ← Nat.add_assoc]
      simp only [unwrapWithin, layer, inner, Unwrapped.within, List.map_cons, List.cons_append]

theorem arguments_bounded (document : Json) :
    (unwrapWithin most named argument document).arguments.length ≤ argument := by
  induction most generalizing named argument document with
  | zero => exact Nat.zero_le _
  | succ most ih =>
      unfold unwrapWithin
      split
      · exact ih _ _ _
      · exact Nat.succ_le_succ (ih _ _ _)
      · exact Nat.zero_le _

theorem layer_inner (document : Json) (layer : Layer) (inner : Json)
    (found : layer? document = some (layer, inner)) : ∃ members, inner = .object members := by
  unfold layer? at found
  split at found
  · split at found
    · split at found
      · obtain ⟨fits, made⟩ := Option.ite_none_right_eq_some.mp found
        cases made
        exact schema_object inner (Bool.and_eq_true_iff.mp fits).2
      · cases found
    · split at found
      · cases found
        exact ⟨_, rfl⟩
      · cases found
  · cases found

theorem unwrapped_object (document : Json) (outside : ∃ members, document = .object members) :
    ∃ members, (unwrapWithin most named argument document).schema = .object members := by
  induction most generalizing named argument document with
  | zero => exact outside
  | succ most ih =>
      unfold unwrapWithin
      split
      · rename_i found
        exact ih _ _ _ (layer_inner document _ _ found)
      · rename_i found
        exact ih _ _ _ (layer_inner document _ _ found)
      · exact outside

end Unwrap

theorem form_argument_key (options : Options) (document : Json) :
    (Form.ofDocument options document).argumentKey = (unwrap document).argumentKey := by
  cases document with
  | object members =>
      obtain ⟨inner, made⟩ := unwrapped_object 4 2 2 (.object members) ⟨members, rfl⟩
      dsimp only [Form.ofDocument]
      rw [unwrap, made]
  | _ => rfl

inductive InArgument (schema : Json) : Option String → Json → Prop
  | bare : InArgument schema none schema
  | wrapped (name : String) (members : Members)
      (sole : Members.find? "properties" members = some (.object [(name, schema)]))
      (argument : isArgumentName name = true) : InArgument schema (some name) (.object members)

theorem wrapped_unwraps (schema value : Json) (argument : Option String) (names : List String)
    (known : isSchema schema = true) (bare : layer? schema = none) (inside : InArgument schema argument value)
    (few : names.length ≤ 2) (free : ∀ name ∈ names, name ∉ schemaKeys) :
    unwrap (under names value) = ⟨names.map .named ++ argument.toList.map .argument, schema⟩ := by
  have counts : 4 = (4 - names.length) + names.length ∧ 2 = (2 - names.length) + names.length :=
    ⟨by omega, by omega⟩
  have inner (most named : Nat) (deep : 0 < most) :
      unwrapWithin most named 2 value = ⟨argument.toList.map .argument, schema⟩ := by
    cases inside with
    | bare => exact unwrap_bare most named 2 schema bare
    | wrapped name members sole named =>
        obtain ⟨less, rfl⟩ := Nat.exists_eq_succ_of_ne_zero (Nat.ne_of_gt deep)
        have layer := layer_argument name members schema sole named known
        simp only [unwrapWithin, layer, unwrap_bare less _ 1 schema bare, Unwrapped.within]
        rfl
  obtain ⟨members, rfl⟩ : ∃ members, value = .object members := by
    cases inside with
    | bare => exact schema_object schema known
    | wrapped name members sole named => exact ⟨members, rfl⟩
  have peeled := unwrap_under (4 - names.length) (2 - names.length) 2 names members free
  rw [← counts.1, ← counts.2, inner _ _ (by omega)] at peeled
  exact peeled

theorem layers_names (names arguments : List String) (schema : Json) :
    let u : Unwrapped := ⟨names.map .named ++ arguments.map .argument, schema⟩
    u.names = names ∧ u.arguments = arguments := by
  constructor
  · simp [Unwrapped.names, List.filterMap_append, List.filterMap_map, Function.comp_def, Layer.named?]
  · simp [Unwrapped.arguments, List.filterMap_append, List.filterMap_map, Function.comp_def, Layer.argument?]

theorem wrapped_form (options : Options) (schema value : Json) (argument : Option String)
    (names : List String) (known : isSchema schema = true) (bare : layer? schema = none)
    (inside : InArgument schema argument value) (few : names.length ≤ 2)
    (free : ∀ name ∈ names, name ∉ schemaKeys) :
    let form := Form.ofDocument options (under names value)
    let plain := Form.ofDocument options schema
    form.fields = plain.fields ∧ form.discriminator = plain.discriminator ∧ form.argumentKey = argument ∧
      (∀ name, names.getLast? = some name → form.title = some name) ∧
      structuralKey options (under names value) = structuralKey options schema := by
  have wrapped := wrapped_unwraps schema value argument names known bare inside few free
  have alone : unwrap schema = ⟨[], schema⟩ := unwrap_bare 4 2 2 schema bare
  obtain ⟨members, rfl⟩ := schema_object schema known
  dsimp only [Form.ofDocument]
  rw [structuralKey, structuralKey, wrapped, alone]
  refine ⟨rfl, rfl, ?_, fun name last => ?_, rfl⟩
  · rw [Unwrapped.argumentKey, (layers_names names argument.toList _).2]
    cases argument <;> rfl
  · rw [title, Unwrapped.rootKey, (layers_names names argument.toList _).1, last, Option.some_or]

def nodeSchema : Json := .object
  [("properties", .object [("TYPE", .object [("type", .text "string")])]), ("required", .array [.text "TYPE"])]

def nodeArgument : Members :=
  [("title", .text "Node"), ("properties", .object [("Argument", nodeSchema)])]

theorem named_node_compiled :
    let form := Form.ofDocument {} (under ["PLANT", "NODE"] (.object nodeArgument))
    form.fields = (Form.ofDocument {} nodeSchema).fields ∧ form.discriminator = some "TYPE" ∧
      form.argumentKey = some "Argument" ∧ form.title = some "NODE" := by
  have inside : InArgument nodeSchema (some "Argument") (.object nodeArgument) :=
    .wrapped "Argument" nodeArgument rfl (by decide)
  have same := wrapped_form {} nodeSchema _ _ ["PLANT", "NODE"] (by decide) (by decide) inside (by decide)
    (by decide)
  exact ⟨same.1, same.2.1.trans (by decide), same.2.2.1, same.2.2.2.1 "NODE" rfl⟩

theorem contained_smaller (name : String) (value inner : Json) (found : value.get? name = some inner) :
    sizeOf inner < sizeOf value := by
  cases value with
  | object members =>
      have member := List.sizeOf_lt_of_mem (Members.mem_of_find name members inner found)
      simp only [Prod.mk.sizeOf_spec] at member
      simp only [Json.object.sizeOf_spec]
      omega
  | _ => cases found

theorem argument_restored_iff (options : Options) (document body : Json) :
    let chain := (unwrap document).arguments
    let wrapped := (Form.ofDocument options document).wrapArgument body
    wrapped = under chain.getLast?.toList body ∧ chain.length ≤ 2 ∧
      (wrapped = under chain body ↔ chain.length ≤ 1) ∧
      (Snapshot.descend chain wrapped = some body ↔ chain.length ≤ 1) := by
  intro chain wrapped
  have innermost : wrapped = under chain.getLast?.toList body := by
    dsimp only [wrapped]
    rw [Form.wrapArgument, form_argument_key, Unwrapped.argumentKey]
    cases (unwrap document).arguments.getLast? <;> rfl
  have few : chain.length ≤ 2 := arguments_bounded 4 2 2 document
  have restored (one : wrapped = under chain body) : Snapshot.descend chain wrapped = some body :=
    one ▸ descend_under chain body
  have short (one : chain.length ≤ 1) : wrapped = under chain body := by
    rw [innermost]
    match chain, one with
    | [], _ => rfl
    | [name], _ => rfl
  have long (read : Snapshot.descend chain wrapped = some body) : chain.length ≤ 1 := by
    rw [innermost] at read
    match chain, few, read with
    | [], _, _ => exact Nat.zero_le 1
    | [name], _, _ => exact Nat.le_refl 1
    | [outer, inner], _, read =>
        obtain ⟨once, first, rest⟩ := Option.bind_eq_some_iff.mp read
        obtain ⟨twice, second, last⟩ := Option.bind_eq_some_iff.mp rest
        cases (Option.ite_none_right_eq_some.mp first).2
        cases (show some twice = some body from last)
        exact absurd (contained_smaller inner body body second) (Nat.lt_irrefl _)
  exact ⟨innermost, few, ⟨fun one => long (restored one), short⟩, ⟨long, fun one => restored (short one)⟩⟩

def twiceWrapped : Json := .object
  [("properties", .object [("Argument", .object
      [("properties", .object [("argument", .object
          [("properties", .object [("A", .object [("type", .text "string")])])])])])]),
    ("required", .array [.text "Argument"])]

theorem outer_argument_lost :
    (unwrap twiceWrapped).arguments = ["Argument", "argument"] ∧
      (Form.ofDocument {} twiceWrapped).wrapArgument (.object [("A", .text "x")]) =
        .object [("argument", .object [("A", .text "x")])] ∧
      (Form.ofDocument {} twiceWrapped).wrapArgument (.object [("A", .text "x")]) ≠
        under (unwrap twiceWrapped).arguments (.object [("A", .text "x")]) := by
  have chain : (unwrap twiceWrapped).arguments = ["Argument", "argument"] := by decide
  refine ⟨chain, rfl, fun same => ?_⟩
  rw [chain] at same
  have outer := congrArg (fun wrapped => (wrapped.get? "Argument").isSome) same
  exact absurd outer (by decide)

end ConditionalForm.Document
