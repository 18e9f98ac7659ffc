import ConditionalForm.Proofs.BranchStates
import ConditionalForm.Proofs.WellFormed

set_option autoImplicit false

namespace ConditionalForm

namespace SortedSet

theorem mem_union (left right : SortedSet) (query : String) :
    query ∈ union left right ↔ query ∈ left ∨ query ∈ right := by
  induction right generalizing left with
  | nil => simp [union]
  | cons text rest ih =>
      have added : union left (text :: rest) = union (insert text left) rest := rfl
      rw [added, ih, mem_insert, List.mem_cons]
      constructor
      · rintro ((h | h) | h) <;> simp [h]
      · rintro (h | h | h) <;> simp [h]

theorem mem_of_list (texts : List String) (query : String) : query ∈ ofList texts ↔ query ∈ texts := by
  have united : ofList texts = union [] texts := rfl
  rw [united, mem_union]
  simp

end SortedSet

section Collection

variable (discriminator : String)

def collectRelevance (groups : SortedMap SortedSet) (field : Field) : SortedMap SortedSet :=
  match field.markers.specificGroup, field.markers.discriminatorValues discriminator with
  | some _, [] => groups
  | some group, first :: others =>
      groups.insert group (SortedSet.union ((groups.get? group).getD []) (first :: others))
  | none, _ => groups

theorem group_relevance_collected (fields : List Field) :
    groupRelevance fields discriminator = (Field.walkAll fields).foldl (collectRelevance discriminator) [] := by
  rfl

theorem mem_collect_relevance (groups : SortedMap SortedSet) (field : Field) (group key : String) :
    key ∈ ((collectRelevance discriminator groups field).get? group).getD [] ↔
      key ∈ (groups.get? group).getD [] ∨
        field.markers.specificGroup = some group ∧ key ∈ field.markers.discriminatorValues discriminator := by
  cases own : field.markers.specificGroup with
  | none => simp [collectRelevance, own]
  | some name =>
      cases values : field.markers.discriminatorValues discriminator with
      | nil => simp [collectRelevance, own, values]
      | cons first others =>
          simp only [collectRelevance, own, values]
          by_cases same : group = name
          · subst same
            rw [SortedMap.get_insert_self, Option.getD_some, SortedSet.mem_union]
            simp
          · have different : name ≠ group := Ne.symm same
            rw [SortedMap.get_insert_other _ _ _ _ same]
            simp [different]

theorem mem_collected (fields : List Field) (groups : SortedMap SortedSet) (group key : String) :
    key ∈ ((fields.foldl (collectRelevance discriminator) groups).get? group).getD [] ↔
      key ∈ (groups.get? group).getD [] ∨ ∃ field ∈ fields,
        field.markers.specificGroup = some group ∧ key ∈ field.markers.discriminatorValues discriminator := by
  induction fields generalizing groups with
  | nil => simp
  | cons field fields ih =>
      rw [List.foldl_cons, ih, mem_collect_relevance, or_assoc]
      simp

theorem mem_group_relevance (fields : List Field) (group key : String) :
    key ∈ ((groupRelevance fields discriminator).get? group).getD [] ↔ ∃ field ∈ Field.walkAll fields,
      field.markers.specificGroup = some group ∧ key ∈ field.markers.discriminatorValues discriminator := by
  rw [group_relevance_collected, mem_collected]
  simp [SortedMap.get?]

end Collection

def Markers.discriminatorClause? (markers : Markers) (discriminator : String) : Option Clause :=
  markers.requiredWhen.bind fun predicate => predicate.condition.clause? discriminator

-- Ways in which the markers of a field say for which values of the discriminator it is meant. Of the clauses on
-- the discriminator the first one counts. Texts are compared as they are; a number may be met by a text that is
-- another key.
inductive Markers.Refers (markers : Markers) (discriminator : String) (values : Snapshot) : Prop
  | relevance (map : Members) (marked : markers.relevance = some map)
  | choices (map : Members) (marked : markers.choices = some map)
  | bounds (map : Members) (marked : markers.bounds = some map) (inhabited : map ≠ [])
  | clause (predicate : Predicate) (before after : List Clause) (clause : Clause)
      (marked : markers.requiredWhen = some predicate)
      (clauses : predicate.condition.clauses = before ++ clause :: after) (on : clause.field = discriminator)
      (first : ∀ earlier ∈ before, earlier.field ≠ discriminator)
      (texts : ∀ value ∈ clause.expected.values, ∃ t, value = .text t) (s : String)
      (entered : values.lookup discriminator = some (.text s))

structure Evaluation.PassesOwnRules (e : Evaluation) (markers : Markers) : Prop where
  visibleWhen : e.meets markers.visibleWhen = true
  requiredWhen : e.meets markers.requiredWhen = true
  relevance : ∀ current, e.current = some current → Evaluation.relevant current markers.relevance = true
  choices : ∀ current, e.current = some current → Evaluation.hasChoices current markers.choices = true
  bounds : ∀ current, e.current = some current → Evaluation.hasBounds current markers.bounds = true

section Values

variable (markers : Markers) (discriminator current : String)

theorem mem_marked {α : Type} (marker : Option α) (keys : α → List String) (key : String) :
    key ∈ (marker.map keys).getD [] ↔ ∃ inner, marker = some inner ∧ key ∈ keys inner := by
  cases marker <;> simp

theorem mem_discriminator_values : current ∈ markers.discriminatorValues discriminator ↔
    (∃ map, markers.relevance = some map ∧ current ∈ Markers.relevantKeys map) ∨
    (∃ map, markers.choices = some map ∧ current ∈ map.keys) ∨
    (∃ map, markers.bounds = some map ∧ current ∈ map.keys) ∨
    ∃ clause, markers.discriminatorClause? discriminator = some clause ∧
      current ∈ clause.expected.values.map Json.key := by
  rw [Markers.discriminatorValues, SortedSet.mem_of_list, List.mem_append, List.mem_append, List.mem_append,
    mem_marked, mem_marked, mem_marked, mem_marked, or_assoc, or_assoc]
  rfl

theorem relevant_key (map : Members) (passed : Evaluation.relevant current (some map) = true) :
    current ∈ Markers.relevantKeys map := by
  cases found : Members.find? current map with
  | none => simp [Evaluation.relevant, found] at passed
  | some status =>
      refine List.mem_map.mpr ⟨(current, status), List.mem_filter.mpr ⟨?_, ?_⟩, rfl⟩
      · exact Members.mem_of_find current map status found
      · simpa [Evaluation.relevant, found] using passed

theorem contained_key (map : Members) (contained : map.contains current = true) : current ∈ map.keys := by
  obtain ⟨value, found⟩ := Option.isSome_iff_exists.mp contained
  exact List.mem_map_of_mem (Members.mem_of_find current map value found)

theorem accepted_text_key (expected : Expected) (s : String)
    (texts : ∀ value ∈ expected.values, ∃ t, value = .text t) (accepted : expected.accepts (.text s) = true) :
    s ∈ expected.values.map Json.key := by
  have unchanged (value : Json) (listed : value ∈ expected.values) : (Json.text s).coerce value = .text s := by
    obtain ⟨t, rfl⟩ := texts value listed
    rfl
  suffices listed : Json.text s ∈ expected.values from List.mem_map.mpr ⟨.text s, listed, rfl⟩
  rw [← one_of_texts s expected.values texts]
  cases expected with
  | one value =>
      rw [Expected.accepts, unchanged value List.mem_cons_self] at accepted
      simpa [Expected.values] using accepted
  | anyOf values =>
      cases values with
      | nil => cases accepted
      | cons first others =>
          rw [Expected.accepts, unchanged first List.mem_cons_self] at accepted
          exact accepted

end Values

section Rules

variable (fields : List Field) (discriminator : String) (values : Snapshot)

theorem clause_key (markers : Markers) (clause : Clause)
    (marked : markers.discriminatorClause? discriminator = some clause)
    (texts : ∀ value ∈ clause.expected.values, ∃ t, value = .text t) (s : String)
    (entered : values.lookup discriminator = some (.text s))
    (met : (Evaluation.start fields discriminator values).meets markers.requiredWhen = true) :
    s ∈ clause.expected.values.map Json.key := by
  obtain ⟨predicate, required, found⟩ := Option.bind_eq_some_iff.mp marked
  rw [required] at met
  have holds : predicate.condition.holds values = true := met
  have listed : clause ∈ predicate.condition.clauses := List.mem_of_find?_eq_some found
  have on : clause.field = discriminator := by simpa using List.find?_some found
  have own := List.all_eq_true.mp holds clause listed
  rw [Clause.holds, on, entered] at own
  exact accepted_text_key clause.expected s texts own

theorem first_clause (condition : Condition) (before after : List Clause) (clause : Clause)
    (clauses : condition.clauses = before ++ clause :: after) (on : clause.field = discriminator)
    (first : ∀ earlier ∈ before, earlier.field ≠ discriminator) :
    condition.clause? discriminator = some clause := by
  rw [Condition.clause?, List.find?_eq_some_iff_append]
  exact ⟨beq_iff_eq.mpr on, before, after, clauses, fun earlier member => by simpa using first earlier member⟩

theorem current_referred (markers : Markers) (refers : markers.Refers discriminator values)
    (passed : (Evaluation.start fields discriminator values).PassesOwnRules markers) (current : String)
    (now : (Evaluation.start fields discriminator values).current = some current) :
    current ∈ markers.discriminatorValues discriminator := by
  rw [mem_discriminator_values]
  cases refers with
  | relevance map marked =>
      exact .inl ⟨map, marked, relevant_key current map (marked ▸ passed.relevance current now)⟩
  | choices map marked =>
      have contained : Evaluation.hasChoices current (some map) = true := marked ▸ passed.choices current now
      exact .inr (.inl ⟨map, marked, contained_key current map contained⟩)
  | bounds map marked inhabited =>
      have contained : Evaluation.hasBounds current (some map) = true := marked ▸ passed.bounds current now
      have own : map.contains current = true := by simpa [Evaluation.hasBounds, inhabited] using contained
      exact .inr (.inr (.inl ⟨map, marked, contained_key current map own⟩))
  | clause predicate before after clause marked clauses on first texts s entered =>
      have found : markers.discriminatorClause? discriminator = some clause := by
        rw [Markers.discriminatorClause?, marked]
        exact first_clause discriminator predicate.condition before after clause clauses on first
      obtain ⟨actual, stands, _, rfl⟩ := (key_at_iff values discriminator current).mp now
      cases entered.symm.trans stands
      exact .inr (.inr (.inr ⟨clause, found,
        clause_key fields discriminator values markers clause found texts s entered passed.requiredWhen⟩))

theorem referred_in_group (field : Field) (member : field ∈ Field.walkAll fields) (group current : String)
    (specific : field.markers.specificGroup = some group)
    (referred : current ∈ field.markers.discriminatorValues discriminator) :
    ∃ allowed, (groupRelevance fields discriminator).get? group = some allowed ∧ current ∈ allowed := by
  have collected := (mem_group_relevance discriminator fields group current).mpr ⟨field, member, specific, referred⟩
  cases found : (groupRelevance fields discriminator).get? group with
  | none => simp [found] at collected
  | some allowed => exact ⟨allowed, rfl, by simpa [found] using collected⟩

theorem visible_iff (e : Evaluation) (markers : Markers) : e.visible markers = true ↔
    e.PassesOwnRules markers ∧
      ∀ current, e.current = some current → e.groupApplies current markers.specificGroup = true := by
  have shown : e.visible markers = true ↔ e.meets markers.visibleWhen = true ∧ e.meets markers.requiredWhen = true ∧
      ∀ current, e.current = some current → e.applies current markers = true := by
    rw [Evaluation.visible, Bool.and_eq_true, Bool.and_eq_true, and_assoc]
    cases e.current <;> simp
  rw [shown]
  simp only [Evaluation.applies, Bool.and_eq_true, and_assoc]
  constructor
  · rintro ⟨visibleWhen, requiredWhen, rules⟩
    exact ⟨⟨visibleWhen, requiredWhen, fun current now => (rules current now).1,
      fun current now => (rules current now).2.1, fun current now => (rules current now).2.2.1⟩,
      fun current now => (rules current now).2.2.2⟩
  · rintro ⟨own, group⟩
    exact ⟨own.visibleWhen, own.requiredWhen, fun current now =>
      ⟨own.relevance current now, own.choices current now, own.bounds current now, group current now⟩⟩

theorem own_rules_decide (field : Field) (member : field ∈ Field.walkAll fields)
    (refers : field.markers.Refers discriminator values) :
    let e := Evaluation.start fields discriminator values
    ((e.state field.toAttributes).visible = true ↔ e.PassesOwnRules field.markers) ∧
    (e.PassesOwnRules field.markers → ∀ group current, field.markers.specificGroup = some group →
      e.current = some current → ∃ allowed, e.groups.get? group = some allowed ∧ current ∈ allowed) := by
  intro e
  have inGroup (passed : e.PassesOwnRules field.markers) (group current : String)
      (specific : field.markers.specificGroup = some group) (now : e.current = some current) :
      ∃ allowed, e.groups.get? group = some allowed ∧ current ∈ allowed := by
    have referred := current_referred fields discriminator values field.markers refers passed current now
    exact referred_in_group fields discriminator field member group current specific referred
  refine ⟨?_, inGroup⟩
  rw [state_visible, visible_iff]
  refine ⟨And.left, fun passed => ⟨passed, fun current now => ?_⟩⟩
  cases specific : field.markers.specificGroup with
  | none => rfl
  | some group =>
      obtain ⟨allowed, found, listed⟩ := inGroup passed group current specific now
      simp [Evaluation.groupApplies, found, listed]

end Rules

def steelMarkers : Markers := { Markers.empty with group := some "Steel" }

def onType (expected : Expected) : Clause := ⟨"TYPE", expected⟩

def steelLoad (clauses : List Clause) : Field :=
  { path := "FRAME.LOAD", name := "LOAD"
    markers := { steelMarkers with requiredWhen := some (.ofCondition ⟨clauses⟩) } }

def steelSpan : Field :=
  { path := "SPAN", name := "SPAN", markers := { steelMarkers with bounds := some [("BEAM", .text "> 0")] } }

def steelFields (clauses : List Clause) : List Field :=
  [steelSpan, { path := "FRAME", name := "FRAME", type := .object, children := [steelLoad clauses] }]

theorem steel_load_member (clauses : List Clause) : steelLoad clauses ∈ Field.walkAll (steelFields clauses) :=
  .tail _ (.tail _ (.head _))

def trussesAndBars : List Clause := [onType (.anyOf [.text "TRUSS", .text "BAR"])]

theorem load_of_bar_shown :
    let e := Evaluation.start (steelFields trussesAndBars) "TYPE" [("TYPE", .text "BAR")]
    (e.state (steelLoad trussesAndBars).toAttributes).visible = true ∧
      (∃ allowed, e.groups.get? "Steel" = some allowed ∧ "BAR" ∈ allowed) ∧
      (e.state steelSpan.toAttributes).visible = false := by
  intro e
  have refers : (steelLoad trussesAndBars).markers.Refers "TYPE" [("TYPE", .text "BAR")] :=
    .clause _ [] [] _ rfl rfl rfl nofun (by simp [onType, Expected.values]) "BAR" rfl
  have passed : e.PassesOwnRules (steelLoad trussesAndBars).markers :=
    ⟨rfl, rfl, fun _ _ => rfl, fun _ _ => rfl, fun _ _ => rfl⟩
  obtain ⟨shown, inGroup⟩ := own_rules_decide _ "TYPE" [("TYPE", .text "BAR")] _ (steel_load_member _) refers
  exact ⟨shown.mpr passed, inGroup passed "Steel" "BAR" rfl rfl, by decide +kernel⟩

def oneOrText : List Clause := [onType (.one (.number (.whole 1))), onType (.anyOf [.text "1.0"])]

def listedTypes : List Json := [.object [("TYPE", .number (.whole 1))], .object [("TYPE", .array [.text "1.0"])]]

def listedLoad : Field :=
  { path := "LOAD", name := "LOAD"
    markers := Markers.ofDefinition
      (.object [("x-group", .text "Steel"), ("x-required-when", .array listedTypes)]) }

-- The number 1 is met by the text 1.0, which is not its key, and a later clause adds nothing to the group, whether
-- it stands in the condition that is judged or in one that is only listed after it.
theorem load_of_spelled_type_hidden :
    let clauses := Evaluation.start (steelFields oneOrText) "TYPE" [("TYPE", .text "1.0")]
    let listed := Evaluation.start [listedLoad] "TYPE" [("TYPE", .text "1.0")]
    (steelLoad oneOrText ∈ Field.walkAll (steelFields oneOrText) ∧
      (steelLoad oneOrText).markers.specificGroup = some "Steel" ∧
      clauses.PassesOwnRules (steelLoad oneOrText).markers ∧
      (∃ clause ∈ oneOrText, clause.field = "TYPE" ∧ clause.expected.values = [.text "1.0"]) ∧
      (clauses.state (steelLoad oneOrText).toAttributes).visible = false) ∧
    listedLoad.markers.specificGroup = some "Steel" ∧ listed.PassesOwnRules listedLoad.markers ∧
      (∃ entry ∈ listedTypes, Predicate.entryCondition? entry = some ⟨[onType (.anyOf [.text "1.0"])]⟩) ∧
      (listed.state listedLoad.toAttributes).visible = false := by
  intro clauses listed
  have own : clauses.PassesOwnRules (steelLoad oneOrText).markers :=
    ⟨rfl, by decide +kernel, fun _ _ => rfl, fun _ _ => rfl, fun _ _ => rfl⟩
  have listedOwn : listed.PassesOwnRules listedLoad.markers :=
    ⟨rfl, by decide +kernel, fun _ _ => rfl, fun _ _ => rfl, fun _ _ => rfl⟩
  have later : ∃ clause ∈ oneOrText, clause.field = "TYPE" ∧ clause.expected.values = [.text "1.0"] :=
    ⟨_, .tail _ (.head _), rfl, rfl⟩
  have laterEntry : ∃ entry ∈ listedTypes,
      Predicate.entryCondition? entry = some ⟨[onType (.anyOf [.text "1.0"])]⟩ := ⟨_, .tail _ (.head _), rfl⟩
  exact ⟨⟨steel_load_member _, by decide, own, later, by decide +kernel⟩,
    by decide, listedOwn, laterEntry, by decide +kernel⟩

end ConditionalForm
