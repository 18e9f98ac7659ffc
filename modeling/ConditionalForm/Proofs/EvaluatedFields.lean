import ConditionalForm.Proofs.AscendingMaps
import ConditionalForm.Proofs.GroupRelevance

set_option autoImplicit false

namespace ConditionalForm

inductive Reordered : List Field → List Field → Prop
  | siblings {fields others : List Field} (perm : fields.Perm others) : Reordered fields others
  | inside (before after : List Field) (attributes : Attributes) {children others : List Field}
      (inner : Reordered children others) :
      Reordered (before ++ ⟨attributes, children⟩ :: after) (before ++ ⟨attributes, others⟩ :: after)
  | trans {fields between others : List Field} (first : Reordered fields between)
      (second : Reordered between others) : Reordered fields others

def walkedAttributes (fields : List Field) : List Attributes := (Field.walkAll fields).map Field.toAttributes

section Search

variable {α : Type} (key : α → String)

theorem find_keyed_iff (items : List α) (distinct : (items.map key).Nodup) (query : String) (item : α) :
    items.find? (fun other => key other == query) = some item ↔ item ∈ items ∧ key item = query := by
  constructor
  · intro found
    exact ⟨List.mem_of_find?_eq_some found, by simpa using List.find?_some found⟩
  · rintro ⟨member, rfl⟩
    obtain ⟨before, after, rfl⟩ := List.append_of_mem member
    rw [List.map_append, List.map_cons] at distinct
    refine List.find?_eq_some_iff_append.mpr ⟨beq_self_eq_true _, before, after, rfl, fun other earlier => ?_⟩
    have apart := (List.nodup_append.mp distinct).2.2 (key other) (List.mem_map_of_mem earlier) (key item)
      List.mem_cons_self
    simpa using apart

theorem find_keyed_perm (items others : List α) (perm : items.Perm others) (distinct : (items.map key).Nodup)
    (query : String) : items.find? (fun item => key item == query) = others.find? fun item => key item == query := by
  have alsoDistinct : (others.map key).Nodup := (perm.map key).nodup_iff.mp distinct
  refine Option.ext fun item => ?_
  rw [find_keyed_iff key items distinct, find_keyed_iff key others alsoDistinct, perm.mem_iff]

theorem of_list_perm (entries others : List (String × α)) (perm : entries.Perm others)
    (distinct : (entries.map Prod.fst).Nodup) : SortedMap.ofList entries = SortedMap.ofList others := by
  refine SortedMap.ascending_ext _ _ (SortedMap.of_list_ascending entries) (SortedMap.of_list_ascending others)
    fun query => ?_
  have reversed : entries.reverse.Perm others.reverse :=
    (List.reverse_perm entries).trans (perm.trans (List.reverse_perm others).symm)
  have alsoDistinct : (entries.reverse.map Prod.fst).Nodup := by
    rw [List.map_reverse]
    exact List.nodup_reverse.mpr distinct
  rw [SortedMap.get_of_list, SortedMap.get_of_list, find_keyed_perm Prod.fst _ _ reversed alsoDistinct]

end Search

section States

variable (fields : List Field) (discriminator : String) (values : Snapshot)

theorem evaluate_fields_walked : evaluateFields fields discriminator values = SortedMap.ofList
    ((walkedAttributes fields).map fun field =>
      (field.path, (Evaluation.start fields discriminator values).state field)) := by
  rw [evaluateFields, walkedAttributes, List.map_map]
  rfl

theorem evaluate_fields_find (path : String) : (evaluateFields fields discriminator values).get? path =
    ((Field.walkAll fields).reverse.find? fun field => field.path == path).map fun field =>
      (Evaluation.start fields discriminator values).state field.toAttributes := by
  rw [evaluateFields, SortedMap.get_of_list, ← List.map_reverse, List.find?_map, Option.map_map]
  rfl

theorem evaluate_fields_keys (path : String) : path ∈ (evaluateFields fields discriminator values).keys ↔
    ∃ field ∈ Field.walkAll fields, field.path = path := by
  rw [evaluateFields, SortedMap.mem_of_list_keys]
  simp

theorem evaluate_fields_distinct (distinct : ((Field.walkAll fields).map fun field => field.path).Nodup)
    (path : String) : (evaluateFields fields discriminator values).get? path =
      ((Field.walkAll fields).find? fun field => field.path == path).map fun field =>
        (Evaluation.start fields discriminator values).state field.toAttributes := by
  rw [evaluate_fields_find, find_keyed_perm (fun field : Field => field.path) _ _ (List.reverse_perm _).symm distinct]

end States

section Order

theorem walked_cons (field : Field) (fields : List Field) : walkedAttributes (field :: fields) =
    field.toAttributes :: walkedAttributes field.children ++ walkedAttributes fields := by
  rw [walkedAttributes, Field.walkAll, Field.walk_head, List.map_append, List.map_cons]
  rfl

theorem walked_append (before after : List Field) :
    walkedAttributes (before ++ after) = walkedAttributes before ++ walkedAttributes after := by
  rw [walkedAttributes, Field.walk_all_append, List.map_append]
  rfl

theorem siblings_walked (fields others : List Field) (perm : fields.Perm others) :
    (walkedAttributes fields).Perm (walkedAttributes others) := by
  induction perm with
  | nil => exact .refl _
  | cons field _ ih =>
      rw [walked_cons, walked_cons]
      exact ih.append_left _
  | swap field other fields =>
      rw [walked_cons, walked_cons, walked_cons, walked_cons, ← List.append_assoc, ← List.append_assoc]
      exact List.perm_append_comm.append_right _
  | trans _ _ first second => exact first.trans second

theorem reordered_walked (fields others : List Field) (reordered : Reordered fields others) :
    (walkedAttributes fields).Perm (walkedAttributes others) := by
  induction reordered with
  | siblings perm => exact siblings_walked _ _ perm
  | inside before after attributes _ ih =>
      rw [walked_append, walked_append, walked_cons, walked_cons]
      exact ((ih.cons attributes).append_right _).append_left _
  | trans _ _ first second => exact first.trans second

end Order

section Groups

structure Collected (groups : SortedMap SortedSet) : Prop where
  ascending : SortedMap.Ascending groups
  sets : ∀ entry ∈ groups, entry.2 ≠ [] ∧ SortedSet.Ascending entry.2

variable (discriminator : String)

theorem collect_collected (groups : SortedMap SortedSet) (field : Field) (collected : Collected groups) :
    Collected (collectRelevance discriminator groups field) := by
  rw [collectRelevance]
  split
  · exact collected
  · rename_i group first others _ _
    refine ⟨SortedMap.insert_ascending _ _ _ collected.ascending, fun entry member => ?_⟩
    rcases SortedMap.mem_of_insert _ _ _ entry member with rfl | held
    · refine ⟨List.ne_nil_of_mem ((SortedSet.mem_union _ _ first).mpr (.inr List.mem_cons_self)), ?_⟩
      refine SortedSet.union_ascending _ _ ?_
      cases found : groups.get? group with
      | none => exact List.Pairwise.nil
      | some set => exact (collected.sets _ (SortedMap.mem_of_get group groups set found)).2
    · exact collected.sets entry held
  · exact collected

theorem relevance_collected (fields : List Field) : Collected (groupRelevance fields discriminator) := by
  rw [group_relevance_collected]
  exact List.foldlRecOn _ _ ⟨List.Pairwise.nil, nofun⟩ fun groups collected field _ =>
    collect_collected discriminator groups field collected

theorem collected_get (groups : SortedMap SortedSet) (collected : Collected groups) (group : String) :
    ∃ set : SortedSet, SortedSet.Ascending set ∧ (groups.get? group).getD [] = set ∧
      groups.get? group = if set = [] then none else some set := by
  cases found : groups.get? group with
  | none => exact ⟨[], List.Pairwise.nil, rfl, rfl⟩
  | some set =>
      obtain ⟨inhabited, ordered⟩ := collected.sets _ (SortedMap.mem_of_get group groups set found)
      exact ⟨set, ordered, rfl, (if_neg inhabited).symm⟩

theorem collected_ext (groups others : SortedMap SortedSet) (collected : Collected groups)
    (alsoCollected : Collected others)
    (same : ∀ group key, key ∈ (groups.get? group).getD [] ↔ key ∈ (others.get? group).getD []) :
    groups = others := by
  refine SortedMap.ascending_ext groups others collected.ascending alsoCollected.ascending fun group => ?_
  obtain ⟨set, ordered, held, found⟩ := collected_get groups collected group
  obtain ⟨other, alsoOrdered, alsoHeld, alsoFound⟩ := collected_get others alsoCollected group
  have equal : set = other := by
    refine SortedSet.ascending_ext set other ordered alsoOrdered fun key => ?_
    rw [← held, ← alsoHeld]
    exact same group key
  rw [found, alsoFound, equal]

theorem relevance_reordered (fields others : List Field) (reordered : Reordered fields others) :
    groupRelevance fields discriminator = groupRelevance others discriminator := by
  have walked := reordered_walked fields others reordered
  have referred (list : List Field) (group key : String) :
      key ∈ ((groupRelevance list discriminator).get? group).getD [] ↔ ∃ field ∈ walkedAttributes list,
        field.markers.specificGroup = some group ∧ key ∈ field.markers.discriminatorValues discriminator := by
    rw [mem_group_relevance]
    simp [walkedAttributes]
  refine collected_ext _ _ (relevance_collected discriminator fields) (relevance_collected discriminator others)
    fun group key => ?_
  rw [referred, referred]
  exact exists_congr fun field => and_congr_left' walked.mem_iff

theorem evaluation_reordered (fields others : List Field) (reordered : Reordered fields others) (values : Snapshot) :
    Evaluation.start fields discriminator values = Evaluation.start others discriminator values := by
  rw [Evaluation.start, Evaluation.start, relevance_reordered discriminator fields others reordered]

theorem states_reordered (fields others : List Field) (reordered : Reordered fields others)
    (distinct : ((Field.walkAll fields).map fun field => field.path).Nodup) (values : Snapshot) :
    evaluateFields fields discriminator values = evaluateFields others discriminator values := by
  have walked := reordered_walked fields others reordered
  have paths : ((walkedAttributes fields).map fun field => field.path).Nodup := by
    rw [walkedAttributes, List.map_map]
    exact distinct
  rw [evaluate_fields_walked, evaluate_fields_walked, evaluation_reordered discriminator fields others reordered]
  refine of_list_perm _ _ (walked.map _) ?_
  rw [List.map_map]
  exact paths

end Groups

structure EvaluatesEach (form : Form) (values : Snapshot) : Prop where
  keys : ∀ path, path ∈ (form.evaluate values).keys ↔ ∃ field ∈ form.allFields, field.path = path
  once : (form.evaluate values).keys.Nodup
  last : ∀ path, (form.evaluate values).get? path =
    (form.allFields.reverse.find? fun field => field.path == path).map fun field => form.stateOf field values
  found : (form.allFields.map fun field => field.path).Nodup → ∀ path,
    (form.evaluate values).get? path = (form.find? path).map fun field => form.stateOf field values

structure OrderFree (fields others : List Field) (discriminator : String) (values : Snapshot) : Prop where
  groups : groupRelevance fields discriminator = groupRelevance others discriminator
  state : ∀ field, (Evaluation.start fields discriminator values).state field =
    (Evaluation.start others discriminator values).state field
  states : ((Field.walkAll fields).map fun field => field.path).Nodup →
    evaluateFields fields discriminator values = evaluateFields others discriminator values

theorem evaluation_field_wise (form : Form) (values : Snapshot) : EvaluatesEach form values ∧
    ∀ fields others discriminator, Reordered fields others → OrderFree fields others discriminator values := by
  constructor
  · exact {
      keys := evaluate_fields_keys form.fields form.discriminatorField values
      once := SortedMap.ascending_keys_distinct _ (SortedMap.of_list_ascending _)
      last := evaluate_fields_find form.fields form.discriminatorField values
      found := evaluate_fields_distinct form.fields form.discriminatorField values }
  · intro fields others discriminator reordered
    have start := evaluation_reordered discriminator fields others reordered values
    exact {
      groups := relevance_reordered discriminator fields others reordered
      state := fun field => by rw [start]
      states := fun distinct => states_reordered discriminator fields others reordered distinct values }

def frameOf (children : List Field) : Field :=
  { path := "FRAME", name := "FRAME", type := .object, children := children }

def frameNote (requirement : Requirement) : Field :=
  { path := "FRAME.NOTE", name := "NOTE", requirement := requirement }

theorem frame_states_kept :
    let values : Snapshot := [("TYPE", .text "BAR")]
    let load := steelLoad trussesAndBars
    let note := frameNote (.fixed true)
    let fields := [frameOf [load, note], steelSpan]
    let others := [steelSpan, frameOf [note, load]]
    evaluateFields fields "TYPE" values = evaluateFields others "TYPE" values ∧
      (Form.evaluate { fields := fields } values).get? "FRAME.LOAD" = some ⟨true, .conditional, true, true⟩ ∧
      (Form.evaluate { fields := [frameOf [note, frameNote (.fixed false)]] } values).get? "FRAME.NOTE" =
        some ⟨true, .optional, false, true⟩ := by
  intro values load note fields others
  have inside : Reordered fields [frameOf [note, load], steelSpan] :=
    .inside [] [steelSpan] _ (.siblings (.swap note load []))
  have reordered : Reordered fields others := .trans inside (.siblings (.swap _ _ []))
  have distinct : ((Field.walkAll fields).map fun field => field.path).Nodup := by decide
  refine ⟨((evaluation_field_wise {} values).2 fields others "TYPE" reordered).states distinct, ?_, ?_⟩
  · rw [(evaluation_field_wise { fields := fields } values).1.found distinct]
    rfl
  · rw [(evaluation_field_wise { fields := [frameOf [note, frameNote (.fixed false)]] } values).1.last]
    rfl

end ConditionalForm
