import ConditionalForm.Proofs.AscendingMaps
import ConditionalForm.Proofs.BranchStates

set_option autoImplicit false

namespace ConditionalForm

def Requirement.status? : Requirement → Option Status
  | .fixed true => some .required
  | .fixed false => some .optional
  | .wildcard status => some status
  | .byTrigger _ _ => none

namespace Evaluation

variable (e : Evaluation)

theorem structural_resolved (trigger : Option String) (statuses : StatusTable) (key : String) (status : Status)
    (named : e.statusKey trigger statuses = some key) (found : statuses.get? key = some status) :
    e.structural trigger statuses =
      (if !statuses.isUniform then .conditional else if status.isRequired then .required else .optional,
        status.isRequired) := by
  simp [structural, named, found]

theorem structural_cases (trigger : Option String) (statuses : StatusTable) :
    e.structural trigger statuses = (.conditional, false) ∨
      ∃ key status, statuses.get? key = some status ∧ e.structural trigger statuses =
        (if !statuses.isUniform then .conditional else if status.isRequired then .required else .optional,
          status.isRequired) := by
  cases named : e.statusKey trigger statuses with
  | none => exact .inl (by simp [structural, named])
  | some key =>
      cases found : statuses.get? key with
      | none => exact .inl (by simp [structural, named, found])
      | some status => exact .inr ⟨key, status, found, e.structural_resolved trigger statuses key status named found⟩

theorem required_cases (field : Attributes) :
    (∃ trigger statuses, field.requirement = .byTrigger trigger statuses ∧
      e.required field = e.structural trigger statuses) ∨
    (∃ predicate, field.markers.requiredWhen = some predicate ∧
      e.required field = (.conditional, predicate.condition.holds e.values)) ∨
    ∃ status, field.requirement.status? = some status ∧ field.markers.requiredWhen = none ∧
      e.required field = (status, status.isRequired) := by
  rw [required, RequirementRule.ofField]
  cases requirement : field.requirement with
  | byTrigger trigger statuses => exact .inl ⟨trigger, statuses, rfl, rfl⟩
  | wildcard status =>
      cases marked : field.markers.requiredWhen with
      | some predicate => exact .inr (.inl ⟨predicate, rfl, rfl⟩)
      | none => exact .inr (.inr ⟨status, rfl, rfl, rfl⟩)
  | fixed required =>
      cases marked : field.markers.requiredWhen with
      | some predicate => exact .inr (.inl ⟨predicate, rfl, by cases required <;> rfl⟩)
      | none =>
          cases required with
          | true => exact .inr (.inr ⟨.required, rfl, rfl, rfl⟩)
          | false => exact .inr (.inr ⟨.optional, rfl, rfl, rfl⟩)

theorem state_shown (field : Attributes) (shown : e.visible field.markers = true) :
    e.state field = ⟨true, (e.required field).1, (e.required field).2, true⟩ := by
  simp [state, shown]

end Evaluation

structure FieldState.CoherentFor (state : FieldState) (field : Attributes) : Prop where
  shown_if_required : state.requiredNow = true →
    state.visible = true ∧ (state.mode = .required ∨ state.mode = .conditional)
  required_by_mode : state.mode = .required → state.requiredNow = true
  mode_if_hidden : state.visible = false → state.mode = .notApplicable
  required_if_declared : state.visible = true →
    field.requirement = .fixed true ∨ field.requirement = .wildcard .required → state.requiredNow = true
  ever_if_required : field.markers.requiredWhen = none → state.requiredNow = true →
    field.requirement.isEverRequired = true

section Coherence

variable (e : Evaluation) (field : Attributes)

theorem required_iff_is_required (status : Status) : status.isRequired = true ↔ status = .required :=
  beq_iff_eq

theorem structural_mode (trigger : Option String) (statuses : StatusTable) :
    ((e.structural trigger statuses).2 = true → (e.structural trigger statuses).1 = .required ∨
      (e.structural trigger statuses).1 = .conditional) ∧
    ((e.structural trigger statuses).1 = .required → (e.structural trigger statuses).2 = true) := by
  rcases e.structural_cases trigger statuses with unresolved | ⟨key, status, _, resolved⟩
  · rw [unresolved]
    exact ⟨nofun, nofun⟩
  · rw [resolved]
    cases statuses.isUniform <;> cases status.isRequired <;> simp

theorem required_mode : ((e.required field).2 = true → (e.required field).1 = .required ∨
      (e.required field).1 = .conditional) ∧
    ((e.required field).1 = .required → (e.required field).2 = true) := by
  rcases e.required_cases field with ⟨trigger, statuses, _, rule⟩ | ⟨predicate, _, rule⟩ | ⟨status, _, _, rule⟩
  · rw [rule]
    exact structural_mode e trigger statuses
  · rw [rule]
    exact ⟨fun _ => .inr rfl, nofun⟩
  · rw [rule]
    simp only [required_iff_is_required]
    exact ⟨.inl, id⟩

theorem structural_ever (trigger : Option String) (statuses : StatusTable)
    (required : (e.structural trigger statuses).2 = true) :
    statuses.any (fun entry => entry.2.isRequired) = true := by
  rcases e.structural_cases trigger statuses with unresolved | ⟨key, status, found, resolved⟩
  · rw [unresolved] at required
    cases required
  · rw [resolved] at required
    exact List.any_eq_true.mpr ⟨(key, status), SortedMap.mem_of_get key statuses status found, required⟩

theorem required_ever (unmarked : field.markers.requiredWhen = none) (required : (e.required field).2 = true) :
    field.requirement.isEverRequired = true := by
  rcases e.required_cases field with ⟨trigger, statuses, requirement, rule⟩ | ⟨predicate, marked, _⟩ |
    ⟨status, declared, _, rule⟩
  · rw [rule] at required
    rw [requirement]
    exact structural_ever e trigger statuses required
  · cases unmarked.symm.trans marked
  · rw [rule] at required
    cases requirement : field.requirement with
    | byTrigger trigger statuses => simp [requirement, Requirement.status?] at declared
    | wildcard own =>
        have same : own = status := by simpa [requirement, Requirement.status?] using declared
        exact same ▸ required
    | fixed own =>
        cases own with
        | true => rfl
        | false =>
            have same : Status.optional = status := by simpa [requirement, Requirement.status?] using declared
            cases same
            cases required

theorem shown_condition_holds (shown : e.visible field.markers = true) (predicate : Predicate)
    (marked : field.markers.requiredWhen = some predicate) : predicate.condition.holds e.values = true := by
  have met : e.meets field.markers.requiredWhen = true :=
    (Bool.and_eq_true_iff.mp (Bool.and_eq_true_iff.mp shown).1).2
  rw [marked] at met
  exact met

theorem declared_required (shown : e.visible field.markers = true)
    (declared : field.requirement = .fixed true ∨ field.requirement = .wildcard .required) :
    (e.required field).2 = true := by
  have always : field.requirement.status? = some .required := by
    rcases declared with requirement | requirement <;> rw [requirement] <;> rfl
  rcases e.required_cases field with ⟨trigger, statuses, requirement, _⟩ | ⟨predicate, marked, rule⟩ |
    ⟨status, own, _, rule⟩
  · rw [requirement] at always
    cases always
  · rw [rule]
    exact shown_condition_holds e field shown predicate marked
  · cases own.symm.trans always
    rw [rule]
    rfl

theorem state_coherent : (e.state field).CoherentFor field := by
  cases shown : e.visible field.markers with
  | false =>
      rw [state_hidden e field shown]
      exact ⟨nofun, nofun, fun _ => rfl, nofun, nofun⟩
  | true =>
      rw [e.state_shown field shown]
      obtain ⟨mode, required⟩ := required_mode e field
      exact ⟨fun now => ⟨rfl, mode now⟩, required, nofun, fun _ => declared_required e field shown,
        required_ever e field⟩

end Coherence

theorem states_coherent (fields : List Field) (discriminator : String) (values : Snapshot) :
    (∀ field : Attributes, ((Evaluation.start fields discriminator values).state field).CoherentFor field) ∧
    ∀ path state, (evaluateFields fields discriminator values).get? path = some state →
      ∃ field ∈ Field.walkAll fields, field.path = path ∧ state.CoherentFor field.toAttributes := by
  refine ⟨state_coherent _, fun path state found => ?_⟩
  have evaluated := SortedMap.mem_of_list _ _ (SortedMap.mem_of_get path _ state found)
  obtain ⟨field, walked, same⟩ := List.mem_map.mp evaluated
  cases same
  exact ⟨field, walked, rfl, state_coherent _ field.toAttributes⟩

def markedSpan : Field :=
  { path := "SPAN", name := "SPAN", requirement := .fixed true
    markers := { Markers.empty with requiredWhen := some (.ofCondition ⟨[⟨"TYPE", .one (.text "BEAM")⟩]⟩) } }

theorem marked_span_required :
    ∃ state, (evaluateFields [markedSpan] "TYPE" [("TYPE", .text "BEAM")]).get? "SPAN" = some state ∧
      state.mode = .conditional ∧ state.requiredNow = true := by
  obtain ⟨coherent, listed⟩ := states_coherent [markedSpan] "TYPE" [("TYPE", .text "BEAM")]
  have required := (coherent markedSpan.toAttributes).required_if_declared rfl (.inl rfl)
  obtain ⟨_, _, _, again⟩ := listed "SPAN" ⟨true, .conditional, true, true⟩ rfl
  exact ⟨_, rfl, ((again.shown_if_required rfl).2).resolve_left nofun, required⟩

end ConditionalForm
