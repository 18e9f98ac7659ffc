import ConditionalForm.Proofs.BuiltFields
import ConditionalForm.Proofs.CoherentStates

set_option autoImplicit false

namespace ConditionalForm

open Document

def Evaluation.Resolves (e : Evaluation) (trigger : Option String) (statuses : StatusTable) : Prop :=
  ∃ key, e.statusKey trigger statuses = some key ∧ statuses.contains key = true

def Attributes.withStatus (field : Attributes) (status : Status) : Attributes :=
  { field with requirement := .wildcard status, markers := { field.markers with requiredWhen := none } }

theorem table_uniform (statuses : StatusTable) (status : Status) (uniform : ∀ entry ∈ statuses, entry.2 = status) :
    statuses.isUniform = true := by
  cases statuses with
  | nil => rfl
  | cons first others =>
      obtain ⟨own, rest⟩ := List.forall_mem_cons.mp uniform
      refine List.all_eq_true.mpr fun entry listed => ?_
      rw [rest entry listed, own]
      exact beq_self_eq_true status

section Evaluation

variable (e : Evaluation) (field : Attributes) (status : Status)

theorem uniform_structural (trigger : Option String) (statuses : StatusTable)
    (uniform : ∀ entry ∈ statuses, entry.2 = status) (resolved : e.Resolves trigger statuses) :
    e.structural trigger statuses = (if status.isRequired then .required else .optional, status.isRequired) := by
  obtain ⟨key, named, contained⟩ := resolved
  obtain ⟨own, found⟩ := Option.isSome_iff_exists.mp contained
  have same : own = status := uniform (key, own) (SortedMap.mem_of_get key statuses own found)
  rw [e.structural_resolved trigger statuses key own named found, table_uniform statuses status uniform, same]
  rfl

theorem uniform_state (trigger : Option String) (statuses : StatusTable)
    (requirement : field.requirement = .byTrigger trigger statuses)
    (uniform : ∀ entry ∈ statuses, entry.2 = status) (shown : (e.state field).visible = true)
    (resolved : e.Resolves trigger statuses) :
    e.state field = ⟨true, if status.isRequired then .required else .optional, status.isRequired, true⟩ := by
  have rule : e.required field = e.structural trigger statuses := by
    simp [Evaluation.required, RequirementRule.ofField, requirement]
  rw [e.state_shown field ((state_visible e field).symm.trans shown), rule,
    uniform_structural e status trigger statuses uniform resolved]

theorem with_status_state (shown : (e.state (field.withStatus status)).visible = true) :
    e.state (field.withStatus status) = ⟨true, status, status.isRequired, true⟩ := by
  rw [e.state_shown _ ((state_visible e _).symm.trans shown)]
  rfl

theorem with_status_shown (shown : (e.state field).visible = true) :
    (e.state (field.withStatus status)).visible = true := by
  rw [state_visible] at shown ⊢
  obtain ⟨conditions, rest⟩ := Bool.and_eq_true_iff.mp shown
  obtain ⟨visibleWhen, _⟩ := Bool.and_eq_true_iff.mp conditions
  have others : (e.visible (field.withStatus status).markers) =
      (e.meets field.markers.visibleWhen && true && e.current.all fun current => e.applies current field.markers) := rfl
  rw [others, visibleWhen, rest]
  rfl

theorem mode_kept_iff : (if status.isRequired then Status.required else .optional) = status ↔
    status = .required ∨ status = .optional := by
  cases status <;> decide

end Evaluation

theorem compiled_table (root : Json) (field : Attributes) (compiled : Compiled root field)
    (trigger : Option String) (statuses : StatusTable) (requirement : field.requirement = .byTrigger trigger statuses) :
    ∃ name named, statuses = statusTable (properties root) (Group.all root) named name := by
  cases compiled with
  | common path property required declared => cases declared.symm.trans requirement
  | heading group => cases (scope_requirement group _).symm.trans requirement
  | groupMember group path name definition =>
      have own := (scope_requirement group _).symm.trans requirement
      change group.requirement _ _ name = _ at own
      rw [Document.Group.requirement] at own
      cases kind : group.kind with
      | branch test =>
          rw [kind] at own
          cases own
          exact ⟨name, test.trigger, rfl⟩
      | option index =>
          rw [kind] at own
          cases own
  | below field inner =>
      cases inner with
      | heading level path label optionIndex => cases requirement
      | property level path property settled =>
          rcases settled with ⟨required, fixed⟩ | ⟨status, wildcard⟩
          · cases fixed.symm.trans requirement
          · cases wildcard.symm.trans requirement

theorem compiled_statuses (root : Json) (field : Attributes) (compiled : Compiled root field)
    (trigger : Option String) (statuses : StatusTable) (requirement : field.requirement = .byTrigger trigger statuses)
    (key : String) (status : Status) (found : statuses.get? key = some status) :
    status = .required ∨ status = .optional := by
  obtain ⟨name, named, rfl⟩ := compiled_table root field compiled trigger statuses requirement
  rw [get_status_table] at found
  split at found
  · exact .inl (Option.some.inj found).symm
  · split at found
    · exact .inr (Option.some.inj found).symm
    · cases found

theorem uniform_table_state_iff (fields : List Field) (discriminator : String) (values : Snapshot)
    (field : Attributes) (trigger : Option String) (statuses : StatusTable) (status : Status)
    (requirement : field.requirement = .byTrigger trigger statuses)
    (uniform : ∀ entry ∈ statuses, entry.2 = status)
    (shown : ((Evaluation.start fields discriminator values).state field).visible = true)
    (resolved : (Evaluation.start fields discriminator values).Resolves trigger statuses) :
    let e := Evaluation.start fields discriminator values
    e.state field = ⟨true, if status.isRequired then .required else .optional, status.isRequired, true⟩ ∧
    (e.state (field.withStatus status)).visible = true ∧
    (∀ other : Evaluation, (other.state (field.withStatus status)).visible = true →
      other.state (field.withStatus status) = ⟨true, status, status.isRequired, true⟩) ∧
    ((e.state field).mode = status ↔ status = .required ∨ status = .optional) ∧
    (e.state field = e.state (field.withStatus status) ↔ status = .required ∨ status = .optional) ∧
    ∀ options document, ∀ compiled ∈ (Form.ofDocument options document).allFields, compiled.toAttributes = field →
      e.state field = e.state (field.withStatus status) := by
  intro e
  have state := uniform_state e field status trigger statuses requirement uniform shown resolved
  have plainShown := with_status_shown e field status shown
  have plain := with_status_state e field status plainShown
  have same : e.state field = e.state (field.withStatus status) ↔ status = .required ∨ status = .optional := by
    rw [state, plain, ← mode_kept_iff]
    simp
  refine ⟨state, plainShown, fun other => with_status_state other field status, ?_, same, ?_⟩
  · rw [state]
    exact mode_kept_iff status
  · rintro options document compiled member rfl
    obtain ⟨key, _, contained⟩ := resolved
    obtain ⟨own, found⟩ := Option.isSome_iff_exists.mp contained
    have known := compiled_statuses _ _ (form_compiled options document compiled member) trigger statuses requirement
      key own found
    have held : own = status := uniform (key, own) (SortedMap.mem_of_get key statuses own found)
    exact same.mpr (held ▸ known)

def tabledLoad (trigger : Option String) (status : Status) : Field :=
  { path := "LOAD", name := "LOAD", requirement := .byTrigger trigger [("BEAM", status), ("TRUSS", status)] }

theorem scanned_load_required :
    let e := Evaluation.start [tabledLoad none .required] "TYPE" [("GRADE", .text "S235"), ("KIND", .text "TRUSS")]
    (e.state (tabledLoad none .required).toAttributes).mode = .required ∧
      e.state (tabledLoad none .required).toAttributes =
        e.state ((tabledLoad none .required).toAttributes.withStatus .required) := by
  have agreed := uniform_table_state_iff [tabledLoad none .required] "TYPE"
    [("GRADE", .text "S235"), ("KIND", .text "TRUSS")] (tabledLoad none .required).toAttributes none _ .required rfl
    (by simp) rfl ⟨"TRUSS", by decide +kernel, by decide⟩
  exact ⟨agreed.2.2.2.1.mpr (.inl rfl), agreed.2.2.2.2.1.mpr (.inl rfl)⟩

theorem conditional_load_optional :
    let e := Evaluation.start [tabledLoad (some "TYPE") .conditional] "TYPE" [("TYPE", .text "BEAM")]
    let load := (tabledLoad (some "TYPE") .conditional).toAttributes
    load.requirement = .byTrigger (some "TYPE") [("BEAM", .conditional), ("TRUSS", .conditional)] ∧
      (e.state load).visible = true ∧
      e.Resolves (some "TYPE") [("BEAM", .conditional), ("TRUSS", .conditional)] ∧
      (e.state load).mode = .optional ∧ (e.state (load.withStatus .conditional)).mode = .conditional :=
  ⟨rfl, rfl, ⟨"BEAM", by decide +kernel, by decide⟩, by decide +kernel, rfl⟩

end ConditionalForm
