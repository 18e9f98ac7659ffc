import ConditionalForm.Proofs.BranchStates
import ConditionalForm.Proofs.BuiltFields
import ConditionalForm.Proofs.LookUps
import ConditionalForm.Session
import Mathlib.Data.List.Basic

set_option autoImplicit false

namespace ConditionalForm

def Requirement.trigger? : Requirement → Option String
  | .byTrigger trigger _ => trigger
  | _ => none

-- A status table without a trigger would be read for the first value that is one of its keys.
def Requirement.Scans : Requirement → Prop
  | .byTrigger none _ => True
  | _ => False

def Predicate.fields (predicate : Option Predicate) : List String :=
  (predicate.map fun p => p.condition.clauses.map Clause.field).getD []

def Attributes.readPaths (field : Attributes) : List String :=
  [field.path, field.name] ++ Predicate.fields field.markers.visibleWhen
    ++ Predicate.fields field.markers.requiredWhen ++ field.requirement.trigger?.toList

def Form.readPaths (form : Form) : List String :=
  form.discriminatorField :: form.allFields.flatMap fun field => field.readPaths

def Snapshot.AgreeOn (paths : List String) (v w : Snapshot) : Prop :=
  ∀ path ∈ paths, v.lookup path = w.lookup path

theorem Document.compiled_never_scans (root : Json) (field : Attributes)
    (compiled : Document.Compiled root field) : ¬ field.requirement.Scans := by
  cases compiled with
  | common path property required requirement =>
      change ¬ property.requirement.Scans
      rw [requirement]
      exact id
  | heading group =>
      change ¬ (group.scope _).requirement.Scans
      rw [Document.scope_requirement]
      exact id
  | groupMember group path name definition =>
      rw [Document.scope_requirement]
      change ¬ (group.requirement _ _ name).Scans
      rw [Document.Group.requirement]
      cases group.kind with
      | branch test => exact id
      | option index => exact id
  | below field inner =>
      cases inner with
      | heading level path label optionIndex => exact id
      | property level path property settled =>
          change ¬ property.requirement.Scans
          rcases settled with ⟨required, fixed⟩ | ⟨status, wildcard⟩
          · rw [fixed]
            exact id
          · rw [wildcard]
            exact id

section Agreement

variable {v w : Snapshot}

theorem key_at_agree (path : String) (same : v.lookup path = w.lookup path) :
    v.keyAt path = w.keyAt path := by
  rw [Snapshot.keyAt, Snapshot.keyAt, same]

theorem condition_agree (condition : Condition)
    (agree : ∀ clause ∈ condition.clauses, v.lookup clause.field = w.lookup clause.field) :
    condition.holds v = condition.holds w := by
  rw [Condition.holds, Condition.holds, Bool.eq_iff_iff, List.all_eq_true, List.all_eq_true]
  refine forall₂_congr fun clause member => ?_
  rw [Clause.holds, Clause.holds, agree clause member]

theorem predicate_agree (predicate : Option Predicate)
    (agree : Snapshot.AgreeOn (Predicate.fields predicate) v w) :
    (predicate.all fun p => p.condition.holds v) = predicate.all fun p => p.condition.holds w := by
  cases predicate with
  | none => rfl
  | some p => exact condition_agree p.condition fun clause member => agree _ (List.mem_map_of_mem member)

theorem entered_agree (field : Attributes) (agree : Snapshot.AgreeOn field.readPaths v w) :
    field.entered v = field.entered w := by
  have path := agree field.path (by simp [Attributes.readPaths])
  have name := agree field.name (by simp [Attributes.readPaths])
  rw [Attributes.entered, Attributes.entered, path, name]

section State

variable (fields : List Field) (discriminator : String) (field : Attributes)
variable (current : v.lookup discriminator = w.lookup discriminator)
variable (agree : Snapshot.AgreeOn field.readPaths v w)

include current agree in
theorem visible_agree :
    (Evaluation.start fields discriminator v).visible field.markers =
      (Evaluation.start fields discriminator w).visible field.markers := by
  have shown := predicate_agree field.markers.visibleWhen
    fun path member => agree path (by simp [Attributes.readPaths, member])
  have needed := predicate_agree field.markers.requiredWhen
    fun path member => agree path (by simp [Attributes.readPaths, member])
  have key := key_at_agree discriminator current
  simp only [Evaluation.visible, Evaluation.meets, Evaluation.start, Evaluation.applies,
    Evaluation.groupApplies, shown, needed, key]

include agree in
theorem structural_agree (trigger : String) (statuses : StatusTable)
    (requirement : field.requirement = .byTrigger (some trigger) statuses) :
    (Evaluation.start fields discriminator v).structural (some trigger) statuses =
      (Evaluation.start fields discriminator w).structural (some trigger) statuses := by
  have named : trigger ∈ field.readPaths := by
    simp [Attributes.readPaths, requirement, Requirement.trigger?]
  have key := key_at_agree trigger (agree trigger named)
  simp only [Evaluation.structural, Evaluation.statusKey, Evaluation.start, key]

include agree in
theorem required_agree (settled : ¬ field.requirement.Scans) :
    (Evaluation.start fields discriminator v).required field =
      (Evaluation.start fields discriminator w).required field := by
  have needed (predicate : Predicate) (marked : field.markers.requiredWhen = some predicate) :
      predicate.condition.holds v = predicate.condition.holds w := by
    refine condition_agree _ fun clause member => agree _ ?_
    have inFields : clause.field ∈ Predicate.fields field.markers.requiredWhen := by
      rw [marked]
      exact List.mem_map_of_mem member
    simp [Attributes.readPaths, inFields]
  rw [Evaluation.required, Evaluation.required, RequirementRule.ofField]
  cases requirement : field.requirement with
  | byTrigger trigger statuses =>
      cases trigger with
      | none =>
          rw [requirement] at settled
          exact absurd trivial settled
      | some trigger => exact structural_agree fields discriminator field agree trigger statuses requirement
  | fixed required =>
      cases marked : field.markers.requiredWhen with
      | none => cases required <;> rfl
      | some predicate => simp only [Evaluation.start, needed predicate marked]
  | wildcard status =>
      cases marked : field.markers.requiredWhen with
      | none => rfl
      | some predicate => simp only [Evaluation.start, needed predicate marked]

include current agree in
theorem state_agree (settled : ¬ field.requirement.Scans) :
    (Evaluation.start fields discriminator v).state field =
      (Evaluation.start fields discriminator w).state field := by
  rw [Evaluation.state, Evaluation.state, visible_agree fields discriminator field current agree,
    required_agree fields discriminator field agree settled]

end State

theorem form_reads (form : Form) (agree : Snapshot.AgreeOn form.readPaths v w) :
    v.lookup form.discriminatorField = w.lookup form.discriminatorField ∧
      ∀ field ∈ form.allFields, Snapshot.AgreeOn field.readPaths v w := by
  refine ⟨agree _ List.mem_cons_self, fun field member path read => agree path ?_⟩
  exact List.mem_cons_of_mem _ (List.mem_flatMap.mpr ⟨field, member, read⟩)

theorem evaluate_agree (form : Form) (agree : Snapshot.AgreeOn form.readPaths v w)
    (settled : ∀ field ∈ form.allFields, ¬ field.requirement.Scans) :
    form.evaluate v = form.evaluate w := by
  obtain ⟨current, reads⟩ := form_reads form agree
  rw [Form.evaluate, Form.evaluate, evaluateFields, evaluateFields]
  refine congrArg SortedMap.ofList (List.map_congr_left fun field member => ?_)
  rw [state_agree form.fields form.discriminatorField field.toAttributes current (reads field member)
    (settled field member)]

theorem form_payload_agree (form : Form) (states : StateMap)
    (agree : Snapshot.AgreeOn form.readPaths v w) : form.payload states v = form.payload states w := by
  obtain ⟨_, reads⟩ := form_reads form agree
  refine payload_agree form fun chain leaf reached _ _ => ?_
  exact entered_agree leaf.toAttributes (reads leaf (reached_walked _ chain leaf reached))

theorem form_check_agree (form : Form) (states : StateMap)
    (agree : Snapshot.AgreeOn form.readPaths v w) : form.check states v = form.check states w := by
  obtain ⟨current, reads⟩ := form_reads form agree
  have issues : form.issues states v = form.issues states w := by
    have key := key_at_agree form.discriminatorField current
    rw [Form.issues, Form.issues, key]
    refine List.filterMap_congr fun field member => ?_
    rw [Attributes.issue?, Attributes.issue?, entered_agree field.toAttributes (reads field member)]
  rw [Form.check, Form.check, issues]

end Agreement

namespace Session

def finish (session : Session) (edits : List Edit) : Session :=
  (session.after edits).getLastD session

theorem finish_cons (session : Session) (e : Edit) (edits : List Edit) :
    session.finish (e :: edits) = (session.edit e).finish edits := by
  rw [finish, after, List.getLastD_cons, finish]

theorem finish_form (session : Session) (edits : List Edit) :
    (session.finish edits).form = session.form := by
  induction edits generalizing session with
  | nil => rfl
  | cons e edits ih => rw [finish_cons, ih, edit]

structure SameAnswers (a b : Session) : Prop where
  states : a.states = b.states
  payload : a.payload = b.payload
  check : a.check = b.check
  inputs : a.inputs = b.inputs

end Session

theorem answers_agree (options : Document.Options) (document : Json) (a b : Session)
    (compiled : a.form = Form.ofDocument options document) (shared : b.form = a.form)
    (agree : Snapshot.AgreeOn a.form.readPaths a.values b.values) : Session.SameAnswers a b := by
  obtain ⟨form, v⟩ := a
  obtain ⟨_, w⟩ := b
  cases shared
  have settled : ∀ field ∈ form.allFields, ¬ field.requirement.Scans := by
    intro field member
    rw [show form = Form.ofDocument options document from compiled] at member
    exact Document.compiled_never_scans _ _ (Document.form_compiled options document field member)
  have states := evaluate_agree form agree settled
  refine ⟨states, ?_, ?_, ?_⟩
  · rw [Session.payload, Session.payload, Session.states, Session.states, states]
    exact form_payload_agree form _ agree
  · rw [Session.check, Session.check, Session.states, Session.states, states]
    exact form_check_agree form _ agree
  · rw [Session.inputs, Session.inputs, Session.states, Session.states, states]

theorem answers_depend_on_readings (options : Document.Options) (document : Json) :
    let form := Form.ofDocument options document
    (∀ v w, Snapshot.AgreeOn form.readPaths v w →
      form.evaluate v = form.evaluate w ∧
      form.payload (form.evaluate v) v = form.payload (form.evaluate w) w ∧
      form.check (form.evaluate v) v = form.check (form.evaluate w) w ∧
      visibleInputs form.fields (form.evaluate v) = visibleInputs form.fields (form.evaluate w)) ∧
    ∀ v w edits others,
      let a := (Session.mk form v).finish edits
      let b := (Session.mk form w).finish others
      (∀ key, Members.find? key a.values = Members.find? key b.values) → Session.SameAnswers a b := by
  intro form
  constructor
  · intro v w agree
    have answers := answers_agree options document ⟨form, v⟩ ⟨form, w⟩ rfl rfl agree
    exact ⟨answers.states, answers.payload, answers.check, answers.inputs⟩
  · intro v w edits others a b same
    have compiled : a.form = form := Session.finish_form ⟨form, v⟩ edits
    have shared : b.form = form := Session.finish_form ⟨form, w⟩ others
    exact answers_agree options document a b compiled (shared.trans compiled.symm)
      fun path _ => Snapshot.lookup_same_entries a.values b.values same path

theorem entries_in_either_order (first second : String) (a b : Json) (different : first ≠ second)
    (key : String) : Members.find? key [(first, a), (second, b)] =
      Members.find? key [(second, b), (first, a)] := by
  by_cases one : key = first
  · subst one
    simp [Members.find?, different]
  · by_cases two : key = second
    · subst two
      simp [Members.find?, one]
    · simp [Members.find?, one, two]

theorem mode_answers_agree :
    let form := Form.ofDocument {} modeDocument
    form.evaluate [("MODE", .text "1"), ("X", .number (.whole 2)), ("NOTE", .null)] =
        form.evaluate [("X", .number (.whole 2)), ("MODE", .text "1")] ∧
      Session.SameAnswers
        ((Session.mk form []).finish [.set "MODE" (.text "1"), .set "X" (.number (.whole 2))])
        ((Session.mk form []).finish
          [.set "X" .null, .set "MODE" (.text "1"), .set "X" (.number (.whole 2))]) := by
  have answers := answers_depend_on_readings {} modeDocument
  have paths : (Form.ofDocument {} modeDocument).readPaths =
      ["TYPE", "MODE", "MODE", "__section_branch_0", "__section_branch_0", "MODE", "X", "X", "MODE",
        "MODE"] := by decide +kernel
  refine ⟨(answers.1 _ _ ?_).1, answers.2 [] [] _ _ ?_⟩
  · intro path read
    rw [paths] at read
    simp only [List.mem_cons, List.not_mem_nil, or_false] at read
    rcases read with rfl | rfl | rfl | rfl | rfl | rfl | rfl | rfl | rfl | rfl
    all_goals rfl
  · exact entries_in_either_order "MODE" "X" (.text "1") (.number (.whole 2)) (by decide)

end ConditionalForm
