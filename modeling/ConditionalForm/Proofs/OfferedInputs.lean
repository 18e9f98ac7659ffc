import ConditionalForm.Proofs.Senders
import ConditionalForm.View.Input

set_option autoImplicit false

namespace ConditionalForm

variable (states : StateMap)

theorem mem_inputs_iff (parent : Option String) (fields : List Field) (input : Input) :
    input ∈ inputs parent fields ↔ ∃ field ∈ fields, field.isHeading = false ∧ input = field.input parent := by
  induction fields with
  | nil => simp [inputs]
  | cons field fields ih =>
      rw [inputs]
      by_cases heading : field.isHeading = true
      · simp [heading, ih]
      · simp [heading, ih]

theorem mem_retain_visible_iff (sources : List Input) (input : Input) :
    input ∈ retainVisible states sources ↔
      ∃ source ∈ sources, (StateMap.stateAt states source.path).visible = true ∧ input = source.retain states := by
  induction sources with
  | nil => simp [retainVisible]
  | cons source sources ih =>
      rw [retainVisible]
      by_cases visible : (StateMap.stateAt states source.path).visible = true
      · simp [visible, ih]
      · simp [visible, ih]

theorem input_path (parent : Option String) (field : Field) : (field.input parent).path = field.path := by
  cases field
  simp [Field.input, Attributes.input]

def Field.offer (parent : Option String) (field : Field) : Input := (field.input parent).retain states

theorem offer_path (parent : Option String) (field : Field) : (field.offer states parent).path = field.path := by
  cases field
  simp [Field.offer, Field.input, Input.retain, Attributes.input]

theorem offer_name (parent : Option String) (field : Field) : (field.offer states parent).name = field.name := by
  cases field
  simp [Field.offer, Field.input, Input.retain, Attributes.input]

theorem offer_children (parent : Option String) (field : Field) :
    (field.offer states parent).children = retainVisible states (inputs (some field.name) field.children) := by
  cases field
  simp [Field.offer, Field.input, Input.retain]

theorem mem_offered_iff (parent : Option String) (fields : List Field) (input : Input) :
    input ∈ retainVisible states (inputs parent fields) ↔
      ∃ field ∈ fields, field.isHeading = false ∧ Shown states field ∧ input = field.offer states parent := by
  rw [mem_retain_visible_iff]
  constructor
  · rintro ⟨source, member, visible, rfl⟩
    obtain ⟨field, inFields, data, rfl⟩ := (mem_inputs_iff parent fields source).mp member
    rw [input_path] at visible
    exact ⟨field, inFields, data, visible, rfl⟩
  · rintro ⟨field, inFields, data, shown, rfl⟩
    have member := (mem_inputs_iff parent fields _).mpr ⟨field, inFields, data, rfl⟩
    refine ⟨field.input parent, member, ?_, rfl⟩
    rw [input_path]
    exact shown

inductive Offered : List Input → List String → Input → Prop
  | here {inputs : List Input} {input : Input} (member : input ∈ inputs) : Offered inputs [input.name] input
  | inside {inputs : List Input} {outer : Input} {names : List String} {input : Input}
      (member : outer ∈ inputs) (inner : Offered outer.children names input) :
      Offered inputs (outer.name :: names) input

variable (values : Snapshot)

theorem sender_offered (parent : Option String) (name : String) (fields : List Field) (field : Field)
    (sender : sender? states values name fields = some field) :
    field.offer states parent ∈ retainVisible states (inputs parent fields) ∧
      (field.offer states parent).name = name := by
  obtain ⟨member, data, same, sends⟩ := sender_cases states values name fields field sender
  obtain ⟨value, sent⟩ := Option.isSome_iff_exists.mp sends
  have shown : Shown states field := entry_shown states values field value sent
  exact ⟨(mem_offered_iff states parent fields _).mpr ⟨field, member, data, shown, rfl⟩,
    (offer_name states parent field).trans same⟩

theorem placed_offered (parent : Option String) (fields : List Field) (names : List String) (field : Field)
    (placed : Placed states values fields names field) :
    ∃ input, Offered (retainVisible states (inputs parent fields)) names input ∧ input.path = field.path := by
  induction placed generalizing parent with
  | here sender =>
      obtain ⟨member, rfl⟩ := sender_offered states values parent _ _ _ sender
      exact ⟨_, .here member, offer_path states parent _⟩
  | @inside fields name group names field sender outer _ ih =>
      obtain ⟨member, rfl⟩ := sender_offered states values parent _ _ _ sender
      obtain ⟨input, below, path⟩ := ih (some group.name)
      rw [← offer_children states parent group] at below
      exact ⟨input, .inside member below, path⟩

theorem required_offer_sent (parent : Option String) (fields : List Field) (input : Input)
    (offered : input ∈ retainVisible states (inputs parent fields))
    (required : (StateMap.stateAt states input.path).requiredNow = true) :
    Members.contains input.name (assemble states values [] fields) = true := by
  obtain ⟨field, member, data, shown, rfl⟩ := (mem_offered_iff states parent fields input).mp offered
  rw [offer_path] at required
  rw [offer_name, assemble_contains_iff]
  exact ⟨field, member, data, rfl, required_entry_sent states values field shown required⟩

theorem payload_offered (form : Form) (states : StateMap) (values : Snapshot) :
    (∀ names value, names ≠ [] → Snapshot.descend names (form.payload states values) = some value →
      ∃ front back field, names = front ++ back ∧ Placed states values form.fields front field ∧
        (back ≠ [] → field.isGroup = false)) ∧
    (∀ names field, Placed states values form.fields names field →
      (∃ value, Snapshot.descend names (form.payload states values) = some value ∧
        field.entry states values = some value) ∧
      ∃ input, Offered (visibleInputs form.fields states) names input ∧ input.path = field.path) ∧
    ∀ input ∈ visibleInputs form.fields states, (StateMap.stateAt states input.path).requiredNow = true →
      ∃ value, (form.payload states values).get? input.name = some value := by
  refine ⟨fun names value inner found => ?_, fun names field placed => ⟨?_, ?_⟩, fun input offered required => ?_⟩
  · exact found_placed states values form.fields names value inner found
  · exact placed_entry states values form.fields names field placed
  · exact placed_offered states values none form.fields names field placed
  · have held := required_offer_sent states values none form.fields input offered required
    exact Option.isSome_iff_exists.mp held

def framesForm : Form where
  fields :=
    [{ path := "__section_branch_0", name := "__section_branch_0", heading := some "Frames" },
      { path := "FRAME", name := "FRAME", type := .object, children :=
        [{ path := "FRAME.SPAN", name := "SPAN", type := .number }] },
      { path := "branch_1.FRAME", name := "FRAME", type := .object, children :=
        [{ path := "branch_1.FRAME.SPAN", name := "SPAN", type := .number }] },
      { path := "NOTE", name := "NOTE" }]

def framesStates : StateMap := [("FRAME", .hidden), ("NOTE", ⟨true, .required, true, true⟩)]

theorem second_frame_offered :
    let values : Snapshot := [("SPAN", .number (.whole 4))]
    let offered := visibleInputs framesForm.fields framesStates
    (∃ front back field, ["FRAME", "SPAN"] = front ++ back ∧
      Placed framesStates values framesForm.fields front field ∧ (back ≠ [] → field.isGroup = false)) ∧
    (∃ input, Offered offered ["FRAME", "SPAN"] input ∧ input.path = "branch_1.FRAME.SPAN") ∧
      ∃ input ∈ offered, (StateMap.stateAt framesStates input.path).requiredNow = true ∧
        ∃ value, (framesForm.payload framesStates values).get? input.name = some value := by
  intro values offered
  obtain ⟨complete, shown, sent⟩ := payload_offered framesForm framesStates values
  have note : ∃ input ∈ offered, (StateMap.stateAt framesStates input.path).requiredNow = true :=
    ⟨_, List.mem_cons_of_mem _ List.mem_cons_self, by decide⟩
  obtain ⟨input, member, required⟩ := note
  exact ⟨complete ["FRAME", "SPAN"] _ nofun rfl, (shown ["FRAME", "SPAN"] _ (.inside rfl rfl (.here rfl))).2,
    input, member, required, sent input member required⟩

end ConditionalForm
