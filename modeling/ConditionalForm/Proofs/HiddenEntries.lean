import ConditionalForm.Document.Compile
import ConditionalForm.Proofs.LookUps
import ConditionalForm.Proofs.ReachedFields

set_option autoImplicit false

namespace ConditionalForm

def Snapshot.ReadsUnder (name path : String) : Prop :=
  path = name ∨ (name ++ ".").toList <+: path.toList

instance (name path : String) : Decidable (Snapshot.ReadsUnder name path) :=
  inferInstanceAs (Decidable (_ ∨ _))

def Snapshot.DifferOnlyAt (name : String) (v w : Snapshot) : Prop :=
  ∀ key, key ≠ name → Members.find? key v = Members.find? key w

theorem lookup_elsewhere (name : String) (v w : Snapshot) (elsewhere : Snapshot.DifferOnlyAt name v w)
    (path : String) (apart : ¬ Snapshot.ReadsUnder name path) : v.lookup path = w.lookup path := by
  have whole : path ≠ name := fun same => apart (.inl same)
  have outer : Snapshot.firstSegment path ≠ name := by
    intro same
    rcases Snapshot.first_segment_cases path with only | ⟨rest, split⟩
    · exact whole (only.trans same)
    · refine apart (.inr ⟨rest.toList, ?_⟩)
      rw [split, same]
      simp
  exact Snapshot.lookup_agree v w path (elsewhere path whole) (elsewhere _ outer)

namespace Form

def NothingBelow (form : Form) (name : String) : Prop :=
  ∀ field ∈ form.allFields, ¬ (name ++ ".").toList <+: field.path.toList ∧
    ¬ (name ++ "[").toList <+: field.path.toList

instance (form : Form) (name : String) : Decidable (form.NothingBelow name) :=
  List.decidableBAll _ form.allFields

def HidesAll (form : Form) (states : StateMap) (name : String) : Prop :=
  ∀ field ∈ form.fields, field.name = name → ¬ Shown states field

instance (form : Form) (states : StateMap) (name : String) : Decidable (form.HidesAll states name) :=
  List.decidableBAll _ form.fields

def Resolves (name : String) (v : Snapshot) (leaf : Field) : Prop :=
  leaf.path ≠ name ∧ (Snapshot.ReadsUnder name leaf.name → (v.lookup leaf.path).isSome = true)

instance (name : String) (v : Snapshot) (leaf : Field) : Decidable (Resolves name v leaf) :=
  inferInstanceAs (Decidable (_ ∧ (_ → _)))

end Form

theorem entered_elsewhere (name : String) (v w : Snapshot) (elsewhere : Snapshot.DifferOnlyAt name v w)
    (leaf : Field) (above : ¬ (name ++ ".").toList <+: leaf.path.toList)
    (resolves : Form.Resolves name v leaf) : leaf.entered v = leaf.entered w := by
  obtain ⟨other, found⟩ := resolves
  have path : v.lookup leaf.path = w.lookup leaf.path :=
    lookup_elsewhere name v w elsewhere leaf.path (not_or.mpr ⟨other, above⟩)
  rw [Attributes.entered, Attributes.entered, ← path]
  by_cases reads : Snapshot.ReadsUnder name leaf.name
  · obtain ⟨value, own⟩ := Option.isSome_iff_exists.mp (found reads)
    rw [own, Option.some_or, Option.some_or]
  · rw [lookup_elsewhere name v w elsewhere leaf.name reads]

theorem hidden_entry_unread (form : Form) (states : StateMap) (name : String) (v w : Snapshot)
    (hidden : form.HidesAll states name) (elsewhere : Snapshot.DifferOnlyAt name v w)
    (below : form.NothingBelow name)
    (resolved : ∀ chain leaf, Reached form.fields chain leaf → chain ≠ [] ∨ leaf.name ≠ name →
      (∀ field ∈ chain ++ [leaf], Shown states field) → leaf.isGroup = false →
        Form.Resolves name v leaf) :
    form.payload states v = form.payload states w := by
  refine payload_agree form fun chain leaf reached shown isLeaf => ?_
  have other : chain ≠ [] ∨ leaf.name ≠ name := by
    cases reached with
    | top member data =>
        refine .inr fun same => hidden leaf member same ?_
        exact shown leaf List.mem_cons_self
    | inside member data group inner => exact .inl (List.cons_ne_nil _ _)
  exact entered_elsewhere name v w elsewhere leaf
    (below leaf (reached_walked form.fields chain leaf reached)).1
    (resolved chain leaf reached other shown isLeaf)

def namedDocument : Json := .object
  [("properties", .object
    [("NAME", .object [("type", .text "string"), ("x-visible-when", .object [("MODE", .text "A")])]),
      ("BEAM", .object
        [("type", .text "object"),
          ("properties", .object [("NAME", .object [("type", .text "string")])])])])]

def namedForm : Form := Form.ofDocument {} namedDocument

theorem own_name_sent :
    namedForm.payload (namedForm.evaluate []) [("NAME", .text "x"), ("BEAM.NAME", .text "y")] =
      namedForm.payload (namedForm.evaluate []) [("BEAM.NAME", .text "y")] := by
  have elsewhere : Snapshot.DifferOnlyAt "NAME" [("NAME", .text "x"), ("BEAM.NAME", .text "y")]
      [("BEAM.NAME", .text "y")] := by
    intro key other
    simp [Members.find?, other]
  have leaves : ∀ leaf ∈ namedForm.allFields, Shown (namedForm.evaluate []) leaf →
      leaf.isGroup = false →
        Form.Resolves "NAME" [("NAME", .text "x"), ("BEAM.NAME", .text "y")] leaf := by
    decide +kernel
  refine hidden_entry_unread namedForm _ "NAME" _ _ (by decide +kernel) elsewhere (by decide +kernel) ?_
  intro chain leaf reached _ shown isLeaf
  exact leaves leaf (reached_walked _ chain leaf reached)
    (shown leaf (List.mem_append_right _ List.mem_cons_self)) isLeaf

theorem hidden_name_sent_below :
    "NAME" ∈ (Document.properties (Document.unwrap namedDocument).schema).keys ∧
      namedForm.HidesAll (namedForm.evaluate [("NAME", .text "x")]) "NAME" ∧
      Snapshot.DifferOnlyAt "NAME" [("NAME", .text "x")] [] ∧ namedForm.NothingBelow "NAME" ∧
      namedForm.payload (namedForm.evaluate [("NAME", .text "x")]) [("NAME", .text "x")] ≠
        namedForm.payload (namedForm.evaluate [("NAME", .text "x")]) [] := by
  refine ⟨by decide +kernel, by decide +kernel, ?_, by decide +kernel, fun same => ?_⟩
  · intro key other
    simp [Members.find?, other]
  · have beams := congrArg (fun payload : Json => (payload.get? "BEAM").isSome) same
    exact absurd beams (by decide +kernel)

end ConditionalForm
