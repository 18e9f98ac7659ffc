import ConditionalForm.Proofs.CheckedPayload
import ConditionalForm.Proofs.ReachedFields
import ConditionalForm.Compiler

set_option autoImplicit false

namespace ConditionalForm

namespace Double

theorem log2_below (n bits : Nat) (positive : 0 < bits) (below : n < Nat.pow 2 bits) : Nat.log2 n < bits := by
  rcases Nat.eq_zero_or_pos n with rfl | other
  · simpa
  · exact (Nat.log2_lt (Nat.ne_of_gt other)).mpr below

theorem round_units_aligned (units : Nat) (aligned : spacing units ∣ units) : roundUnits units 1 = units := by
  have exact : units % spacing units = 0 := Nat.mod_eq_zero_of_dvd aligned
  have step : 0 < spacing units := Nat.pow_pos (by decide)
  rw [roundUnits, Nat.div_one, Nat.one_mul, roundDiv, exact, Nat.mul_zero, Nat.compare_eq_lt.mpr step]
  exact Nat.div_mul_cancel aligned

theorem spacing_divides (count bits : Nat) (short : count < Nat.pow 2 53) :
    spacing (count * Nat.pow 2 bits) ∣ Nat.pow 2 bits := by
  have length : Nat.log2 (count * Nat.pow 2 bits) < 53 + bits := by
    refine log2_below _ _ (by omega) ?_
    calc count * Nat.pow 2 bits < Nat.pow 2 53 * Nat.pow 2 bits :=
          Nat.mul_lt_mul_of_pos_right short (Nat.pow_pos (by decide))
      _ = Nat.pow 2 (53 + bits) := (Nat.pow_add 2 53 bits).symm
  exact Nat.pow_dvd_pow 2 (by omega)

-- A count of ones of at most 53 bits is a double, and rounding leaves it as it is.
theorem round_units_ones (count : Nat) (short : count < Nat.pow 2 53) :
    roundUnits (count * one) 1 = count * one := by
  unfold one
  generalize 1074 = bits
  exact round_units_aligned _ (Nat.dvd_mul_left_of_dvd (spacing_divides count bits short) count)

end Double

namespace Number

def isWhole : Number → Bool
  | .whole _ => true
  | .double x => x.isWhole

theorem signed_units_exact (n : Number) (short : ∀ k, n = .whole k → k.natAbs < Nat.pow 2 53) :
    n.signedUnits = n.exactUnits := by
  cases n with
  | double x => rfl
  | whole k =>
      have kept := Double.round_units_ones k.natAbs (short k rfl)
      rw [signedUnits, exactUnits, kept, Int.natCast_mul, ← Int.neg_mul]
      split
      · rw [Int.ofNat_natAbs_of_nonpos (by omega), Int.neg_neg]
      · rw [Int.natAbs_of_nonneg (by omega)]

end Number

namespace Json

def numeric? (value : Json) : Option Number := (value.coerce (.number (.whole 0))).number?

def SpellsNonFinite (value : Json) : Prop :=
  ∃ s, value = .text s ∧
    (NumericText.read? (Text.trimBlanks s) = some .infinite ∨
      NumericText.read? (Text.trimBlanks s) = some .notANumber)

theorem numeric_text (s : String) : (text s).numeric? = (spelled? s).map Number.double := by
  cases spelled : spelled? s <;> simp [numeric?, coerce, spelled, number?]

theorem numeric_units_numeric (value : Json) : value.numericUnits? = value.numeric?.map Number.signedUnits := by
  cases value with
  | text s =>
      rw [numeric_text, numericUnits?, Option.map_map]
      rfl
  | _ => rfl

theorem non_finite_text_iff (s : String) : (text s).SpellsNonFinite ↔
    NumericText.read? (Text.trimBlanks s) = some .infinite ∨
      NumericText.read? (Text.trimBlanks s) = some .notANumber := by
  simp [SpellsNonFinite]

theorem numeric_text_none_iff (s : String) (read : (NumericText.read? (Text.trimBlanks s)).isSome = true) :
    (text s).numeric? = none ↔ (text s).SpellsNonFinite := by
  rw [numeric_text, non_finite_text_iff, spelled?]
  cases found : NumericText.read? (Text.trimBlanks s) with
  | none => simp [found] at read
  | some reading => cases reading <;> simp

end Json

theorem numeric_accepts (type : FieldType) (numeric : type.isNumeric = true) (value : Json) :
    type.accepts value = FieldType.number.accepts value := by
  cases type with
  | number => rfl
  | integer => cases value <;> rfl
  | _ => cases numeric

theorem numeric_none_iff (type : FieldType) (numeric : type.isNumeric = true) (value : Json)
    (accepted : type.accepts value = true) : value.numeric? = none ↔ value.SpellsNonFinite := by
  rw [numeric_accepts type numeric] at accepted
  cases value with
  | number n => simp [Json.numeric?, Json.coerce, Json.number?, Json.SpellsNonFinite]
  | text s => exact Json.numeric_text_none_iff s accepted
  | _ => cases accepted

namespace Attributes

structure InBounds (field : Attributes) (units : Int) : Prop where
  minimum : ∀ least, field.minimum = some least → least.signedUnits ≤ units
  maximum : ∀ most, field.maximum = some most → units ≤ most.signedUnits

def KeepsLimits (field : Attributes) (value : Json) : Prop :=
  ∃ n, value.numeric? = some n ∧ field.InBounds n.signedUnits ∧ (field.type = .integer → n.isWhole = true)

theorem bound_fault_none_iff (field : Attributes) (numeric : field.type.isNumeric = true) (value : Json) :
    field.boundFault? value = none ↔ ∀ n, value.numeric? = some n → field.InBounds n.signedUnits := by
  rw [boundFault?, if_pos numeric, Json.numeric_units_numeric]
  cases value.numeric? with
  | none => simp
  | some n =>
      simp only [Option.map_some, Option.or_eq_none_iff, Option.map_eq_none_iff, Option.filter_eq_none_iff,
        decide_eq_true_eq, Int.not_lt]
      constructor
      · rintro ⟨least, most⟩ m ⟨⟩
        exact ⟨least, most⟩
      · intro within
        exact ⟨(within n rfl).minimum, (within n rfl).maximum⟩

theorem numeric_count_fault (field : Attributes) (numeric : field.type.isNumeric = true) (value : Json)
    (accepted : field.type.accepts value = true) : field.countFault? value = none := by
  rw [numeric_accepts field.type numeric] at accepted
  cases value with
  | array items => cases accepted
  | _ => rfl

-- What is accepted as a number: it is of that type, among the choices if there are any, and within the limits
-- if it gives a number at all.
theorem numeric_fault_none_iff (field : Attributes) (numeric : field.type.isNumeric = true)
    (current : Option String) (value : Json) : field.valueFault? current value = none ↔
      field.type.accepts value = true ∧ field.choiceFault? value = none ∧
        field.currentChoiceFault? current value = none ∧
        ∀ n, value.numeric? = some n → field.InBounds n.signedUnits := by
  have typed : field.typeFault? value = none ↔ field.type.accepts value = true := by
    rw [typeFault?]
    cases field.type.accepts value <;> simp
  rw [valueFault?]
  simp only [Option.or_eq_none_iff, typed, bound_fault_none_iff field numeric]
  constructor
  · rintro ⟨accepted, choice, currentChoice, _, bounds⟩
    exact ⟨accepted, choice, currentChoice, bounds⟩
  · rintro ⟨accepted, choice, currentChoice, bounds⟩
    exact ⟨accepted, choice, currentChoice, numeric_count_fault field numeric value accepted, bounds⟩

end Attributes

theorem accepted_number_limits_iff (form : Form) (states : StateMap) (values : Snapshot)
    (checked : form.check states values = .ok ()) (field : Field) (member : field ∈ form.allFields)
    (data : field.isHeading = false) (shown : Shown states field) (numeric : field.type.isNumeric = true)
    (value : Json) (entered : field.entered values = some value) (filled : value.isFilled = true) :
    (field.KeepsLimits value ↔ ¬ value.SpellsNonFinite ∧
      (field.type = .integer → ∀ n, value.numeric? = some n → n.isWhole = true)) ∧
    (value.numeric? = none ↔ value.SpellsNonFinite) ∧
    ∀ n, value.numeric? = some n → field.InBounds n.signedUnits ∧
      ((∀ k, n = .whole k → k.natAbs < Nat.pow 2 53) → field.InBounds n.exactUnits) := by
  have unfaulted := (issue_none_iff states values field.toAttributes _ data shown).mp
    ((check_ok_iff states values form).mp checked field member)
  obtain ⟨accepted, _, _, bounds⟩ := (Attributes.numeric_fault_none_iff field.toAttributes numeric _ value).mp
    (((fault_none_iff field.toAttributes _ _ _).mp unfaulted).2 value entered filled)
  have finite := numeric_none_iff field.type numeric value accepted
  refine ⟨⟨?_, ?_⟩, finite, fun n given => ⟨bounds n given, fun short => ?_⟩⟩
  · rintro ⟨n, given, _, whole⟩
    refine ⟨fun spelled => ?_, fun integer m other => ?_⟩
    · cases given.symm.trans (finite.mpr spelled)
    · cases given.symm.trans other
      exact whole integer
  · rintro ⟨spelled, whole⟩
    obtain ⟨n, given⟩ := Option.ne_none_iff_exists'.mp (mt finite.mp spelled)
    exact ⟨n, given, bounds n given, fun integer => whole integer n given⟩
  · exact Number.signed_units_exact n short ▸ bounds n given

def limitedDocument : Json := .object
  [("properties", .object
      [("SPAN", .object [("type", .text "number"), ("maximum", .number (.whole 10))]),
        ("COUNT", .object [("type", .text "integer"), ("minimum", .number (.whole 1))])])]

def limitedForm : Form := Form.ofDocument {} limitedDocument

theorem limited_field_listed (place : Fin limitedForm.fields.length) :
    limitedForm.fields[place] ∈ limitedForm.allFields :=
  (Field.mem_walk_all_iff _ _).mpr ⟨_, List.getElem_mem _, .inl rfl⟩

theorem spelled_count_whole :
    let values : Snapshot := [("COUNT", .text " 4e1 ")]
    limitedForm.check (limitedForm.evaluate values) values = .ok () ∧
      limitedForm.fields[1].type = .integer ∧ limitedForm.fields[1].KeepsLimits (.text " 4e1 ") := by
  intro values
  have unissued : limitedForm.issues (limitedForm.evaluate values) values = [] := by decide +kernel
  have checked : limitedForm.check (limitedForm.evaluate values) values = .ok () := by
    rw [Form.check, unissued]
    rfl
  obtain ⟨kept, nonFinite, _⟩ := accepted_number_limits_iff limitedForm (limitedForm.evaluate values) values checked
    limitedForm.fields[1] (limited_field_listed ⟨1, by decide⟩) rfl (by decide +kernel) rfl (.text " 4e1 ") rfl rfl
  refine ⟨checked, rfl, kept.mpr ⟨fun spelled => ?_, fun _ n given => ?_⟩⟩
  · have number : (Json.text " 4e1 ").numeric?.isSome = true := by decide +kernel
    rw [nonFinite.mpr spelled] at number
    cases number
  · have whole : (Json.text " 4e1 ").numeric?.all Number.isWhole = true := by decide +kernel
    rw [given] at whole
    exact whole

def oneAndHalf : Double := ⟨false, Nat.pow 2 1074 + Nat.pow 2 1073, by decide +kernel⟩

theorem endless_span_accepted :
    let values : Snapshot := [("SPAN", .text "inf"), ("COUNT", .number (.double oneAndHalf))]
    let states := limitedForm.evaluate values
    limitedForm.check states values = .ok () ∧
      (∃ span ∈ limitedForm.allFields, span.isHeading = false ∧ Shown states span ∧ span.type = .number ∧
        span.maximum = Double.ofInt? 10 ∧ span.entered values = some (.text "inf") ∧
        ¬ span.KeepsLimits (.text "inf")) ∧
      ∃ count ∈ limitedForm.allFields, count.isHeading = false ∧ Shown states count ∧ count.type = .integer ∧
        count.entered values = some (.number (.double oneAndHalf)) ∧
        ¬ count.KeepsLimits (.number (.double oneAndHalf)) := by
  intro values states
  have unissued : limitedForm.issues states values = [] := by decide +kernel
  have checked : limitedForm.check states values = .ok () := by
    rw [Form.check, unissued]
    rfl
  have endless : ¬ limitedForm.fields[0].KeepsLimits (.text "inf") := by
    rintro ⟨n, given, _⟩
    have none : (Json.text "inf").numeric?.isNone = true := by decide +kernel
    rw [given] at none
    cases none
  have fractional : ¬ limitedForm.fields[1].KeepsLimits (.number (.double oneAndHalf)) := by
    rintro ⟨n, given, _, whole⟩
    have fraction : oneAndHalf.isWhole = false := by decide +kernel
    cases given
    cases (whole rfl).symm.trans fraction
  exact ⟨checked,
    ⟨_, limited_field_listed ⟨0, by decide⟩, rfl, by decide +kernel, rfl, by decide +kernel, rfl, endless⟩,
    _, limited_field_listed ⟨1, by decide⟩, rfl, by decide +kernel, rfl, rfl, fractional⟩

end ConditionalForm
