import ConditionalForm.Proofs.PayloadEntries
import ConditionalForm.Proofs.WellFormed
import Mathlib.Data.List.Perm.Subperm

set_option autoImplicit false

namespace ConditionalForm

namespace Number

theorem same_trans (a b c : Number) (first : a.same b = true) (second : b.same c = true) : a.same c = true := by
  cases a <;> cases b <;> cases c <;> simp_all [same, Double.same]

theorem same_symm (a b : Number) (equal : a.same b = true) : b.same a = true := by
  cases a <;> cases b <;> simp_all [same, Double.same]

theorem same_units (a b : Number) (equal : a.same b = true) : a.signedUnits = b.signedUnits := by
  cases a <;> cases b <;> simp_all [same, Double.same, signedUnits]

end Number

namespace Json

inductive Alike : Json → Json → Prop
  | null : Alike .null .null
  | bool (b : Bool) : Alike (.bool b) (.bool b)
  | number (m n : Number) (equal : m.same n = true) : Alike (.number m) (.number n)
  | text (s : String) : Alike (.text s) (.text s)
  | array (as bs : List Json) (items : sameItems as bs = true) : Alike (.array as) (.array bs)
  | object (as bs : Members) (count : as.length = bs.length) (members : sameMembers as bs = true) :
      Alike (.object as) (.object bs)

theorem same_alike (a b : Json) (equal : same a b = true) : Alike a b := by
  cases a with
  | null =>
      cases b with
      | null => exact .null
      | _ => cases equal
  | bool x =>
      cases b with
      | bool y => exact beq_iff_eq.mp (show (x == y) = true from equal) ▸ .bool x
      | _ => cases equal
  | number m =>
      cases b with
      | number n => exact .number m n equal
      | _ => cases equal
  | text s =>
      cases b with
      | text t => exact beq_iff_eq.mp (show (s == t) = true from equal) ▸ .text s
      | _ => cases equal
  | array as =>
      cases b with
      | array bs => exact .array as bs equal
      | _ => cases equal
  | object as =>
      cases b with
      | object bs =>
          obtain ⟨count, members⟩ := Bool.and_eq_true_iff.mp
            (show (as.length == bs.length && sameMembers as bs) = true from equal)
          exact .object as bs (beq_iff_eq.mp count) members
      | _ => cases equal

theorem alike_same (a b : Json) (alike : Alike a b) : same a b = true := by
  cases alike with
  | null => rfl
  | bool b => exact beq_self_eq_true b
  | number m n equal => exact equal
  | text s => exact beq_self_eq_true s
  | array as bs items => exact items
  | object as bs count members => exact Bool.and_eq_true_iff.mpr ⟨beq_iff_eq.mpr count, members⟩

theorem same_members_iff (as bs : Members) :
    sameMembers as bs = true ↔ ∀ member ∈ as, ∃ b, Members.find? member.1 bs = some b ∧ same member.2 b = true := by
  induction as with
  | nil => simp [sameMembers]
  | cons member as ih =>
      obtain ⟨name, a⟩ := member
      rw [sameMembers, Bool.and_eq_true, ih, List.forall_mem_cons]
      refine and_congr_left fun _ => ?_
      cases Members.find? name bs <;> simp

mutual
theorem same_trans (a b c : Json) (first : same a b = true) (second : same b c = true) : same a c = true := by
  cases a with
  | array as =>
      cases same_alike _ b first with
      | array _ bs items =>
          cases same_alike _ c second with
          | array _ cs next => exact same_items_trans as bs cs items next
  | object as =>
      cases same_alike _ b first with
      | object _ bs count members =>
          cases same_alike _ c second with
          | object _ cs nextCount next =>
              refine alike_same _ _ (.object as cs (count.trans nextCount) ((same_members_iff as cs).mpr ?_))
              exact same_member_trans as bs cs members next
  | number m =>
      cases same_alike _ b first with
      | number _ n equal =>
          cases same_alike _ c second with
          | number _ k next => exact Number.same_trans m n k equal next
  | null => cases same_alike _ b first with | null => exact second
  | bool x => cases same_alike _ b first with | bool => exact second
  | text s => cases same_alike _ b first with | text => exact second
termination_by structural a

theorem same_items_trans (as bs cs : List Json) (first : sameItems as bs = true) (second : sameItems bs cs = true) :
    sameItems as cs = true := by
  cases as with
  | nil =>
      cases bs with
      | nil => exact second
      | cons b bs => cases first
  | cons a as =>
      cases bs with
      | nil => cases first
      | cons b bs =>
          cases cs with
          | nil => cases second
          | cons c cs =>
              simp only [sameItems, Bool.and_eq_true] at first second ⊢
              exact ⟨same_trans a b c first.1 second.1, same_items_trans as bs cs first.2 second.2⟩
termination_by structural as

theorem same_member_trans (as bs cs : Members) (first : sameMembers as bs = true) (second : sameMembers bs cs = true) :
    ∀ member ∈ as, ∃ c, Members.find? member.1 cs = some c ∧ same member.2 c = true := by
  cases as with
  | nil => exact nofun
  | cons head tail =>
      obtain ⟨name, a⟩ := head
      rw [sameMembers, Bool.and_eq_true] at first
      intro member listed
      rcases List.mem_cons.mp listed with rfl | later
      · cases found : Members.find? name bs with
        | none => simp [found] at first
        | some b =>
            obtain ⟨c, inLast, equal⟩ := (same_members_iff bs cs).mp second _ (Members.mem_of_find name bs b found)
            rw [found] at first
            exact ⟨c, inLast, same_trans a b c first.1 equal⟩
      · exact same_member_trans tail bs cs first.2 second member later
termination_by structural as
end

-- Two objects have as many members: if the names of the first are distinct and among those of the second, the
-- second has no other names.
theorem same_names (as bs : Members) (distinct : as.keys.Nodup) (count : as.length = bs.length)
    (within : sameMembers as bs = true) : as.keys.Perm bs.keys := by
  have inside : as.keys ⊆ bs.keys := by
    intro name member
    obtain ⟨entry, listed, rfl⟩ := List.mem_map.mp member
    obtain ⟨b, found, _⟩ := (same_members_iff as bs).mp within entry listed
    exact List.mem_map.mpr ⟨(entry.1, b), Members.mem_of_find entry.1 bs b found, rfl⟩
  apply (distinct.subperm inside).perm_of_length_le
  simp [Members.keys, count]

mutual
theorem same_symm (a b : Json) (whole : a.WellFormed) (equal : same a b = true) : same b a = true := by
  cases a with
  | array as =>
      cases same_alike _ b equal with
      | array _ bs items => exact same_items_symm as bs whole items
  | object as =>
      cases same_alike _ b equal with
      | object _ bs count members =>
          have names := same_names as bs whole.1 count members
          refine alike_same _ _ (.object bs as count.symm ((same_members_iff bs as).mpr fun member listed => ?_))
          obtain ⟨entry, inFirst, named⟩ := List.mem_map.mp (names.mem_iff.mpr (List.mem_map_of_mem listed))
          obtain ⟨b, found, alike⟩ := (same_members_iff as bs).mp members entry inFirst
          rw [named, Members.find_of_mem bs (names.nodup_iff.mp whole.1) member listed] at found
          cases found
          refine ⟨entry.2, ?_, same_member_symm as whole.2 entry inFirst member.2 alike⟩
          rw [← named, Members.find_of_mem as whole.1 entry inFirst]
  | number m =>
      cases same_alike _ b equal with
      | number _ n alike => exact Number.same_symm m n alike
  | null => cases same_alike _ b equal with | null => exact equal
  | bool x => cases same_alike _ b equal with | bool => exact equal
  | text s => cases same_alike _ b equal with | text => exact equal
termination_by structural a

theorem same_items_symm (as bs : List Json) (whole : WellFormedItems as) (equal : sameItems as bs = true) :
    sameItems bs as = true := by
  cases as with
  | nil =>
      cases bs with
      | nil => rfl
      | cons b bs => cases equal
  | cons a as =>
      cases bs with
      | nil => cases equal
      | cons b bs =>
          simp only [sameItems, Bool.and_eq_true] at equal ⊢
          exact ⟨same_symm a b whole.1 equal.1, same_items_symm as bs whole.2 equal.2⟩
termination_by structural as

theorem same_member_symm (as : Members) (whole : WellFormedMembers as) (member : String × Json)
    (listed : member ∈ as) (b : Json) (equal : same member.2 b = true) : same b member.2 = true := by
  cases as with
  | nil => cases listed
  | cons head tail =>
      obtain ⟨name, a⟩ := head
      rcases List.mem_cons.mp listed with rfl | later
      · exact same_symm a b whole.1 equal
      · exact same_member_symm tail whole.2 member later b equal
termination_by structural as
end

section Exchange

variable (a b : Json) (whole : a.WellFormed) (equal : same a b = true)

include equal

theorem coerce_same (actual : Json) : actual.coerce a = actual.coerce b := by
  cases same_alike a b equal with
  | number m n _ => cases actual <;> rfl
  | array as bs _ => cases actual <;> rfl
  | object as bs _ _ => cases actual <;> rfl
  | _ => rfl

include whole

theorem same_value_same (value : Json) : value.sameValue a = value.sameValue b := by
  have exchanged : same value a = same value b := by
    rw [Bool.eq_iff_iff]
    constructor
    · intro found
      exact same_trans value a b found equal
    · intro found
      exact same_trans value b a found (same_symm a b whole equal)
  cases same_alike a b equal with
  | number m n alike =>
      cases value with
      | number k => exact congrArg (k.signedUnits == ·) (Number.same_units m n alike)
      | _ => rfl
  | _ => cases value <;> exact exchanged

end Exchange

theorem any_same_value (as bs : List Json) (whole : WellFormedItems as) (equal : sameItems as bs = true)
    (value : Json) : as.any value.sameValue = bs.any value.sameValue := by
  induction as generalizing bs with
  | nil =>
      cases bs with
      | nil => rfl
      | cons b bs => cases equal
  | cons a as ih =>
      cases bs with
      | nil => cases equal
      | cons b bs =>
          obtain ⟨first, rest⟩ := Bool.and_eq_true_iff.mp (show (same a b && sameItems as bs) = true from equal)
          rw [List.any_cons, List.any_cons, same_value_same a b whole.1 first, ih bs whole.2 rest]

end Json

def Expected.WellFormed (expected : Expected) : Prop := ∀ value ∈ expected.values, value.WellFormed

def Condition.WellFormed (condition : Condition) : Prop :=
  ∀ clause ∈ condition.clauses, clause.expected.WellFormed

theorem expected_same_accepts (a b : Expected) (whole : a.WellFormed) (equal : a.same b = true) (actual : Json) :
    a.accepts actual = b.accepts actual := by
  cases a with
  | one x =>
      cases b with
      | one y =>
          have alike : Json.same x y = true := equal
          have wholeValue : x.WellFormed := whole x (by simp [Expected.values])
          rw [Expected.accepts, Expected.accepts, Json.coerce_same x y alike, Json.same_value_same x y wholeValue alike]
      | anyOf ys => cases equal
  | anyOf xs =>
      cases b with
      | one y => cases equal
      | anyOf ys =>
          have items : Json.sameItems xs ys = true := equal
          have wholeItems := (Json.well_formed_items_iff xs).mpr whole
          cases xs with
          | nil =>
              cases ys with
              | nil => rfl
              | cons y ys => cases items
          | cons x xs =>
              cases ys with
              | nil => cases items
              | cons y ys =>
                  have first : Json.same x y = true := (Bool.and_eq_true_iff.mp items).1
                  rw [Expected.accepts, Expected.accepts, Json.coerce_same x y first]
                  exact Json.any_same_value (x :: xs) (y :: ys) wholeItems items _

theorem clause_same_holds (a b : Clause) (whole : a.expected.WellFormed) (equal : a.same b = true) (values : Snapshot) :
    a.holds values = b.holds values := by
  obtain ⟨field, expected⟩ := Bool.and_eq_true_iff.mp equal
  rw [Clause.holds, Clause.holds, beq_iff_eq.mp field]
  cases values.lookup b.field with
  | none => rfl
  | some actual => exact expected_same_accepts a.expected b.expected whole expected actual

theorem add_holds (condition : Condition) (clause : Clause) (whole : condition.WellFormed) (values : Snapshot) :
    Condition.holds values ⟨Condition.add condition.clauses clause⟩ =
      (condition.holds values && clause.holds values) := by
  by_cases repeated : condition.clauses.any (·.same clause) = true
  · obtain ⟨existing, listed, equal⟩ := List.any_eq_true.mp repeated
    have alike := clause_same_holds existing clause (whole existing listed) equal values
    rw [Condition.add, if_pos repeated, ← alike]
    cases holds : condition.holds values with
    | false => rw [Bool.false_and, ← holds]
    | true => rw [List.all_eq_true.mp holds existing listed, Bool.true_and, ← holds]
  · rw [Condition.add, if_neg repeated, Condition.holds, List.all_append, Condition.holds]
    simp

end ConditionalForm
