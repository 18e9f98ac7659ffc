import ConditionalForm.Json.Printer

set_option autoImplicit false

namespace ConditionalForm

inductive Expected where
  | one (value : Json)
  | anyOf (values : List Json)
deriving Repr

namespace Expected

def ofJson : Json → Expected
  | .array values => .anyOf values
  | value => .one value

def values : Expected → List Json
  | .one value => [value]
  | .anyOf values => values

def label (expected : Expected) : String := " or ".intercalate (expected.values.map Json.display)

-- One value and a list of one value are different demands.
def same : Expected → Expected → Bool
  | .one a, .one b => a == b
  | .anyOf as, .anyOf bs => Json.sameItems as bs
  | _, _ => false

end Expected

structure Clause where
  field : String
  expected : Expected
deriving Repr

namespace Clause

def label (clause : Clause) : String :=
  "\"" ++ clause.field ++ "\" is " ++ clause.expected.label

def same (a b : Clause) : Bool := a.field == b.field && a.expected.same b.expected

end Clause

structure Condition where
  clauses : List Clause
deriving Repr

namespace Condition

def ofJson? : Json → Option Condition
  | .object [] => none
  | .object members => some ⟨members.map fun member => ⟨member.1, Expected.ofJson member.2⟩⟩
  | _ => none

def isEmpty (condition : Condition) : Bool := condition.clauses.isEmpty

def clause? (field : String) (condition : Condition) : Option Clause :=
  condition.clauses.find? fun clause => clause.field == field

def add (clauses : List Clause) (clause : Clause) : List Clause :=
  if clauses.any (·.same clause) then clauses else clauses ++ [clause]

def both (first second : Condition) : Condition := ⟨second.clauses.foldl add first.clauses⟩

def label (condition : Condition) : String := ", ".intercalate (condition.clauses.map Clause.label)

end Condition

structure Predicate where
  condition : Condition
  label : String
deriving Repr

namespace Predicate

def ofCondition (condition : Condition) : Predicate := ⟨condition, condition.label⟩

def entryCondition? (entry : Json) : Option Condition :=
  Condition.ofJson? ((entry.get? "condition").getD entry)

-- Reads a condition, or a list of conditions, of which the first is judged and all are shown.
def ofJson? : Json → Option Predicate
  | .array entries =>
      match entries.filterMap entryCondition? with
      | [] => none
      | first :: others =>
          some ⟨first, " | ".intercalate ((first :: others).map Condition.label)⟩
  | value => (Condition.ofJson? value).map ofCondition

end Predicate

end ConditionalForm
