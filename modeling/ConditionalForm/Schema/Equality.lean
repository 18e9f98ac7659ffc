import ConditionalForm.Json.Basic

set_option autoImplicit false

namespace ConditionalForm

namespace Number

def equal (a b : Number) : Bool := a.exactUnits == b.exactUnits

def distance (a b : Number) : Nat := Double.roundUnits (a.signedUnits - b.signedUnits).natAbs 1

def tolerance : Nat := Nat.pow 2 (1074 - 52)

def near (a b : Number) : Bool := a.distance b < tolerance

end Number

namespace Json

mutual
def equal : Json → Json → Bool
  | .null, .null => true
  | .bool a, .bool b => a == b
  | .number a, .number b => a.equal b
  | .text a, .text b => a == b
  | .array as, .array bs => equalItems as bs
  | .object as, .object bs => equalMembers as bs
  | _, _ => false

def equalItems : List Json → List Json → Bool
  | [], [] => true
  | a :: as, b :: bs => equal a b && equalItems as bs
  | _, _ => false

def equalMembers : List (String × Json) → List (String × Json) → Bool
  | [], [] => true
  | (name, a) :: as, (other, b) :: bs => name == other && equal a b && equalMembers as bs
  | _, _ => false
end

def matchesConstant (constant : Json) : Json → Bool
  | .number n =>
      match constant with
      | .number m => m.near n
      | _ => false
  | value => constant.equal value

end Json

end ConditionalForm
