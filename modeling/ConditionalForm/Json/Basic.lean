import ConditionalForm.Number.Notation

set_option autoImplicit false

namespace ConditionalForm

inductive Number where
  | whole (n : Int)
  | double (x : Double)
deriving DecidableEq, Repr

namespace Number

def signedUnits : Number → Int
  | .whole n => if n < 0 then -(Double.roundUnits (n.natAbs * Double.one) 1 : Int)
      else (Double.roundUnits (n.natAbs * Double.one) 1 : Int)
  | .double x => x.signedUnits

def exactUnits : Number → Int
  | .whole n => n * Double.one
  | .double x => x.signedUnits

-- Equal as doubles; whole numbers are rounded to the nearest double first.
def sameValue (a b : Number) : Bool := a.signedUnits == b.signedUnits

def same : Number → Number → Bool
  | .whole a, .whole b => a == b
  | .double a, .double b => a.same b
  | _, _ => false

def toDouble? : Number → Option Double
  | .whole n => Double.ofInt? n
  | .double x => some x

-- Doubles are written with the fewest digits that read back: positionally with a fraction when the
-- leading digit stands for 10^-5 up to 10^15, with a signed power of ten otherwise.
def format : DecimalFormat where
  positional := fun e => -5 ≤ e && e < 16
  keepsFraction := true
  tie := .toEven

def render : Number → String
  | .whole n => toString n
  | .double x => format.render x

end Number

inductive Json where
  | null
  | bool (b : Bool)
  | number (n : Number)
  | text (s : String)
  | array (items : List Json)
  | object (members : List (String × Json))
deriving Repr

instance : Inhabited Json := ⟨.null⟩

abbrev Members := List (String × Json)

def Members.find? (name : String) : Members → Option Json
  | [] => none
  | (key, value) :: tail => if name = key then some value else find? name tail

namespace Json

mutual
def same : Json → Json → Bool
  | .null, .null => true
  | .bool a, .bool b => a == b
  | .number a, .number b => a.same b
  | .text a, .text b => a == b
  | .array as, .array bs => sameItems as bs
  | .object as, .object bs => as.length == bs.length && sameMembers as bs
  | _, _ => false

def sameItems : List Json → List Json → Bool
  | [], [] => true
  | a :: as, b :: bs => same a b && sameItems as bs
  | _, _ => false

def sameMembers : List (String × Json) → List (String × Json) → Bool
  | [], _ => true
  | (name, a) :: as, bs =>
      (match Members.find? name bs with
      | some b => same a b
      | none => false) && sameMembers as bs
end

instance : BEq Json := ⟨same⟩

def members? : Json → Option Members
  | .object members => some members
  | _ => none

def items? : Json → Option (List Json)
  | .array items => some items
  | _ => none

def text? : Json → Option String
  | .text s => some s
  | _ => none

def number? : Json → Option Number
  | .number n => some n
  | _ => none

def isNull : Json → Bool
  | .null => true
  | _ => false

def get? (name : String) : Json → Option Json
  | .object members => Members.find? name members
  | _ => none

def textItems (value : Option Json) : List String :=
  ((value.bind items?).getD []).filterMap text?

def kind : Json → String
  | .null => "null"
  | .bool _ => "boolean"
  | .number _ => "number"
  | .text _ => "string"
  | .array _ => "array"
  | .object _ => "object"

end Json

namespace Members

def insert (name : String) (value : Json) : Members → Members
  | [] => [(name, value)]
  | (key, old) :: tail =>
      if name = key then (key, value) :: tail else (key, old) :: insert name value tail

def erase (name : String) (members : Members) : Members :=
  members.filter fun member => member.1 != name

def contains (name : String) (members : Members) : Bool := (find? name members).isSome

def keys (members : Members) : List String := members.map Prod.fst

-- Every member in turn; a repeated name keeps its first place and its last value.
def ofList (entries : List (String × Json)) : Members :=
  entries.foldl (fun members entry => insert entry.1 entry.2 members) []

def overlay (base own : Members) : Members :=
  own.foldl (fun members entry => insert entry.1 entry.2 members) base

end Members

end ConditionalForm
