set_option autoImplicit false

namespace ConditionalForm

def Double.one : Nat := Nat.pow 2 1074

def Double.spacing (units : Nat) : Nat := Nat.pow 2 (Nat.log2 units + 1 - 53)

def Double.representable (units : Nat) : Bool :=
  units % Double.spacing units == 0 && Nat.log2 units < 2098

structure Double where
  negative : Bool
  units : Nat
  isRepresentable : Double.representable units = true
deriving DecidableEq, Repr

namespace Double

def ofUnits? (negative : Bool) (units : Nat) : Option Double :=
  if h : representable units = true then some ⟨negative, units, h⟩ else none

def zero : Double := ⟨false, 0, by decide⟩

instance : Inhabited Double := ⟨zero⟩

-- Signed count of units; it orders and identifies numbers (the two zeros are one number).
def signedUnits (x : Double) : Int := if x.negative then -(x.units : Int) else x.units

def same (x y : Double) : Bool := x.signedUnits == y.signedUnits

def less (x y : Double) : Bool := x.signedUnits < y.signedUnits

def roundDiv (num den : Nat) : Nat :=
  let quotient := num / den
  match compare (2 * (num % den)) den with
  | .lt => quotient
  | .gt => quotient + 1
  | .eq => quotient + quotient % 2

def roundUnits (num den : Nat) : Nat :=
  let step := spacing (num / den)
  roundDiv num (den * step) * step

def ofRatio? (negative : Bool) (num den : Nat) : Option Double :=
  ofUnits? negative (roundUnits num den)

-- The double nearest to `digits * 10^exponent`. Both guards only keep the powers small: since
-- `8^e ≤ 10^e`, a number they catch is beyond the range, or below half of the least unit.
def ofDecimal? (negative : Bool) (digits : Nat) (exponent : Int) : Option Double :=
  if digits = 0 then ofUnits? negative 0
  else
    match exponent with
    | .ofNat e =>
        if 1024 ≤ Nat.log2 digits + 3 * e then none
        else ofRatio? negative (digits * Nat.pow 10 e * one) 1
    | .negSucc e =>
        if Nat.log2 digits + 1100 < 3 * e then ofUnits? negative 0
        else ofRatio? negative (digits * one) (Nat.pow 10 (e + 1))

def ofInt? (n : Int) : Option Double :=
  ofRatio? (n < 0) (n.natAbs * one) 1

def isWhole (x : Double) : Bool := x.units % one == 0

def truncate (x : Double) : Int :=
  if x.negative then -((x.units / one : Nat) : Int) else (x.units / one : Nat)

end Double

end ConditionalForm
