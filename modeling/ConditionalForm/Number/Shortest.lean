import ConditionalForm.Number.Double

set_option autoImplicit false

namespace ConditionalForm

structure Decimal where
  digits : Nat
  exponent : Int
deriving DecidableEq, Repr

inductive Tie where
  | toEven
  | upward
deriving DecidableEq, Repr

namespace Decimal

def places : Nat := 1074

def grain : Nat := Nat.pow 5 places

-- The reals between two marks round to a double; the marks count quarters of 10^-1074, and belong
-- to the interval if its double has an even last bit.
structure Interval where
  low : Nat
  high : Nat
  closed : Bool

-- Below a power of two the spacing is half of that above, unless it is already the least.
def interval (units : Nat) : Interval :=
  let step := Double.spacing units
  let narrow := 1 < step && units == Nat.pow 2 (Nat.log2 units)
  { low := (4 * units - if narrow then step else 2 * step) * grain
    high := (4 * units + 2 * step) * grain
    closed := units / step % 2 == 0 }

def Interval.holds (i : Interval) (quarters : Nat) : Bool :=
  if i.closed then i.low ≤ quarters && quarters ≤ i.high
  else i.low < quarters && quarters < i.high

def onGrid (tie : Tie) (i : Interval) (value grid : Nat) : Option Nat :=
  let below := value / grid
  match i.holds (4 * (below * grid)), i.holds (4 * ((below + 1) * grid)) with
  | false, false => none
  | true, false => some below
  | false, true => some (below + 1)
  | true, true =>
      match compare (2 * value) ((2 * below + 1) * grid), tie with
      | .lt, _ => some below
      | .gt, _ => some (below + 1)
      | .eq, .upward => some (below + 1)
      | .eq, .toEven => some (below + below % 2)

def strip : Nat → Decimal → Decimal
  | 0, d => d
  | fuel + 1, d =>
      if d.digits % 10 == 0 && d.digits != 0 then strip fuel ⟨d.digits / 10, d.exponent + 1⟩ else d

def digitList (n : Nat) : List Char := Nat.toDigits 10 n

-- The first of the lengths 1 to 17 at which a decimal lies in the interval decides; seventeen
-- digits identify every double, so the exact value at the end stands for no double.
def shortest (tie : Tie) (units : Nat) : Decimal :=
  let value := units * grain
  let width := (digitList value).length
  let i := interval units
  let found := (List.range' 1 17).findSome? fun count =>
    (onGrid tie i value (Nat.pow 10 (width - count))).map fun digits =>
      (⟨digits, (width : Int) - count - places⟩ : Decimal)
  strip width (found.getD ⟨value, -places⟩)

end Decimal

end ConditionalForm
