import ConditionalForm.Number.Shortest

set_option autoImplicit false

namespace ConditionalForm

structure DecimalFormat where
  positional : Int → Bool
  keepsFraction : Bool
  tie : Tie

namespace DecimalFormat

def zeros (n : Nat) : List Char := List.replicate n '0'

def placePoint (f : DecimalFormat) (digits : List Char) (point : Int) : List Char :=
  match point with
  | .negSucc n => '0' :: '.' :: (zeros (n + 1) ++ digits)
  | .ofNat 0 => '0' :: '.' :: digits
  | .ofNat n =>
      if digits.length ≤ n then
        digits ++ zeros (n - digits.length) ++ if f.keepsFraction then ['.', '0'] else []
      else digits.take n ++ '.' :: digits.drop n

def signedExponent (e : Int) : List Char :=
  match e with
  | .ofNat n => '+' :: Decimal.digitList n
  | .negSucc n => '-' :: Decimal.digitList (n + 1)

def scientific (digits : List Char) (e : Int) : List Char :=
  match digits with
  | [] => []
  | [d] => d :: 'e' :: signedExponent e
  | d :: rest => d :: '.' :: (rest ++ 'e' :: signedExponent e)

def magnitude (f : DecimalFormat) (units : Nat) : List Char :=
  if units = 0 then '0' :: if f.keepsFraction then ['.', '0'] else []
  else
    let d := Decimal.shortest f.tie units
    let digits := Decimal.digitList d.digits
    let point := d.exponent + digits.length
    if f.positional (point - 1) then f.placePoint digits point else scientific digits (point - 1)

def render (f : DecimalFormat) (x : Double) : String :=
  String.ofList (if x.negative then '-' :: f.magnitude x.units else f.magnitude x.units)

end DecimalFormat

end ConditionalForm
