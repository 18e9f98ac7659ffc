import ConditionalForm.Number.Double

set_option autoImplicit false

namespace ConditionalForm

structure Numeral where
  negative : Bool
  whole : List Char
  fraction : Option (List Char)
  exponent : Option Int
deriving Repr

namespace Numeral

def value (digits : List Char) : Nat :=
  digits.foldl (fun n c => 10 * n + (c.toNat - '0'.toNat)) 0

def takeDigits (cs : List Char) : List Char × List Char :=
  (cs.takeWhile Char.isDigit, cs.dropWhile Char.isDigit)

def takeExponent : List Char → Option (Int × List Char)
  | e :: cs =>
      if e == 'e' || e == 'E' then
        let (negative, cs) := match cs with
          | '+' :: cs => (false, cs)
          | '-' :: cs => (true, cs)
          | cs => (false, cs)
        match takeDigits cs with
        | ([], _) => none
        | (digits, rest) =>
            let n : Int := value digits
            some (if negative then -n else n, rest)
      else none
  | [] => none

def isWhole (n : Numeral) : Bool := n.fraction.isNone && n.exponent.isNone

def toDouble? (n : Numeral) : Option Double :=
  let fraction := n.fraction.getD []
  Double.ofDecimal? n.negative (value (n.whole ++ fraction))
    (n.exponent.getD 0 - fraction.length)

end Numeral

inductive NumericText where
  | finite (x : Double)
  | infinite
  | notANumber
deriving Repr

namespace NumericText

def lowerAscii (cs : List Char) : String := String.ofList (cs.map Char.toLower)

def decimal? (negative : Bool) (cs : List Char) : Option NumericText :=
  let (whole, rest) := Numeral.takeDigits cs
  let (fraction, rest) : Option (List Char) × List Char := match rest with
    | '.' :: rest => let (digits, rest) := Numeral.takeDigits rest; (some digits, rest)
    | rest => (none, rest)
  if whole.isEmpty && (fraction.getD []).isEmpty then none
  else
    let exponent : Option (Option Int) := match rest with
      | [] => some none
      | rest => match Numeral.takeExponent rest with
        | some (e, []) => some (some e)
        | _ => none
    exponent.map fun e =>
      match (⟨negative, whole, fraction, e⟩ : Numeral).toDouble? with
      | some x => .finite x
      | none => .infinite

def unsigned? (negative : Bool) (cs : List Char) : Option NumericText :=
  match lowerAscii cs with
  | "inf" => some .infinite
  | "infinity" => some .infinite
  | "nan" => some .notANumber
  | _ => decimal? negative cs

def read? (text : String) : Option NumericText :=
  match text.toList with
  | '+' :: cs => unsigned? false cs
  | '-' :: cs => unsigned? true cs
  | cs => unsigned? false cs

end NumericText

end ConditionalForm
