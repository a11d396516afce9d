import RouteTraffic.Decimal.Binary64
import RouteTraffic.Text.Digits

/-!
# Reading decimal numerals

The grammar of a decimal numeral (an optional sign, digits with an optional point, an optional
exponent, or a word for an infinity or for no number) and the double nearest to its value.
-/

namespace RouteTraffic.Decimal

/-- The decimal numeral `digits * 10 ^ exponent` with a sign. -/
structure Numeral where
  negative : Bool
  digits : Nat
  exponent : Int
  deriving DecidableEq, Repr

/-- The double nearest to a numeral.  Powers of ten far outside the range of doubles are not
computed: a number of at least `10 ^ 310` is infinite and one below `10 ^ -330` is zero. -/
def Numeral.toFloat (n : Numeral) : Float :=
  let power : Int := n.exponent + (Text.digits n.digits).length
  if n.digits = 0 ∨ power < -330 then nearest n.negative 0 1
  else if 310 < power then infinity n.negative
  else nearest n.negative (n.digits * tenPow n.exponent.toNat) (tenPow (-n.exponent).toNat)

/-- What is wrong with a text that is no numeral. -/
inductive NumeralError where
  | empty
  | invalid
  deriving DecidableEq, Repr

/-- The wording of a failed reading. -/
def NumeralError.message : NumeralError → String
  | .empty => "cannot parse float from empty string"
  | .invalid => "invalid float literal"

/-- The exponent part at the end of a numeral: nothing, or `e`, an optional sign and digits. -/
def exponentPart? : List Char → Option Int
  | [] => some 0
  | e :: rest =>
    if e = 'e' || e = 'E' then
      let (negative, ds) : Bool × List Char :=
        match rest with
        | '-' :: ds => (true, ds)
        | '+' :: ds => (false, ds)
        | ds => (false, ds)
      if ds = [] || !ds.all Text.isDigit then none
      else some (if negative then -(Text.ofDigits ds : Int) else Text.ofDigits ds)
    else none

/-- An unsigned numeral made of digits. -/
def unsignedNumeral? (negative : Bool) (cs : List Char) : Option Numeral :=
  let whole := cs.takeWhile Text.isDigit
  let rest := cs.dropWhile Text.isDigit
  let (fraction, tail) : List Char × List Char :=
    match rest with
    | '.' :: rest => (rest.takeWhile Text.isDigit, rest.dropWhile Text.isDigit)
    | rest => ([], rest)
  if whole = [] && fraction = [] then none
  else (exponentPart? tail).map fun e =>
    ⟨negative, Text.ofDigits (whole ++ fraction), e - fraction.length⟩

/-- The double that an unsigned text stands for. -/
def unsignedFloat? (negative : Bool) (cs : List Char) : Option Float :=
  match unsignedNumeral? negative cs with
  | some n => some n.toFloat
  | none =>
    let word := Text.lowerAscii cs
    if word = "inf".toList || word = "infinity".toList then some (infinity negative)
    else if word = "nan".toList then some notANumber
    else none

/-- Reads a double: nothing before it, nothing after it. -/
def float? (cs : List Char) : Except NumeralError Float :=
  let result :=
    match cs with
    | [] => none
    | '-' :: rest => unsignedFloat? true rest
    | '+' :: rest => unsignedFloat? false rest
    | cs => unsignedFloat? false cs
  match result with
  | some x => .ok x
  | none => .error (if cs = [] then .empty else .invalid)

end RouteTraffic.Decimal
