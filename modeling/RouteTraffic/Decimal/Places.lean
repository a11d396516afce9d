import RouteTraffic.Decimal.Binary64
import RouteTraffic.Text.Digits

/-!
# Fixed decimal places

A double with a fixed number of decimals, an exact half away from zero.  The double is first
written with more decimals than are asked for, correctly rounded; the first of the digits that
are cut off again decides, and where it says so a unit of the last place is added to the text.
-/

namespace RouteTraffic.Decimal

/-- A number of `10 ^ -places`, with its point. -/
def pointed (places n : Nat) : List Char :=
  let ds := Text.paddedDigits (places + 1) n
  let head := ds.take (ds.length - places)
  if places = 0 then head else head ++ '.' :: ds.drop (ds.length - places)

/-- The nearest number of `10 ^ -places` to a magnitude, a half upwards. -/
def Binary.roundTo (places : Nat) (d : Binary) : Nat :=
  divNearestUp (d.num * tenPow places) d.den

/-- The numeral with so many decimals that is nearest to a magnitude, the even one of two. -/
def Binary.expansion (places : Nat) (d : Binary) : List Char :=
  pointed places (divNearestEven (d.num * tenPow places) d.den)

/-- A character of a numeral before what has been done with the characters after it; the flag says
that a unit is still to be added.  Nines carry, and the point is passed over. -/
def carryInto (c : Char) : Bool × List Char → Bool × List Char
  | (false, cs) => (false, c :: cs)
  | (true, cs) =>
    if c = '.' then (true, c :: cs)
    else if c = '9' then (true, '0' :: cs)
    else (false, Char.ofNat (c.toNat + 1) :: cs)

/-- A unit that is left over at the beginning of a numeral is a one in front of it. -/
def closeCarry : Bool × List Char → List Char
  | (true, cs) => '1' :: cs
  | (false, cs) => cs

/-- A numeral with a unit added in its last place. -/
def increment (cs : List Char) : List Char :=
  closeCarry (cs.foldr carryInto (true, []))

/-- How many decimals are written beyond those asked for. -/
def guardDigits : Nat := 40

/-- A numeral without its guard digits, the first of which decides whether it is rounded up. -/
def roundGuarded (wide : List Char) : List Char :=
  let kept := wide.length - guardDigits
  let head := wide.take kept
  -- where no decimals are asked for, the point is left over
  let head := if head.getLast? = some '.' then head.dropLast else head
  if (wide.drop kept).head?.any ('5' ≤ ·) then increment head else head

/-- A double with a fixed number of decimals.  Zero has no sign. -/
def fixed (places : Nat) (x : Float) : List Char :=
  match magnitude x with
  | .notANumber => "NaN".toList
  | .infinite => (if 0.0 < x then "Infinity" else "-Infinity").toList
  | .finite d =>
    (if x < 0.0 then ['-'] else []) ++ roundGuarded (d.expansion (places + guardDigits))

end RouteTraffic.Decimal
