import RouteTraffic.Decimal.Power

/-!
# Doubles as exact numbers

The bits of a double read as a sign and an exact magnitude `mantissa * 2 ^ exponent`, and, the
other way, the double nearest to a quotient of natural numbers (a tie goes to the even
mantissa).  Everything that writes or reads a number as decimal text goes through these two,
in exact arithmetic.
-/

namespace RouteTraffic.Decimal

/-- The exact number `mantissa * 2 ^ exponent`. -/
structure Binary where
  mantissa : Nat
  exponent : Int
  deriving DecidableEq, Repr

/-- The numerator of a binary number as a quotient of natural numbers. -/
def Binary.num (d : Binary) : Nat :=
  d.mantissa * twoPow d.exponent.toNat

/-- The denominator of a binary number as a quotient of natural numbers. -/
def Binary.den (d : Binary) : Nat :=
  twoPow (-d.exponent).toNat

theorem Binary.den_pos (d : Binary) : 0 < d.den :=
  twoPow_pos _

/-- What a double is, its sign apart. -/
inductive Magnitude where
  | finite (d : Binary)
  | infinite
  | notANumber
  deriving DecidableEq, Repr

/-- The sign bit of a pattern of 64 bits. -/
def signBit (bits : Nat) : Bool :=
  bits / twoPow 63 % 2 == 1

/-- The magnitude that a pattern of 64 bits stands for. -/
def magnitudeOfBits (bits : Nat) : Magnitude :=
  let fraction : Nat := bits % twoPow 52
  let biased : Nat := bits / twoPow 52 % 2048
  if biased = 2047 then
    if fraction = 0 then .infinite else .notANumber
  else if biased = 0 then .finite ⟨fraction, -1074⟩
  else .finite ⟨twoPow 52 + fraction, (biased : Int) - 1075⟩

/-- The sign bit of a double. -/
def negative (x : Float) : Bool :=
  signBit x.toBits.toNat

/-- The magnitude of a double. -/
def magnitude (x : Float) : Magnitude :=
  magnitudeOfBits x.toBits.toNat

/-- Quotient rounded to the nearest whole number, a tie to the even one. -/
def divNearestEven (num den : Nat) : Nat :=
  let q := num / den
  let r := num % den
  if 2 * r < den then q
  else if den < 2 * r then q + 1
  else if q % 2 = 0 then q else q + 1

/-- Quotient rounded to the nearest whole number, a tie to the larger one. -/
def divNearestUp (num den : Nat) : Nat :=
  (2 * num + den) / (2 * den)

/-- The exponent of the last place of the double nearest to `num / den`: the quotient times the
inverse power of two has 53 bits, or fewer where the range of exponents ends. -/
def lastPlace (num den : Nat) : Int :=
  let e : Int := (num.log2 : Int) - den.log2
  let e := if num * twoPow (-e).toNat < den * twoPow e.toNat then e - 1 else e
  max (e - 52) (-1074)

/-- The bits of infinity. -/
def infinityBits : Nat := 2047 * twoPow 52

/-- The bits of the double nearest to `num / den`. -/
def nearestBits (num den : Nat) : Nat :=
  if num = 0 then 0
  else
    let q := lastPlace num den
    let m := divNearestEven (num * twoPow (-q).toNat) (den * twoPow q.toNat)
    min ((q + 1074).toNat * twoPow 52 + m) infinityBits

/-- The double with these bits and the given sign. -/
def ofBits (negative : Bool) (bits : Nat) : Float :=
  Float.ofBits (UInt64.ofNat (bits + if negative then twoPow 63 else 0))

/-- The double nearest to `num / den`, with the given sign. -/
def nearest (negative : Bool) (num den : Nat) : Float :=
  ofBits negative (nearestBits num den)

/-- Infinity with the given sign. -/
def infinity (negative : Bool) : Float :=
  ofBits negative infinityBits

/-- What is no number. -/
def notANumber : Float := 0.0 / 0.0

/-- The double nearest to a natural number. -/
def ofNat (n : Nat) : Float :=
  nearest false n 1

end RouteTraffic.Decimal
