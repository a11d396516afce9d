import RouteTraffic.Decimal.Binary64
import RouteTraffic.Text.Digits

/-!
# The shortest decimal of a double

Among the decimals that read back as a given double, the ones with the fewest digits, and of
these the nearest.  Only the two neighbours of the double on each decimal grid have to be
tried: a grid with any point in the rounding interval has one of them there.
-/

namespace RouteTraffic.Decimal

/-- The number `digits * 10 ^ exponent`. -/
structure Scaled where
  digits : Nat
  exponent : Int
  deriving DecidableEq, Repr

/-- Which of two equally near neighbours is taken. -/
inductive TieRule where
  | toEven
  | up
  deriving DecidableEq, Repr

/-- The decimal exponent just above a positive quotient that is at least `10 ^ -400`:
`10 ^ (p - 1) ≤ num / den < 10 ^ p`. -/
def decimalExponent (num den : Nat) : Int :=
  ((Text.digits (num * tenPow 400 / den)).length : Int) - 400

/-- The interval of numbers that round to a positive binary number, scaled by four units of its last
place: lower end, value, upper end. -/
def roundingInterval (d : Binary) : Nat × Nat × Nat :=
  let m := 4 * d.mantissa
  let lower := if d.mantissa = twoPow 52 ∧ -1074 < d.exponent then m - 1 else m - 2
  (lower, m, m + 2)

/-- The neighbour of a positive binary number on the grid `10 ^ k` that reads back as it, the
chosen one if there are two. -/
def onGrid? (tie : TieRule) (d : Binary) (k : Int) : Option Nat :=
  let (lower, value, upper) := roundingInterval d
  let unit := d.exponent - 2
  -- one unit of the interval is `scale / step` units of the grid
  let scale := twoPow unit.toNat * tenPow (-k).toNat
  let step := twoPow (-unit).toNat * tenPow k.toNat
  let inside (c : Nat) : Bool :=
    if d.mantissa % 2 = 0 then lower * scale ≤ c * step && c * step ≤ upper * scale
    else lower * scale < c * step && c * step < upper * scale
  let c := value * scale / step
  let below := value * scale - c * step
  let above := (c + 1) * step - value * scale
  match inside c, inside (c + 1) with
  | true, false => some c
  | false, true => some (c + 1)
  | false, false => none
  | true, true =>
    if below < above then some c
    else if above < below then some (c + 1)
    else
      match tie with
      | .toEven => some (if c % 2 = 0 then c else c + 1)
      | .up => some (c + 1)

/-- Moves the zeros at the end of the digits into the exponent. -/
def Scaled.normal (s : Scaled) : Scaled :=
  go (Text.digits s.digits).length s
where
  go : Nat → Scaled → Scaled
    | 0, s => s
    | fuel + 1, s =>
      if s.digits ≠ 0 ∧ s.digits % 10 = 0 then go fuel ⟨s.digits / 10, s.exponent + 1⟩
      else s

/-- The shortest decimal that reads back as a binary number: the first of the grids with 1, 2, …
17 digits that has a point in the rounding interval. -/
def shortest (tie : TieRule) (d : Binary) : Scaled :=
  if d.mantissa = 0 then ⟨0, 0⟩
  else
    let p := decimalExponent d.num d.den
    let hit := (List.range 17).findSome? fun (n : Nat) =>
      let k : Int := p - (n + 1)
      (onGrid? tie d k).map fun c => Scaled.mk c k
    (hit.getD ⟨d.mantissa, 0⟩).normal

end RouteTraffic.Decimal
