import RouteTraffic.Decimal.Shortest

/-!
# Layouts of shortest decimals

How the digits of a double are set out as text: between which powers of ten the point stands
in its place, whether a whole number keeps a fraction, and the words for what is no number.
-/

namespace RouteTraffic.Decimal

/-- The conventions of one way to write doubles. -/
structure Layout where
  /-- The powers of ten written without an exponent, if not all are. -/
  positional : Option (Int × Int)
  /-- Whole numbers written positionally end in `.0`. -/
  wholeFraction : Bool
  tie : TieRule
  infinity : String
  notANumber : String

/-- The digits with the point in its place. -/
def positionalText (wholeFraction : Bool) (s : Scaled) : List Char :=
  let ds := Text.digits s.digits
  let whole := if wholeFraction then ['.', '0'] else []
  if 0 ≤ s.exponent then
    ds ++ (if s.digits = 0 then [] else List.replicate s.exponent.toNat '0') ++ whole
  else
    let places := (-s.exponent).toNat
    if places < ds.length then
      ds.take (ds.length - places) ++ '.' :: ds.drop (ds.length - places)
    else '0' :: '.' :: List.replicate (places - ds.length) '0' ++ ds

/-- One digit, a fraction if there are more, and the power of ten with its sign. -/
def exponentText (s : Scaled) : List Char :=
  let ds := Text.digits s.digits
  let power : Int := s.exponent + (ds.length : Int) - 1
  let fraction := if 1 < ds.length then '.' :: ds.drop 1 else []
  ds.take 1 ++ fraction ++ 'e' :: (if power < 0 then '-' else '+') :: Text.digits power.natAbs

/-- The text of a finite magnitude. -/
def Layout.renderFinite (l : Layout) (d : Binary) : List Char :=
  let s := shortest l.tie d
  let power : Int := s.exponent + ((Text.digits s.digits).length : Int) - 1
  match l.positional with
  | none => positionalText l.wholeFraction s
  | some (least, limit) =>
    if s.digits = 0 ∨ (least ≤ power ∧ power < limit) then positionalText l.wholeFraction s
    else exponentText s

/-- The text of a double. -/
def Layout.render (l : Layout) (x : Float) : List Char :=
  let sign := if negative x then ['-'] else []
  match magnitude x with
  | .finite d => sign ++ l.renderFinite d
  | .infinite => sign ++ l.infinity.toList
  | .notANumber => l.notANumber.toList

/-- Doubles in messages: all digits positional, whole numbers without a fraction. -/
def plain : Layout :=
  { positional := none, wholeFraction := false, tie := .up, infinity := "inf", notANumber := "NaN" }

end RouteTraffic.Decimal
