import RouteTraffic.Json
import RouteTraffic.Text.Digits

/-!
# Reading JSON numbers

A number without fraction and exponent is whole if it fits into 64 bits.  Any other is a double:
its first digits, as many as fit into 64 bits, are scaled by a power of ten in double
arithmetic, so that the result may differ from the nearest double in the last place.  A number
too large for a double is malformed.
-/

namespace RouteTraffic.Json

open Text

/-- Takes digits into a significand until one does not fit any more, and returns those left. -/
def accumulate (significand : Nat) : List Char → Nat × List Char
  | [] => (significand, [])
  | c :: cs =>
    let next := 10 * significand + digitValue c
    if next ≤ maxUnsigned64 then accumulate next cs else (significand, c :: cs)

/-- The double nearest to a power of ten. -/
def powerOfTen (n : Nat) : Float := Decimal.ofNat (Decimal.tenPow n)

/-- Divides by a power of ten, by at most `10 ^ 308` at a time. -/
def scaleDown (x : Float) (n : Nat) : Float :=
  if n ≤ 308 then x / powerOfTen n
  else if x == 0.0 then x
  else scaleDown (x / powerOfTen 308) (n - 308)
termination_by n

/-- Multiplies by a power of ten, if the result is finite. -/
def scaleUp? (x : Float) (n : Nat) : Option Float :=
  if n ≤ 308 then
    let y := x * powerOfTen n
    if y.isInf then none else some y
  else if x == 0.0 then some x
  else none

/-- The double for a significand and a power of ten. -/
def real (negative : Bool) (significand : Nat) (exponent : Int) : Except Fault Float :=
  let x := Decimal.ofNat significand
  let scaled :=
    if 0 ≤ exponent then scaleUp? x exponent.toNat else some (scaleDown x exponent.natAbs)
  match scaled with
  | some y => .ok (if negative then -y else y)
  | none => .error .malformed

/-- The largest exponent that is still computed with. -/
def maxExponent : Nat := 2147483647

/-- The end of a text in the middle of a number, or a character that does not belong there. -/
def missingDigit : List Char → Fault
  | [] => .unfinished
  | _ => .malformed

/-- The exponent after its letter, applied to the digits before. -/
def readExponent (negative : Bool) (significand : Nat) (start : Int) (cs : List Char) :
    Except Fault (Float × List Char) :=
  let (down, cs) : Bool × List Char :=
    match cs with
    | '-' :: rest => (true, rest)
    | '+' :: rest => (false, rest)
    | cs => (false, cs)
  let ds := cs.takeWhile isDigit
  let rest := cs.dropWhile isDigit
  if ds = [] then .error (missingDigit cs)
  else if maxExponent < ofDigits ds then
    if significand ≠ 0 ∧ !down then .error .malformed
    else .ok (if negative then -0.0 else 0.0, rest)
  else
    let exponent : Int := if down then start - ofDigits ds else start + ofDigits ds
    (real negative significand exponent).map fun x => (x, rest)

/-- What may follow the digits of a double: an exponent, or nothing. -/
def readOptionalExponent (negative : Bool) (significand : Nat) (start : Int) (cs : List Char) :
    Except Fault (Float × List Char) :=
  match cs with
  | c :: rest =>
    if c = 'e' || c = 'E' then readExponent negative significand start rest
    else (real negative significand start).map fun x => (x, cs)
  | [] => (real negative significand start).map fun x => (x, [])

/-- The fraction after its point. -/
def readFraction (negative : Bool) (significand : Nat) (start : Int) (cs : List Char) :
    Except Fault (Float × List Char) :=
  let ds := cs.takeWhile isDigit
  if ds = [] then .error (missingDigit cs)
  else
    let (significand, left) := accumulate significand ds
    readOptionalExponent negative significand (start - (ds.length - left.length : Nat))
      (cs.dropWhile isDigit)

/-- What follows the whole part: a fraction, an exponent, or nothing. -/
def readTail (negative : Bool) (significand dropped : Nat) (cs : List Char) :
    Except Fault (Number × List Char) :=
  let asReal (r : Except Fault (Float × List Char)) : Except Fault (Number × List Char) :=
    r.map fun (x, rest) => (.real x, rest)
  let noTail : Except Fault (Number × List Char) :=
    if dropped ≠ 0 then asReal ((real negative significand dropped).map fun x => (x, cs))
    else if !negative then .ok (.whole significand, cs)
    else if significand = 0 ∨ maxSigned64 + 1 < significand then
      .ok (.real (Decimal.nearest true significand 1), cs)
    else .ok (.whole (-(significand : Int)), cs)
  match cs with
  | '.' :: rest => asReal (readFraction negative significand dropped rest)
  | c :: rest =>
    if c = 'e' || c = 'E' then asReal (readExponent negative significand dropped rest) else noTail
  | [] => noTail

/-- A number from its sign or first digit on, with the text after it. -/
def readNumber (cs : List Char) : Except Fault (Number × List Char) :=
  let (negative, cs) : Bool × List Char :=
    match cs with
    | '-' :: rest => (true, rest)
    | cs => (false, cs)
  let ds := cs.takeWhile isDigit
  let rest := cs.dropWhile isDigit
  match ds with
  | [] => .error (missingDigit cs)
  | '0' :: _ :: _ => .error .malformed
  | ds =>
    let (significand, left) := accumulate 0 ds
    readTail negative significand left.length rest

/-- Skips an exponent, if there is one. -/
def skipExponent (cs : List Char) : Except Fault (List Char) :=
  match cs with
  | c :: rest =>
    if c = 'e' || c = 'E' then
      let rest :=
        match rest with
        | '-' :: rest => rest
        | '+' :: rest => rest
        | rest => rest
      if rest.takeWhile isDigit = [] then .error .malformed else .ok (rest.dropWhile isDigit)
    else .ok cs
  | [] => .ok []

/-- Skips a number, whatever its value. -/
def skipNumber (cs : List Char) : Except Fault (List Char) :=
  let cs :=
    match cs with
    | '-' :: rest => rest
    | cs => cs
  match cs.takeWhile isDigit with
  | [] => .error .malformed
  | '0' :: _ :: _ => .error .malformed
  | _ =>
    match cs.dropWhile isDigit with
    | '.' :: rest =>
      if rest.takeWhile isDigit = [] then .error .malformed
      else skipExponent (rest.dropWhile isDigit)
    | rest => skipExponent rest

end RouteTraffic.Json
