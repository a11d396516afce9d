import RouteTraffic.Calendar.Date
import RouteTraffic.Decimal.Numeral
import RouteTraffic.Text.Digits

/-!
# TOML values

The values of TOML documents, and the scalars among them that are written without quotes:
whole numbers in four bases, doubles, and dates and times.
-/

namespace RouteTraffic

/-- A TOML value. -/
inductive Toml where
  | text (s : String)
  | whole (i : Int)
  | real (x : Float)
  | bool (b : Bool)
  /-- A date, a time of day, or both, in its normal form. -/
  | moment (s : String)
  | list (items : List Toml)
  | table (entries : List (String × Toml))

namespace Toml

open Text

/-! ### Numbers -/

/-- Digits of a base, with single underscores between them. -/
def underscored? (ok : Char → Bool) : List Char → Option (List Char)
  | [] => none
  | [c] => if ok c then some [c] else none
  | c :: '_' :: rest => if ok c then (underscored? ok rest).map (c :: ·) else none
  | c :: rest => if ok c then (underscored? ok rest).map (c :: ·) else none

/-- The number that digits of a base stand for. -/
def ofBase (base : Nat) (cs : List Char) : Nat :=
  cs.foldl (fun n c => base * n + (hexValue? c).getD 0) 0

/-- Decimal digits without superfluous zeros in front. -/
def decimalDigits? (cs : List Char) : Option (List Char) :=
  match underscored? isDigit cs with
  | some ('0' :: _ :: _) => none
  | ds => ds

/-- A whole number, if it fits into 64 bits with a sign. -/
def signed64? (i : Int) : Option Toml :=
  if isSigned64 i then some (.whole i) else none

/-- A sign in front of a number, and the rest. -/
def splitSign : List Char → Option Bool × List Char
  | '-' :: rest => (some true, rest)
  | '+' :: rest => (some false, rest)
  | cs => (none, cs)

/-- A whole number: decimal with an optional sign, or without one in base 16, 8 or 2. -/
def whole? (cs : List Char) : Option Toml :=
  match cs with
  | '0' :: 'x' :: ds => based 16 ds
  | '0' :: 'o' :: ds => based 8 ds
  | '0' :: 'b' :: ds => based 2 ds
  | cs =>
    let (sign, ds) := splitSign cs
    (decimalDigits? ds).bind fun ds =>
      signed64? (if sign = some true then -(ofDigits ds : Int) else ofDigits ds)
where
  based (base : Nat) (ds : List Char) : Option Toml :=
    (underscored? (fun c => (hexValue? c).any (· < base)) ds).bind fun ds =>
      signed64? (ofBase base ds)

/-- The exponent of a double. -/
def exponent? (cs : List Char) : Option Int :=
  let (sign, ds) := splitSign cs
  (underscored? isDigit ds).map fun ds =>
    if sign = some true then -(ofDigits ds : Int) else ofDigits ds

/-- A double: a fraction, an exponent or both after decimal digits, or a word. -/
def real? (cs : List Char) : Option Toml :=
  let (sign, body) := splitSign cs
  let negative := sign = some true
  if body = "inf".toList then some (.real (Decimal.infinity negative))
  else if body = "nan".toList then some (.real Decimal.notANumber)
  else do
    let isMark (c : Char) : Bool := c == 'e' || c == 'E'
    let mantissa := body.takeWhile (!isMark ·)
    let e ←
      match body.dropWhile (!isMark ·) with
      | _ :: rest => exponent? rest
      | [] => some 0
    let wholePart ← decimalDigits? (mantissa.takeWhile (· != '.'))
    let fraction ←
      match mantissa.dropWhile (· != '.') with
      | _ :: rest => underscored? isDigit rest
      | [] => some []
    if fraction = [] ∧ mantissa.length = body.length then none
    else
      let digits := ofDigits (wholePart ++ fraction)
      let x := (Decimal.Numeral.mk negative digits (e - fraction.length)).toFloat
      if x.isInf then none else pure (.real x)

/-! ### Dates and times -/

/-- A number of a fixed count of digits, and the rest. -/
def fixedDigits? (n : Nat) (cs : List Char) : Option (Nat × List Char) :=
  let ds := cs.take n
  if ds.length = n ∧ ds.all isDigit then some (ofDigits ds, cs.drop n) else none

/-- One given character. -/
def char? (c : Char) : List Char → Option (List Char)
  | d :: rest => if d = c then some rest else none
  | [] => none

/-- A date `YYYY-MM-DD`. -/
def date? (cs : List Char) : Option (List Char × List Char) := do
  let (year, rest) ← fixedDigits? 4 cs
  let rest ← char? '-' rest
  let (month, rest) ← fixedDigits? 2 rest
  let rest ← char? '-' rest
  let (day, rest) ← fixedDigits? 2 rest
  if (Calendar.Date.mk year month day).isValid then pure (cs.take 10, rest) else none

/-- Drops the zeros at the end. -/
def trimZeros (cs : List Char) : List Char :=
  (cs.reverse.dropWhile (· == '0')).reverse

/-- The fraction of a second, of which nine digits count, and the rest.  A fraction that is zero
keeps one digit. -/
def fraction? (cs : List Char) : Option (List Char × List Char) :=
  match cs with
  | '.' :: rest =>
    let ds := rest.takeWhile isDigit
    if ds = [] then none
    else
      let ds := trimZeros (ds.take 9)
      some ('.' :: (if ds = [] then ['0'] else ds), rest.dropWhile isDigit)
  | rest => some ([], rest)

/-- A time `HH:MM` or `HH:MM:SS`, the latter with an optional fraction. -/
def time? (cs : List Char) : Option (List Char × List Char) := do
  let (hour, rest) ← fixedDigits? 2 cs
  let rest ← char? ':' rest
  let (minute, rest) ← fixedDigits? 2 rest
  if 23 < hour ∨ 59 < minute then none
  else
    match rest with
    | ':' :: rest =>
      let (second, rest) ← fixedDigits? 2 rest
      let (fraction, rest) ← fraction? rest
      if 60 < second then none else pure (cs.take 8 ++ fraction, rest)
    | rest => pure (cs.take 5, rest)

/-- An offset: `Z`, or a sign, hours and minutes.  No offset is negative zero. -/
def offset? (cs : List Char) : Option (List Char) :=
  match cs with
  | ['Z'] | ['z'] => some ['Z']
  | sign :: rest =>
    if sign = '+' || sign = '-' then do
      let (hour, rest') ← fixedDigits? 2 rest
      let rest' ← char? ':' rest'
      let (minute, rest') ← fixedDigits? 2 rest'
      if rest' = [] ∧ hour ≤ 23 ∧ minute ≤ 59 then
        some (if hour = 0 ∧ minute = 0 then '+' :: rest else cs)
      else none
    else none
  | [] => none

/-- A date, a time, or both with an optional offset, in normal form. -/
def moment? (cs : List Char) : Option Toml :=
  match date? cs with
  | some (date, []) => some (.moment (String.ofList date))
  | some (date, c :: rest) =>
    if c = 'T' || c = 't' || c = ' ' then
      match time? rest with
      | some (time, []) => some (.moment (String.ofList (date ++ 'T' :: time)))
      | some (time, rest) =>
        (offset? rest).map fun o => .moment (String.ofList (date ++ 'T' :: time ++ o))
      | none => none
    else none
  | none =>
    match time? cs with
    | some (time, []) => some (.moment (String.ofList time))
    | _ => none

/-- A value without quotes and brackets. -/
def scalar? (cs : List Char) : Option Toml :=
  if cs = "true".toList then some (.bool true)
  else if cs = "false".toList then some (.bool false)
  else whole? cs <|> real? cs <|> moment? cs

end Toml

end RouteTraffic
