import RouteTraffic.Json
import RouteTraffic.Text.Digits

/-!
# JSON texts

Values written on one line without blanks, or spread over lines with two blanks for each level.
-/

namespace RouteTraffic.Json

open Text

/-- Doubles have as many digits as they need, a point, and an exponent outside the powers of ten
from -5 up to 15. -/
def doubleLayout : Decimal.Layout :=
  { positional := some (-5, 16), wholeFraction := true, tie := .toEven,
    infinity := "null", notANumber := "null" }

/-- A double; what is no finite number is written as `null`. -/
def doubleText (x : Float) : List Char :=
  match Decimal.magnitude x with
  | .finite _ => doubleLayout.render x
  | _ => "null".toList

/-- A number. -/
def Number.render : Number → List Char
  | .whole i => signedDigits i
  | .real x => doubleText x

/-- One character of a string: quotes, backslashes and controls are escaped. -/
def escapeChar (c : Char) : List Char :=
  if c = '"' then ['\\', '"']
  else if c = '\\' then ['\\', '\\']
  else if c = '\x08' then ['\\', 'b']
  else if c = '\x0c' then ['\\', 'f']
  else if c = '\n' then ['\\', 'n']
  else if c = '\r' then ['\\', 'r']
  else if c = '\t' then ['\\', 't']
  else if c.toNat < 0x20 then
    ['\\', 'u', '0', '0', hexDigit (c.toNat / 16), hexDigit (c.toNat % 16)]
  else [c]
where
  hexDigit (n : Nat) : Char := Nat.digitChar n

/-- A string between quotes. -/
def stringText (s : String) : List Char :=
  '"' :: s.toList.flatMap escapeChar ++ ['"']

/-! ### On one line -/

mutual

/-- A value on one line. -/
def render : Json → List Char
  | .null => "null".toList
  | .bool b => if b then "true".toList else "false".toList
  | .number n => n.render
  | .text s => stringText s
  | .list [] => ['[', ']']
  | .list (v :: vs) => '[' :: render v ++ renderItems vs
  | .record [] => ['\x7b', '\x7d']
  | .record ((k, v) :: fs) => '\x7b' :: stringText k ++ ':' :: render v ++ renderFields fs

/-- The items after the first, with the end of the list. -/
def renderItems : List Json → List Char
  | [] => [']']
  | v :: vs => ',' :: render v ++ renderItems vs

/-- The fields after the first, with the end of the record. -/
def renderFields : List (String × Json) → List Char
  | [] => ['\x7d']
  | (k, v) :: fs => ',' :: stringText k ++ ':' :: render v ++ renderFields fs

end

/-- The text of a value on one line. -/
def toText (v : Json) : String := String.ofList v.render

/-! ### Over several lines -/

/-- A new line at a level. -/
def newLine (level : Nat) : List Char :=
  '\n' :: List.replicate (2 * level) ' '

mutual

/-- A value over several lines. -/
def renderLines (level : Nat) : Json → List Char
  | .list (v :: vs) =>
    '[' :: newLine (level + 1) ++ renderLines (level + 1) v ++ renderItemLines level vs
  | .record ((k, v) :: fs) =>
    '\x7b' :: newLine (level + 1) ++ stringText k ++ ':' :: ' ' :: renderLines (level + 1) v ++
      renderFieldLines level fs
  | .null => render .null
  | .bool b => render (.bool b)
  | .number n => render (.number n)
  | .text s => render (.text s)
  | .list [] => render (.list [])
  | .record [] => render (.record [])

/-- The items after the first, each on a line of its own, with the end of the list. -/
def renderItemLines (level : Nat) : List Json → List Char
  | [] => newLine level ++ [']']
  | v :: vs => ',' :: newLine (level + 1) ++ renderLines (level + 1) v ++ renderItemLines level vs

/-- The fields after the first, each on a line of its own, with the end of the record. -/
def renderFieldLines (level : Nat) : List (String × Json) → List Char
  | [] => newLine level ++ ['\x7d']
  | (k, v) :: fs =>
    ',' :: newLine (level + 1) ++ stringText k ++ ':' :: ' ' :: renderLines (level + 1) v ++
      renderFieldLines level fs

end

/-- The text of a value over several lines. -/
def toLines (v : Json) : String := String.ofList (v.renderLines 0)

end RouteTraffic.Json
