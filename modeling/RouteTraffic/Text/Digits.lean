/-!
# Decimal digits

Natural numbers as decimal digits, with and without leading zeros, and texts that begin with
digits.
-/

namespace RouteTraffic.Text

/-- An ASCII decimal digit. -/
def isDigit (c : Char) : Bool :=
  '0' ≤ c && c ≤ '9'

/-- What an ASCII digit stands for. -/
def digitValue (c : Char) : Nat :=
  c.toNat - '0'.toNat

/-- The number written by decimal digits, the empty text being zero. -/
def ofDigits (cs : List Char) : Nat :=
  cs.foldl (fun n c => 10 * n + digitValue c) 0

/-- The decimal digits of a number, without leading zeros. -/
def digits (n : Nat) : List Char :=
  Nat.toDigits 10 n

/-- The decimal digits of a number, led by zeros up to the given width. -/
def paddedDigits (width n : Nat) : List Char :=
  List.replicate (width - (digits n).length) '0' ++ digits n

/-- A whole number with a minus sign where it is negative. -/
def signedDigits (i : Int) : List Char :=
  if i < 0 then '-' :: digits i.natAbs else digits i.natAbs

/-- An ASCII hexadecimal digit. -/
def hexValue? (c : Char) : Option Nat :=
  if '0' ≤ c && c ≤ '9' then some (c.toNat - '0'.toNat)
  else if 'a' ≤ c && c ≤ 'f' then some (c.toNat - 'a'.toNat + 10)
  else if 'A' ≤ c && c ≤ 'F' then some (c.toNat - 'A'.toNat + 10)
  else none

/-- Lower-case hexadecimal digits, without leading zeros. -/
def hexDigits (n : Nat) : List Char :=
  Nat.toDigits 16 n

/-- ASCII letters in lower case, all other characters as they are. -/
def lowerAscii (cs : List Char) : List Char :=
  cs.map Char.toLower

/-- The largest whole number of 64 bits without a sign. -/
def maxUnsigned64 : Nat := 18446744073709551615

/-- The largest whole number of 64 bits with a sign. -/
def maxSigned64 : Nat := 9223372036854775807

/-- The number fits into 64 bits with a sign. -/
def isSigned64 (i : Int) : Bool :=
  -((maxSigned64 + 1 : Nat) : Int) ≤ i && i ≤ maxSigned64

/-- What went wrong in reading a whole number. -/
inductive IntegerError where
  | empty
  | notADigit
  | tooLarge
  deriving DecidableEq, Repr

/-- The wording of a failed reading. -/
def IntegerError.message : IntegerError → String
  | .empty => "cannot parse integer from empty string"
  | .notADigit => "invalid digit found in string"
  | .tooLarge => "number too large to fit in target type"

/-- Reads a natural number up to `limit`: digits after an optional plus sign. A wrong character
before the limit is passed is reported as such; one after it no longer matters. -/
def natural? (limit : Nat) (cs : List Char) : Except IntegerError Nat :=
  match cs with
  | [] => .error .empty
  | ['+'] | ['-'] => .error .notADigit
  | '+' :: rest => go rest 0
  | cs => go cs 0
where
  go : List Char → Nat → Except IntegerError Nat
    | [], n => .ok n
    | c :: rest, n =>
      if isDigit c then
        let m := 10 * n + digitValue c
        if m ≤ limit then go rest m else .error .tooLarge
      else .error .notADigit

end RouteTraffic.Text
