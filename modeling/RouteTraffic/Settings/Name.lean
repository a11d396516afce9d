import RouteTraffic.Text.Blank
import RouteTraffic.Text.Digits

/-!
# Names of settings

A name may lead into a setting: names of entries follow after points, and indices of items in
brackets.  A name that is not written like this stands for a setting of its own.
-/

namespace RouteTraffic.Settings

/-- A character of a part of a name. -/
def isNameChar (c : Char) : Bool := c.isAlphanum || c = '_' || c = '-'

/-- Where a name leads inside the setting that it starts with. -/
inductive Place where
  | itself
  | item
  | entry (name : String)
  deriving DecidableEq, Repr

/-- The text after an index and its closing bracket.  An index is a whole number of 64 bits with a
sign, and may stand between spaces. -/
def afterIndex? (cs : List Char) : Option (List Char) :=
  let (negative, cs) :=
    match Text.skipSpaces cs with
    | '-' :: rest => (true, rest)
    | rest => (false, rest)
  let digits := cs.takeWhile Text.isDigit
  let size : Int := Text.ofDigits digits
  let index := if negative then -size else size
  match Text.skipSpaces (cs.dropWhile Text.isDigit) with
  | ']' :: rest => if digits ≠ [] ∧ Text.isSigned64 index then some rest else none
  | _ => none

/-- The steps of a name after its first part are well formed. -/
def stepsValid : Nat → List Char → Bool
  | 0, _ => false
  | fuel + 1, cs =>
    match cs with
    | [] => true
    | '.' :: rest => rest.takeWhile isNameChar ≠ [] && stepsValid fuel (rest.dropWhile isNameChar)
    | '[' :: rest => (afterIndex? rest).any (stepsValid fuel)
    | _ => false

/-- The setting that a name leads to, and where inside it. -/
def splitName (name : String) : String × Place :=
  let cs := name.toList
  let first := cs.takeWhile isNameChar
  let steps := cs.dropWhile isNameChar
  if first = [] || !stepsValid (steps.length + 1) steps then (name, .itself)
  else
    match steps with
    | '.' :: rest => (String.ofList first, .entry (String.ofList (rest.takeWhile isNameChar)))
    | '[' :: _ => (String.ofList first, .item)
    | _ => (name, .itself)

end RouteTraffic.Settings
