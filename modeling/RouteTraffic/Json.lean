import RouteTraffic.Decimal.Layout

/-!
# JSON values

The values of JSON texts.  Records keep the order of their fields and repeated names.  Numbers
are whole where they fit into 64 bits, and doubles otherwise.
-/

namespace RouteTraffic

/-- A number of a JSON text. -/
inductive Json.Number where
  | whole (i : Int)
  | real (x : Float)

/-- A JSON value. -/
inductive Json where
  | null
  | bool (b : Bool)
  | number (n : Json.Number)
  | text (s : String)
  | list (items : List Json)
  | record (fields : List (String × Json))

instance : Inhabited Json := ⟨.null⟩

namespace Json

/-- Why a text could not be read. -/
inductive Fault where
  /-- The text ends too early. -/
  | unfinished
  /-- The text is not JSON. -/
  | malformed
  /-- The text is JSON, but of another shape than wanted. -/
  | mismatched
  deriving DecidableEq, Repr

/-- The name of a fault's category. -/
def Fault.category : Fault → String
  | .unfinished => "Eof"
  | .malformed => "Syntax"
  | .mismatched => "Data"

/-- A double as a JSON number. -/
def ofFloat (x : Float) : Json := .number (.real x)

/-- A natural number as a JSON number. -/
def ofNat (n : Nat) : Json := .number (.whole n)

/-- The whole number as a double. -/
def wholeToFloat (i : Int) : Float := Decimal.nearest (decide (i < 0)) i.natAbs 1

/-- A number as a double. -/
def Number.toFloat : Number → Float
  | .whole i => wholeToFloat i
  | .real x => x

/-- A number as a natural number up to a limit. -/
def Number.toNat? (limit : Nat) : Number → Option Nat
  | .whole i => if 0 ≤ i ∧ i ≤ limit then some i.toNat else none
  | .real _ => none

end Json

end RouteTraffic
