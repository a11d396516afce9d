import RouteTraffic.Json

/-!
# The shape of JSON values

How values of other types are taken out of a JSON value that has been read as a whole.  A
structure is taken from a record by the names of its fields, or from a list by their order.
Fields that a structure does not know are ignored; one it knows must not be repeated.
-/

namespace RouteTraffic.Json

/-- The value of a known field of a record, if it has one; `none` if it is repeated. -/
def field? (fields : List (String × Json)) (name : String) : Option (Option Json) :=
  match fields.filter (·.1 == name) with
  | [] => some none
  | [(_, v)] => some (some v)
  | _ => none

/-- The values of the named fields of a structure, of which any may be absent. -/
def structure? (names : List String) : Json → Option (List (Option Json))
  | .record fields => names.mapM (field? fields)
  | .list items =>
    if items.length ≤ names.length then
      some (items.map some ++ List.replicate (names.length - items.length) none)
    else none
  | _ => none

/-- A value that is taken as `absent` where the field is missing. -/
def orAbsent {α : Type} (absent : α) (shape : Json → Option α) : Option Json → Option α
  | none => some absent
  | some v => shape v

/-- A value that may be `null`. -/
def nullable? {α : Type} (shape : Json → Option α) : Json → Option (Option α)
  | .null => some none
  | v => (shape v).map some

/-- A field that may be missing or `null`. -/
def optional? {α : Type} (shape : Json → Option α) : Option Json → Option (Option α) :=
  orAbsent none (nullable? shape)

/-- A list of values of one shape. -/
def listOf? {α : Type} (shape : Json → Option α) : Json → Option (List α)
  | .list items => items.mapM shape
  | _ => none

/-- A string. -/
def text? : Json → Option String
  | .text s => some s
  | _ => none

/-- A truth value. -/
def bool? : Json → Option Bool
  | .bool b => some b
  | _ => none

/-- A number as a double. -/
def float? : Json → Option Float
  | .number n => some n.toFloat
  | _ => none

/-- A whole number from zero up to a limit. -/
def nat? (limit : Nat) : Json → Option Nat
  | .number n => n.toNat? limit
  | _ => none

end RouteTraffic.Json
