import RouteTraffic.Decimal.Places

/-!
# Byte counts as text

A count is shown as a whole number of the largest of six units that its logarithm reaches.
The logarithm is computed in doubles, so a count a few places below a power of 1024 may
already be shown in the larger unit.
-/

namespace RouteTraffic.ByteSize

open Decimal

/-- The units, each 1024 times the one before. -/
def unitNames : List String :=
  ["B", "KB", "MB", "GB", "TB", "PB"]

/-- The bytes of the unit with an index.  They are a power of two, so nothing is rounded. -/
def unitSize (e : Nat) : Float :=
  ofNat (twoPow (10 * e))

/-- The logarithm to the base 1024, rounded down, as doubles give it. -/
def log1024 (bytes : Float) : Nat :=
  (bytes.log / (1024.0 : Float).log).floor.toUInt64.toNat

/-- A byte count as text, in the unit that a logarithm leads to, the last unit at most; a dash
stands for what is no finite number. -/
def formatBy (logarithm : Float → Nat) (bytes : Float) : String :=
  if !bytes.isFinite then "-"
  else if bytes < 1024.0 then String.ofList (fixed 0 bytes) ++ " B"
  else
    let e := min (logarithm bytes) (unitNames.length - 1)
    String.ofList (fixed 0 (bytes / unitSize e)) ++ " " ++ unitNames.getD e ""

/-- A byte count as text. -/
def format (bytes : Float) : String :=
  formatBy log1024 bytes

end RouteTraffic.ByteSize
