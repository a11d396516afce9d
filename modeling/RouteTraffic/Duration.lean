import RouteTraffic.Decimal.Layout
import RouteTraffic.Decimal.Numeral
import RouteTraffic.Decimal.Places
import RouteTraffic.Text.Blank

/-!
# Durations as text

Durations are written by people as a numeral and a unit (`10m`, `1.5h`, `500us`) and read as
whole nanoseconds.  Measured latencies are shown in the largest unit that they reach, with
fewer decimals the larger the number.
-/

namespace RouteTraffic.Duration

open Decimal

/-- The units a duration can be written in. -/
inductive TimeUnit where
  | nanosecond
  | microsecond
  | microsecondAscii
  | millisecond
  | second
  | minute
  | hour
  deriving DecidableEq, Repr

/-- How a unit is written. -/
def TimeUnit.suffix : TimeUnit → String
  | .nanosecond => "ns"
  | .microsecond => "µs"
  | .microsecondAscii => "us"
  | .millisecond => "ms"
  | .second => "s"
  | .minute => "m"
  | .hour => "h"

/-- The nanoseconds of a unit. -/
def TimeUnit.nanos : TimeUnit → Float
  | .nanosecond => 1.0
  | .microsecond => 1000.0
  | .microsecondAscii => 1000.0
  | .millisecond => 1000000.0
  | .second => 1000000000.0
  | .minute => 60000000000.0
  | .hour => 3600000000000.0

/-- The units in the order in which their suffixes are tried. -/
def TimeUnit.all : List TimeUnit :=
  [.nanosecond, .microsecond, .microsecondAscii, .millisecond, .second, .minute, .hour]

/-- Why a text is no duration. -/
inductive Error where
  /-- The part before the unit is no numeral. -/
  | numeral (cause : NumeralError)
  /-- The numeral is negative or not finite. -/
  | negative (text : String)
  /-- The text ends in no unit. -/
  | noUnit (text : String)
  deriving DecidableEq, Repr

/-- The wording of an error. -/
def Error.message : Error → String
  | .numeral cause => cause.message
  | .negative text => "Duration must be a non-negative number: " ++ text
  | .noUnit text => "Unknown duration format: " ++ text

/-- The largest number of nanoseconds a duration can have. -/
def maxNanos : Nat := Text.maxUnsigned64

/-- The text before the suffix of the unit, if it has that suffix. -/
def stripUnit? (u : TimeUnit) (cs : List Char) : Option (List Char) :=
  let suffix := u.suffix.toList
  if suffix.isSuffixOf cs then some (cs.take (cs.length - suffix.length)) else none

/-- The first unit that the text ends in, with the text before it. -/
def splitUnit? (cs : List Char) : Option (TimeUnit × List Char) :=
  TimeUnit.all.findSome? fun u => (stripUnit? u cs).map fun rest => (u, rest)

/-- A finite number that is not below zero. -/
def isCount (x : Float) : Bool :=
  match magnitude x with
  | .finite d => !(negative x && d.mantissa != 0)
  | _ => false

/-- The whole part of a number that is not below zero, at most `maxNanos`. -/
def wholePart (x : Float) : Nat :=
  match magnitude x with
  | .finite d => min (d.num / d.den) maxNanos
  | .infinite => maxNanos
  | .notANumber => 0

/-- Reads a duration as whole nanoseconds. -/
def parse (text : String) : Except Error Nat :=
  let cs := Text.trim text.toList
  match splitUnit? cs with
  | none => .error (.noUnit (String.ofList cs))
  | some (u, number) =>
    match float? (Text.trim number) with
    | .error e => .error (.numeral e)
    | .ok x =>
      if isCount x then .ok (wholePart (x * u.nanos))
      else .error (.negative (String.ofList cs))

/-- The units a latency is shown in, the largest first. -/
def displayUnits : List TimeUnit :=
  [.second, .millisecond, .microsecond, .nanosecond]

/-- Two decimals below ten, one below a hundred, none from there on. -/
def decimals (x : Float) : Nat :=
  if x < 10.0 then 2 else if x < 100.0 then 1 else 0

/-- A latency in nanoseconds as text; a dash stands for an absent or negative one. -/
def format (nanos : Option Float) : String :=
  match nanos with
  | none => "-"
  | some x =>
    if x < 0.0 then "-"
    else if x == 0.0 then "0 ns"
    else
      match displayUnits.find? (fun u => u.nanos ≤ x) with
      | some u =>
        let value := x / u.nanos
        String.ofList (fixed (decimals value) value) ++ " " ++ u.suffix
      | none => String.ofList (plain.render x) ++ " ns"

end RouteTraffic.Duration
