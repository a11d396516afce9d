import RouteTraffic.Json.Token

/-!
# Reading JSON values

A whole value is read from tokens.  Lists and records may be nested 127 deep.
-/

namespace RouteTraffic.Json

/-- How deep lists and records may be nested, and one more. -/
def depthLimit : Nat := 128

/-- The value of a single token, or the fault of one that starts no value. -/
def scalar : Token → Except Fault Json
  | .null => .ok .null
  | .bool b => .ok (.bool b)
  | .number read _ => read.map .number
  | .text read _ => read.map .text
  | .broken f => .error f
  | .openList | .closeList | .openRecord | .closeRecord | .comma | .colon => .error .malformed

mutual

/-- Reads a value with a number of steps, inside so many levels as are still allowed. -/
def valueWithin : Nat → Nat → List Token → Except Fault (Json × List Token)
  | 0, _, _ => .error .unfinished
  | _ + 1, _, [] => .error .unfinished
  | fuel + 1, depth, .openList :: ts =>
    if depth ≤ 1 then .error .malformed
    else
      match ts with
      | .closeList :: ts => .ok (.list [], ts)
      | ts =>
        (itemsWithin fuel (depth - 1) ts).map fun (vs, ts) => (.list vs, ts)
  | fuel + 1, depth, .openRecord :: ts =>
    if depth ≤ 1 then .error .malformed
    else
      match ts with
      | .closeRecord :: ts => .ok (.record [], ts)
      | ts =>
        (fieldsWithin fuel (depth - 1) ts).map fun (fs, ts) => (.record fs, ts)
  | _ + 1, _, t :: ts => (scalar t).map fun v => (v, ts)

/-- Reads the items of a list, of which there is at least one, and its end. -/
def itemsWithin : Nat → Nat → List Token → Except Fault (List Json × List Token)
  | 0, _, _ => .error .unfinished
  | fuel + 1, depth, ts =>
    match valueWithin fuel depth ts with
    | .error f => .error f
    | .ok (v, .closeList :: ts) => .ok ([v], ts)
    | .ok (v, .comma :: ts) =>
      (itemsWithin fuel depth ts).map fun (vs, ts) => (v :: vs, ts)
    | .ok (_, []) => .error .unfinished
    | .ok (_, _ :: _) => .error .malformed

/-- Reads the fields of a record, of which there is at least one, and its end. -/
def fieldsWithin : Nat → Nat → List Token → Except Fault (List (String × Json) × List Token)
  | 0, _, _ => .error .unfinished
  | fuel + 1, depth, ts =>
    match ts with
    | [] => .error .unfinished
    | .text (.error f) _ :: _ => .error f
    | .text (.ok k) _ :: .colon :: ts =>
      match valueWithin fuel depth ts with
      | .error f => .error f
      | .ok (v, .closeRecord :: ts) => .ok ([(k, v)], ts)
      | .ok (v, .comma :: ts) =>
        (fieldsWithin fuel depth ts).map fun (fs, ts) => ((k, v) :: fs, ts)
      | .ok (_, []) => .error .unfinished
      | .ok (_, _ :: _) => .error .malformed
    | [.text (.ok _) _] => .error .unfinished
    | _ :: _ => .error .malformed

end

/-- Reads a value at the start of tokens, and returns those after it. -/
def value (ts : List Token) : Except Fault (Json × List Token) :=
  valueWithin (2 * ts.length + 1) depthLimit ts

/-- The tokens after a whole text. -/
def expectEnd {α : Type} (r : α × List Token) : Except Fault α :=
  if r.2.isEmpty then .ok r.1 else .error .malformed

/-- Reads the one value of a text. -/
def read (text : String) : Except Fault Json :=
  (value (tokens text.toList)).bind expectEnd

end RouteTraffic.Json
