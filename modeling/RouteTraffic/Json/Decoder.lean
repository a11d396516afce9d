import RouteTraffic.Json.Reader

/-!
# Reading typed values from JSON tokens

Values of known types are read straight from the tokens, so that the first fault in the text
decides: a value of the wrong type is reported before anything that follows it is looked at.
Fields that a structure does not know are only skipped.
-/

namespace RouteTraffic.Json

/-- Reads a value at the start of tokens, and returns those after it. -/
abbrev Decoder (α : Type) : Type := List Token → Except Fault (α × List Token)

/-- The fault of finding these tokens where another type was wanted: a value is a mismatch once it
has been read, and what is no value is malformed. -/
def mismatch : List Token → Fault
  | [] => .unfinished
  | .null :: _ | .bool _ :: _ | .openList :: _ | .openRecord :: _ => .mismatched
  | .number (.ok _) _ :: _ | .text (.ok _) _ :: _ => .mismatched
  | .number (.error f) _ :: _ | .text (.error f) _ :: _ | .broken f :: _ => f
  | .closeList :: _ | .closeRecord :: _ | .comma :: _ | .colon :: _ => .malformed

namespace Decoder

variable {α β σ : Type}

/-- A string. -/
def text : Decoder String
  | .text (.ok s) _ :: ts => .ok (s, ts)
  | ts => .error (mismatch ts)

/-- A truth value. -/
def bool : Decoder Bool
  | .bool b :: ts => .ok (b, ts)
  | ts => .error (mismatch ts)

/-- A number as a double. -/
def float : Decoder Float
  | .number (.ok n) _ :: ts => .ok (n.toFloat, ts)
  | ts => .error (mismatch ts)

/-- The value `null`. -/
def null : Decoder Unit
  | .null :: ts => .ok ((), ts)
  | ts => .error (mismatch ts)

/-- What a function makes of the value read; nothing is a mismatch. -/
def filterMap (d : Decoder α) (f : α → Option β) : Decoder β := fun ts =>
  match d ts with
  | .error e => .error e
  | .ok (a, ts) =>
    match f a with
    | some b => .ok (b, ts)
    | none => .error .mismatched

/-- What a function makes of the value read. -/
def map (d : Decoder α) (f : α → β) : Decoder β := fun ts =>
  (d ts).map fun (a, ts) => (f a, ts)

/-- A whole number from zero up to a limit. -/
def nat (limit : Nat) : Decoder Nat
  | .number (.ok n) _ :: ts =>
    match n.toNat? limit with
    | some k => .ok (k, ts)
    | none => .error .mismatched
  | ts => .error (mismatch ts)

/-- A value or `null`. -/
def nullable (d : Decoder α) : Decoder (Option α)
  | .null :: ts => .ok (none, ts)
  | ts => (d ts).map fun (a, ts) => (some a, ts)

/-! ### Lists -/

/-- The items of a list, of which there is at least one, and its end. -/
def itemsWithin (d : Decoder α) : Nat → Decoder (List α)
  | 0, _ => .error .unfinished
  | fuel + 1, ts =>
    match d ts with
    | .error f => .error f
    | .ok (a, .closeList :: ts) => .ok ([a], ts)
    | .ok (_, .comma :: .closeList :: _) => .error .malformed
    | .ok (_, [.comma]) => .error .unfinished
    | .ok (a, .comma :: ts) => (itemsWithin d fuel ts).map fun (as, ts) => (a :: as, ts)
    | .ok (_, []) => .error .unfinished
    | .ok (_, _ :: _) => .error .malformed

/-- A list of values of one type. -/
def list (d : Decoder α) : Decoder (List α)
  | .openList :: .closeList :: ts => .ok ([], ts)
  | [.openList] => .error .unfinished
  | .openList :: ts => itemsWithin d ts.length ts
  | ts => .error (mismatch ts)

/-! ### Skipped values -/

/-- What comes next where a value is skipped. -/
inductive Wanted where
  /-- A value. -/
  | value
  /-- A value, or the end of the list just opened. -/
  | firstItem
  /-- The name of a field. -/
  | name
  /-- The name of a field, or the end of the record just opened. -/
  | firstName
  /-- The colon after a name. -/
  | colon
  /-- A comma, or the end of the innermost list or record. -/
  | separator

/-- The fault at the end of the tokens, or at one that is not wanted. -/
def unwanted : List Token → Fault
  | [] => .unfinished
  | _ :: _ => .malformed

/-- Skips values until the open lists and records are closed, the innermost first; `true` stands
for a list. -/
def skipFrom : List Bool → Wanted → List Token → Except Fault (List Token)
  | [], .separator, ts => .ok ts
  | _, _, [] => .error .unfinished
  | true :: open', .firstItem, .closeList :: ts => skipFrom open' .separator ts
  | false :: open', .firstName, .closeRecord :: ts => skipFrom open' .separator ts
  | open', .firstName, .text _ none :: ts => skipFrom open' .colon ts
  | open', .name, .text _ none :: ts => skipFrom open' .colon ts
  | _, .firstName, .text _ (some f) :: _ => .error f
  | _, .name, .text _ (some f) :: _ => .error f
  | open', .colon, .colon :: ts => skipFrom open' .value ts
  | true :: open', .separator, .comma :: ts => skipFrom (true :: open') .value ts
  | false :: open', .separator, .comma :: ts => skipFrom (false :: open') .name ts
  | true :: open', .separator, .closeList :: ts => skipFrom open' .separator ts
  | false :: open', .separator, .closeRecord :: ts => skipFrom open' .separator ts
  | open', .value, t :: ts => skipValue open' t ts
  | open', .firstItem, t :: ts => skipValue open' t ts
  | _, _, _ :: _ => .error .malformed
where
  /-- Skips the value that starts with a token. -/
  skipValue (open' : List Bool) (t : Token) (ts : List Token) : Except Fault (List Token) :=
    match t with
    | .openList => skipFrom (true :: open') .firstItem ts
    | .openRecord => skipFrom (false :: open') .firstName ts
    | .null => skipFrom open' .separator ts
    | .bool _ => skipFrom open' .separator ts
    | .number _ none => skipFrom open' .separator ts
    | .text _ none => skipFrom open' .separator ts
    | .number _ (some f) => .error f
    | .text _ (some f) => .error f
    | .broken f => .error f
    | .closeList | .closeRecord | .comma | .colon => .error .malformed

/-- Skips one value. -/
def skip : Decoder Unit := fun ts => (skipFrom [] .value ts).map fun ts => ((), ts)

/-! ### Structures -/

/-- A field of a structure: its name, and how its value is read into the structure. -/
structure Field (σ : Type) where
  name : String
  read : Decoder (σ → σ)
  /-- The structure cannot be read without the field. -/
  isRequired : Bool := false

/-- A field that is stored by a setter. -/
def Field.optional (name : String) (d : Decoder α) (set : α → σ → σ) : Field σ :=
  { name, read := d.map set }

/-- A field that is stored by a setter and must not be missing. -/
def Field.required (name : String) (d : Decoder α) (set : α → σ → σ) : Field σ :=
  { name, read := d.map set, isRequired := true }

/-- The fields of a structure written as a list, in their order; those at the end may be missing
unless they are required. -/
def positional : List (Field σ) → Bool → σ → Decoder σ
  | [], _, s, ts =>
    match ts with
    | .closeList :: ts => .ok (s, ts)
    | ts => .error (unwanted ts)
  | f :: fs, first, s, ts =>
    match first, ts with
    | _, .closeList :: _ => if f.isRequired then .error .mismatched else positional fs first s ts
    | _, [] => .error .unfinished
    | true, ts => step f fs s ts
    | false, .comma :: .closeList :: _ => .error .malformed
    | false, [.comma] => .error .unfinished
    | false, .comma :: ts => step f fs s ts
    | false, _ => .error .malformed
where
  /-- Reads one field and goes on with those after it. -/
  step (f : Field σ) (fs : List (Field σ)) (s : σ) : Decoder σ := fun ts =>
    match f.read ts with
    | .error e => .error e
    | .ok (set, ts) => positional fs false (set s) ts

/-- The structure at the end of its record, unless a required field is missing. -/
def complete (fields : List (Field σ)) (seen : List String) (s : σ) : Except Fault σ :=
  if fields.all fun f => !f.isRequired || seen.contains f.name then .ok s else .error .mismatched

/-- Reads the value of a field after its name: of a known field, which must be new, into the
structure; of any other not at all. -/
def fieldValue (fields : List (Field σ)) (seen : List String) (name : String) (s : σ)
    (ts : List Token) : Except Fault ((List String × σ) × List Token) :=
  match fields.find? (·.name == name) with
  | some f =>
    if seen.contains name then .error .mismatched
    else
      match ts with
      | .colon :: ts => (f.read ts).map fun (set, ts) => ((name :: seen, set s), ts)
      | ts => .error (unwanted ts)
  | none =>
    match ts with
    | .colon :: ts => (skip ts).map fun (_, ts) => ((seen, s), ts)
    | ts => .error (unwanted ts)

/-- The fields of a structure written as a record, of which there is at least one. -/
def namedWithin (fields : List (Field σ)) : Nat → List String → σ → Decoder σ
  | 0, _, _, _ => .error .unfinished
  | fuel + 1, seen, s, ts =>
    match ts with
    | .text (.error f) _ :: _ => .error f
    | .text (.ok name) _ :: ts =>
      match fieldValue fields seen name s ts with
      | .error f => .error f
      | .ok ((seen, s), .closeRecord :: ts) => (complete fields seen s).map fun s => (s, ts)
      | .ok ((seen, s), .comma :: ts) => namedWithin fields fuel seen s ts
      | .ok (_, ts) => .error (unwanted ts)
    | ts => .error (unwanted ts)

/-- A structure, written as a record or as a list; `absent` has the values of missing fields. -/
def object (fields : List (Field σ)) (absent : σ) : Decoder σ
  | .openList :: ts => positional fields true absent ts
  | .openRecord :: .closeRecord :: ts => (complete fields [] absent).map fun s => (s, ts)
  | .openRecord :: ts => namedWithin fields ts.length [] absent ts
  | ts => .error (mismatch ts)

/-! ### Alternatives -/

/-- One of several names, written as a string or as a record with the name and `null`. -/
def name (ofName? : String → Option α) : Decoder α
  | .text (.ok s) _ :: ts => (ofName? s).elim (.error .mismatched) fun a => .ok (a, ts)
  | .text (.error f) _ :: _ => .error f
  | .openRecord :: ts =>
    match (text.filterMap ofName?) ts with
    | .error f => .error f
    | .ok (a, .colon :: ts) =>
      match null ts with
      | .error f => .error f
      | .ok ((), .closeRecord :: ts) => .ok (a, ts)
      | .ok ((), ts) => .error (unwanted ts)
    | .ok (_, ts) => .error (unwanted ts)
  | ts => .error (unwanted ts)

end Decoder

/-- Reads the one value of a text. -/
def decode {α : Type} (d : Decoder α) (text : String) : Except Fault α :=
  (d (tokens text.toList)).bind expectEnd

end RouteTraffic.Json
