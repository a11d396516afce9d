import RouteTraffic.Settings
import RouteTraffic.Settings.Name
import RouteTraffic.Toml.Reader

/-!
# Layers of settings

Settings are gathered from a file, TOML or JSON by its name, and from environment variables
that override it.  Values are loosely typed: a text setting takes any scalar, a number setting
also texts and truth values.
-/

namespace RouteTraffic.Settings

/-- A value that a layer gives to a setting.  Of lists and tables only what they are and the names
of their entries can matter. -/
inductive Value where
  | null
  | bool (b : Bool)
  | whole (i : Int)
  | real (x : Float)
  | text (s : String)
  | list
  | table (names : List String)

/-- Values by name, each name once. -/
abbrev Values := List (String × Value)

namespace Value

/-- A TOML value; dates and times are texts. -/
def ofToml : Toml → Value
  | .text s => .text s
  | .whole i => .whole i
  | .real x => .real x
  | .bool b => .bool b
  | .moment s => .text s
  | .list _ => .list
  | .table entries => .table (entries.map (·.1)).eraseDups

/-- A JSON value. -/
def ofJson : Json → Value
  | .null => .null
  | .bool b => .bool b
  | .number (.whole i) => .whole i
  | .number (.real x) => .real x
  | .text s => .text s
  | .list _ => .list
  | .record fields => .table (fields.map (·.1)).eraseDups

/-- A whole number of 64 bits with a sign. -/
def integer? (cs : List Char) : Option Int :=
  match cs with
  | '-' :: rest =>
    if rest = [] || !rest.all Text.isDigit then none
    else
      let i : Int := -(Text.ofDigits rest : Int)
      if Text.isSigned64 i then some i else none
  | cs => (Text.natural? Text.maxSigned64 cs).toOption.map fun (n : Nat) => (n : Int)

/-- The value of an environment variable: a truth value, a whole number or a double if it reads as
one, and a text otherwise. -/
def ofVariable (s : String) : Value :=
  let word := Text.lowerAscii s.toList
  if word = "true".toList then .bool true
  else if word = "false".toList then .bool false
  else
    match integer? s.toList with
    | some i => .whole i
    | none =>
      match Decimal.float? s.toList with
      | .ok x => .real x
      | .error _ => .text s

/-- A scalar as text. -/
def toText? : Value → Option String
  | .bool b => some (if b then "true" else "false")
  | .whole i => some (String.ofList (Text.signedDigits i))
  | .real x => some (String.ofList (Decimal.plain.render x))
  | .text s => some s
  | .null | .list | .table _ => none

/-- A double rounded to a count, a half away from zero; what lies outside goes to the nearer end. -/
def roundToCount (x : Float) : Nat :=
  match Decimal.magnitude x with
  | .finite d => if Decimal.negative x then 0 else min (d.roundTo 0) Text.maxUnsigned64
  | .infinite => if Decimal.negative x then 0 else Text.maxUnsigned64
  | .notANumber => 0

/-- A scalar as a count. -/
def toCount? : Value → Option Nat
  | .bool b => some (if b then 1 else 0)
  | .whole i => if 0 ≤ i then some i.toNat else none
  | .real x => some (roundToCount x)
  | .text s =>
    let word := String.ofList (Text.lowerAscii s.toList)
    if ["true", "on", "yes"].contains word then some 1
    else if ["false", "off", "no"].contains word then some 0
    else (Text.natural? Text.maxUnsigned64 s.toList).toOption
  | .null | .list | .table _ => none

/-- The name of one of several choices: a text, or a table with that one entry. -/
def toName? : Value → Option String
  | .text s => some s
  | .table [name] => some name
  | _ => none

end Value

/-! ### Values by name -/

/-- A value given over another one: the entries of two tables are put together, anything else is
replaced. -/
def Value.over (v : Value) : Option Value → Value
  | some (.table old) =>
    match v with
    | .table new => .table (old ++ new.filter fun name => !old.contains name)
    | v => v
  | _ => v

/-- Gives a value to a name. -/
def put (values : Values) (name : String) (v : Value) : Values :=
  let (root, place) := splitName name
  let given :=
    match place with
    | .itself => v
    | .item => .list
    | .entry e => .table [e]
  (root, given.over (values.lookup root)) :: values.filter (·.1 != root)

/-- Gives values to names, the later ones overriding. -/
def putAll (values : Values) (layer : List (String × Value)) : Values :=
  layer.foldl (fun values (name, v) => put values name v) values

/-! ### Layers -/

/-- The prefix of environment variables that are settings. -/
def variablePrefix : String := "warptail_"

/-- A name in lower case, as far as ASCII letters come out: those of ASCII and the Kelvin sign. -/
def lowerName (name : String) : List Char :=
  Text.lowerAscii (name.toList.map fun c => if c = '\u212a' then 'k' else c)

/-- The layer of the environment: variables with the prefix, in any case. -/
def ofEnvironment (environment : List (String × String)) : List (String × Value) :=
  environment.filterMap fun (name, value) =>
    let name := lowerName name
    if variablePrefix.toList.isPrefixOf name then
      some (String.ofList (name.drop variablePrefix.length), Value.ofVariable value)
    else none

/-- What follows the last point of a file's name, unless that is its first character. -/
def fileExtension (path : String) : String :=
  let name := (path.toList.reverse.takeWhile (· != '/')).reverse
  let ending := (name.reverse.takeWhile (· != '.')).reverse
  if ending.length + 1 < name.length then String.ofList ending else ""

/-- A text without the byte order mark that may stand before it. -/
def withoutMark (text : String) : String :=
  match text.toList with
  | '\ufeff' :: cs => String.ofList cs
  | _ => text

/-- The layer of a settings file, if its format is known and its content well formed. -/
def ofFile? (path content : String) : Option (List (String × Value)) :=
  let content := withoutMark content
  if fileExtension path = "toml" then
    (Toml.read? content).map fun entries => entries.map fun (k, v) => (k, Value.ofToml v)
  else if fileExtension path = "json" then
    match Json.read content with
    | .ok (.record fields) => some (fields.map fun (k, v) => (k, Value.ofJson v))
    | _ => none
  else none

/-- The value of a setting, or its default where no layer gives one. -/
def setting {α : Type} (values : Values) (name : String) (absent : α)
    (read : Value → Option α) : Option α :=
  match values.lookup name with
  | none => some absent
  | some v => read v

/-- The settings that values give. -/
def ofValues? (values : Values) : Option Settings := do
  let d : Settings := {}
  let logLevel (v : Value) : Option (Option String) :=
    match v with
    | .null => some none
    | v => v.toText?.map some
  pure {
    window := ← setting values "window" d.window Value.toText?
    interval := ← setting values "interval" d.interval Value.toText?
    smoothing := ← setting values "smoothing" d.smoothing Value.toCount?
    onMalformed := ← setting values "on_malformed" d.onMalformed fun v =>
      v.toName?.bind SamplePolicy.ofText?
    refresh := ← setting values "refresh" d.refresh Value.toText?
    logLevel := ← setting values "log_level" d.logLevel logLevel }

/-- Loads settings from the layer of a file, if one is given, and the environment over it. -/
def load (file : Option (String × Option String)) (environment : List (String × String)) :
    Except Error Settings :=
  let base : Option (List (String × Value)) :=
    match file with
    | none => some []
    | some (_, none) => none
    | some (path, some content) => ofFile? path content
  match base.bind fun layer => ofValues? (putAll (putAll [] layer) (ofEnvironment environment)) with
  | some s => .ok s
  | none => .error .load

end RouteTraffic.Settings
