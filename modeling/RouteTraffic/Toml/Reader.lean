import RouteTraffic.Text.Blank
import RouteTraffic.Toml

/-!
# Reading TOML documents

A document is a sequence of lines: assignments, and headers that open the table into which the
assignments after them go.  A table may be named by several headers and dotted keys as long as
nothing is defined twice.  Keys of more than eighty parts and values in more than eighty brackets
are refused.
-/

namespace RouteTraffic.Toml

open Text

/-! ### Blanks, comments and strings -/

/-- A character that may stand in comments and strings. -/
def isPlain (c : Char) : Bool := c = '\t' || (0x20 ≤ c.toNat && c.toNat != 0x7F)

/-- The text after a comment, which ends with its line. -/
def skipComment (cs : List Char) : List Char :=
  match cs with
  | '#' :: rest => rest.dropWhile isPlain
  | cs => cs

/-- The text after a line end. -/
def newline? : List Char → Option (List Char)
  | '\n' :: rest => some rest
  | '\r' :: '\n' :: rest => some rest
  | _ => none

/-- The text after the rest of a line that holds no more than a comment. -/
def endOfLine? (cs : List Char) : Option (List Char) :=
  match skipComment (skipSpaces cs) with
  | [] => some []
  | cs => newline? cs

/-- The text after blanks, comments and line ends. -/
def skipLines : Nat → List Char → List Char
  | 0, cs => cs
  | fuel + 1, cs =>
    let cs := skipComment (skipSpaces cs)
    match newline? cs with
    | some cs => skipLines fuel cs
    | none => cs

/-- The character of a hexadecimal escape. -/
def codePoint? (ds : List Char) : Option Char :=
  if ds.all fun c => (hexValue? c).isSome then
    let n := ofBase 16 ds
    if n < 0xD800 ∨ (0xDFFF < n ∧ n < 0x110000) then some (Char.ofNat n) else none
  else none

/-- What the letter after a backslash stands for. -/
def escaped? (c : Char) : Option Char :=
  if c = '"' || c = '\\' then some c
  else if c = 'b' then some '\x08'
  else if c = 't' then some '\t'
  else if c = 'n' then some '\n'
  else if c = 'f' then some '\x0c'
  else if c = 'r' then some '\r'
  else if c = 'e' then some '\x1b'
  else none

/-- Puts a character before the rest of a string. -/
def consChar (c : Char) (r : Option (List Char × List Char)) : Option (List Char × List Char) :=
  r.map fun (s, rest) => (c :: s, rest)

/-- A string with escapes, after its opening quote. -/
def basicString? : List Char → Option (List Char × List Char)
  | [] => none
  | '"' :: rest => some ([], rest)
  | '\\' :: 'x' :: a :: b :: rest =>
    (codePoint? [a, b]).bind fun e => consChar e (basicString? rest)
  | '\\' :: 'u' :: a :: b :: c :: d :: rest =>
    (codePoint? [a, b, c, d]).bind fun e => consChar e (basicString? rest)
  | '\\' :: 'U' :: a :: b :: c :: d :: e :: f :: g :: h :: rest =>
    (codePoint? [a, b, c, d, e, f, g, h]).bind fun e => consChar e (basicString? rest)
  | '\\' :: c :: rest => (escaped? c).bind fun e => consChar e (basicString? rest)
  | c :: rest => if isPlain c then consChar c (basicString? rest) else none

/-- A string without escapes, after its opening quote. -/
def literalString? (cs : List Char) : Option (List Char × List Char) :=
  match cs.dropWhile fun c => isPlain c && c != '\x27' with
  | '\x27' :: rest => some (cs.takeWhile (fun c => isPlain c && c != '\x27'), rest)
  | _ => none

/-- A line end right after the opening quotes is no part of the string. -/
def skipFirstNewline (cs : List Char) : List Char :=
  (newline? cs).getD cs

/-- Closing quotes of a string of several lines: up to two quotes may stand right before them. -/
def closing? (q : Char) (cs : List Char) : Option (List Char × List Char) :=
  let count := ((cs.takeWhile (· == q)).take 5).length
  if 3 ≤ count then some (List.replicate (count - 3) q, cs.drop count) else none

/-- The text after blanks and line ends. -/
def skipBreaks : List Char → List Char
  | '\r' :: '\n' :: rest => skipBreaks rest
  | '\n' :: rest => skipBreaks rest
  | c :: rest => if isSpaceOrTab c then skipBreaks rest else c :: rest
  | [] => []

/-- A string of several lines with escapes, after its opening quotes.  A backslash before a line
end removes the blanks up to the next other character. -/
def basicLines? : Nat → List Char → Option (List Char × List Char)
  | 0, _ => none
  | fuel + 1, cs =>
    match closing? '"' cs with
    | some r => some r
    | none =>
      match cs with
      | [] => none
      | '\\' :: 'x' :: a :: b :: rest =>
        (codePoint? [a, b]).bind fun e => consChar e (basicLines? fuel rest)
      | '\\' :: 'u' :: a :: b :: c :: d :: rest =>
        (codePoint? [a, b, c, d]).bind fun e => consChar e (basicLines? fuel rest)
      | '\\' :: 'U' :: a :: b :: c :: d :: e :: f :: g :: h :: rest =>
        (codePoint? [a, b, c, d, e, f, g, h]).bind fun e => consChar e (basicLines? fuel rest)
      | '\\' :: rest =>
        match newline? (skipSpaces rest) with
        | some rest => basicLines? fuel (skipBreaks rest)
        | none =>
          match rest with
          | c :: rest => (escaped? c).bind fun e => consChar e (basicLines? fuel rest)
          | [] => none
      | '\r' :: '\n' :: rest => consChar '\r' (consChar '\n' (basicLines? fuel rest))
      | '\n' :: rest => consChar '\n' (basicLines? fuel rest)
      | c :: rest => if isPlain c then consChar c (basicLines? fuel rest) else none

/-- A string of several lines without escapes, after its opening quotes. -/
def literalLines? : Nat → List Char → Option (List Char × List Char)
  | 0, _ => none
  | fuel + 1, cs =>
    match closing? '\x27' cs with
    | some r => some r
    | none =>
      match cs with
      | [] => none
      | '\r' :: '\n' :: rest => consChar '\r' (consChar '\n' (literalLines? fuel rest))
      | '\n' :: rest => consChar '\n' (literalLines? fuel rest)
      | c :: rest => if isPlain c then consChar c (literalLines? fuel rest) else none

/-- A string in any of the four forms, from its opening quotes on. -/
def string? (cs : List Char) : Option (List Char × List Char) :=
  match cs with
  | '"' :: '"' :: '"' :: rest => basicLines? (rest.length + 1) (skipFirstNewline rest)
  | '\x27' :: '\x27' :: '\x27' :: rest => literalLines? (rest.length + 1) (skipFirstNewline rest)
  | '"' :: rest => basicString? rest
  | '\x27' :: rest => literalString? rest
  | _ => none

/-! ### Keys -/

/-- A character of a key without quotes. -/
def isBare (c : Char) : Bool :=
  isDigit c || ('a' ≤ c && c ≤ 'z') || ('A' ≤ c && c ≤ 'Z') || c = '_' || c = '-'

/-- One part of a key. -/
def keyPart? (cs : List Char) : Option (String × List Char) :=
  match cs with
  | '"' :: rest => (basicString? rest).map fun (s, rest) => (String.ofList s, rest)
  | '\x27' :: rest => (literalString? rest).map fun (s, rest) => (String.ofList s, rest)
  | cs =>
    let name := cs.takeWhile isBare
    if name = [] then none else some (String.ofList name, cs.dropWhile isBare)

/-- How many parts a key may have, and in how many brackets a value may stand. -/
def maxDepth : Nat := 80

/-- A key of up to so many parts, with dots between them. -/
def keyParts? : Nat → List Char → Option (List String × List Char)
  | 0, _ => none
  | count + 1, cs => do
    let (part, rest) ← keyPart? (skipSpaces cs)
    match skipSpaces rest with
    | '.' :: rest => (keyParts? count rest).map fun (parts, rest) => (part :: parts, rest)
    | rest => some ([part], rest)

/-- A key of one part or several parts with dots between them. -/
def key? (cs : List Char) : Option (List String × List Char) := keyParts? maxDepth cs

/-! ### Tables under construction -/

/-- What a name stands for while a document is read. -/
inductive Node where
  /-- A finished value, inline tables and lists included. -/
  | value (v : Toml)
  /-- A table.  It is implicit until a header of its own names it, and `dotted` once a dotted key
  has led through it. -/
  | table (implicit dotted : Bool) (entries : List (String × Node))
  /-- A list of tables, the newest first. -/
  | tables (items : List (List (String × Node)))

mutual

/-- The value of a node. -/
def Node.toToml : Node → Toml
  | .value v => v
  | .table _ _ entries => .table (entriesToToml entries)
  | .tables items => .list (itemsToToml items).reverse

/-- The entries of a table. -/
def entriesToToml : List (String × Node) → List (String × Toml)
  | [] => []
  | (k, n) :: rest => (k, n.toToml) :: entriesToToml rest

/-- The items of a list of tables. -/
def itemsToToml : List (List (String × Node)) → List Toml
  | [] => []
  | entries :: rest => .table (entriesToToml entries) :: itemsToToml rest

end

/-- The entries of a table under construction. -/
abbrev Entries : Type := List (String × Node)

/-- The entries with the node of a name replaced or added. -/
def setEntry (name : String) (n : Node) : Entries → Entries
  | [] => [(name, n)]
  | (k, m) :: rest => if k = name then (name, n) :: rest else (k, m) :: setEntry name n rest

/-- Changes the entries of the table that a path of headers leads to. -/
def atHeaderPath? (change : Entries → Option Entries) : List String → Entries → Option Entries
  | [], entries => change entries
  | name :: path, entries =>
    match entries.lookup name with
    | none =>
      (atHeaderPath? change path []).map fun e => setEntry name (.table true false e) entries
    | some (.table i d inner) =>
      (atHeaderPath? change path inner).map fun e => setEntry name (.table i d e) entries
    | some (.tables (newest :: older)) =>
      (atHeaderPath? change path newest).map fun e => setEntry name (.tables (e :: older)) entries
    | some _ => none

/-- Stores a value under a dotted key.  The key may lead through implicit tables, and through the
newest of a list of tables to one inside it. -/
def assign? (v : Toml) : List String → Entries → Option Entries
  | [], _ => none
  | [name], entries =>
    match entries.lookup name with
    | none => some (setEntry name (.value v) entries)
    | some _ => none
  | name :: path, entries =>
    match entries.lookup name with
    | none => (assign? v path []).map fun e => setEntry name (.table true true e) entries
    | some (.table true _ inner) =>
      (assign? v path inner).map fun e => setEntry name (.table true true e) entries
    | some (.tables (newest :: older)) =>
      if path.length = 1 then none
      else (assign? v path newest).map fun e => setEntry name (.tables (e :: older)) entries
    | some _ => none

/-- Opens the table of a header. -/
def openTable? (path : List String) (entries : Entries) : Option Entries :=
  match path.getLast? with
  | none => none
  | some name =>
    atHeaderPath? (fun entries =>
      match entries.lookup name with
      | none => some (setEntry name (.table false false []) entries)
      | some (.table true false inner) => some (setEntry name (.table false false inner) entries)
      | some _ => none) path.dropLast entries

/-- Opens the next table of a list of tables. -/
def openItem? (path : List String) (entries : Entries) : Option Entries :=
  match path.getLast? with
  | none => none
  | some name =>
    atHeaderPath? (fun entries =>
      match entries.lookup name with
      | none => some (setEntry name (.tables [[]]) entries)
      | some (.tables items) => some (setEntry name (.tables ([] :: items)) entries)
      | some _ => none) path.dropLast entries

/-! ### Values -/

/-- A character of a value without quotes and brackets. -/
def isScalarChar (c : Char) : Bool :=
  isBare c || c = '+' || c = '.' || c = ':'

/-- The text of a value without quotes: a blank between a date and a time belongs to it. -/
def scalarText (cs : List Char) : List Char :=
  let first := cs.takeWhile isScalarChar
  match cs.drop first.length with
  | ' ' :: rest =>
    if (date? first).any (·.2 = []) && (rest.take 1).all isDigit && rest ≠ [] then
      first ++ ' ' :: rest.takeWhile isScalarChar
    else first
  | _ => first

mutual

/-- A value that opens up to `depth` brackets inside each other, and the text after it. -/
def value? : Nat → Nat → List Char → Option (Toml × List Char)
  | 0, _, _ => none
  | fuel + 1, depth, cs =>
    match cs, depth with
    | '[' :: _, 0 | '\x7b' :: _, 0 => none
    | '[' :: rest, depth + 1 =>
      (items? fuel depth (skipLines rest.length rest)).map fun (vs, rest) => (.list vs, rest)
    | '\x7b' :: rest, depth + 1 =>
      (entries? fuel depth [] (skipLines rest.length rest)).map fun (es, rest) =>
        (.table (entriesToToml es), rest)
    | c :: _, _ =>
      if c = '"' || c = '\x27' then
        (string? cs).map fun (s, rest) => (.text (String.ofList s), rest)
      else
        let text := scalarText cs
        (scalar? text).map fun v => (v, cs.drop text.length)
    | [], _ => none

/-- The items of a list, and its end. -/
def items? : Nat → Nat → List Char → Option (List Toml × List Char)
  | 0, _, _ => none
  | fuel + 1, depth, cs =>
    match cs with
    | ']' :: rest => some ([], rest)
    | cs =>
      match value? fuel depth cs with
      | none => none
      | some (v, rest) =>
        match skipLines rest.length rest with
        | ',' :: rest =>
          (items? fuel depth (skipLines rest.length rest)).map fun (vs, rest) => (v :: vs, rest)
        | ']' :: rest => some ([v], rest)
        | _ => none

/-- The assignments of an inline table, which may stand on several lines, and its end. -/
def entries? : Nat → Nat → Entries → List Char → Option (Entries × List Char)
  | 0, _, _, _ => none
  | _ + 1, _, es, '\x7d' :: rest => some (es, rest)
  | fuel + 1, depth, es, cs =>
    match key? cs with
    | none => none
    | some (path, rest) =>
      match skipLines rest.length rest with
      | '=' :: rest =>
        match value? fuel depth (skipLines rest.length rest) with
        | none => none
        | some (v, rest) =>
          match assign? v path es with
          | none => none
          | some es =>
            match skipLines rest.length rest with
            | ',' :: rest => entries? fuel depth es (skipLines rest.length rest)
            | '\x7d' :: rest => some (es, rest)
            | _ => none
      | _ => none

end

/-! ### Documents -/

/-- A document under construction: its entries, and the path of the table that is open. -/
structure Builder where
  entries : Entries := []
  path : List String := []

/-- Reads a line: a header or an assignment. -/
def line? (b : Builder) (cs : List Char) : Option (Builder × List Char) :=
  match cs with
  | '[' :: '[' :: rest =>
    match key? rest with
    | some (path, ']' :: ']' :: rest) => do
      let rest ← endOfLine? rest
      pure (⟨← openItem? path b.entries, path⟩, rest)
    | _ => none
  | '[' :: rest =>
    match key? rest with
    | some (path, ']' :: rest) => do
      let rest ← endOfLine? rest
      pure (⟨← openTable? path b.entries, path⟩, rest)
    | _ => none
  | cs =>
    match key? cs with
    | some (path, '=' :: rest) => do
      let (v, rest) ← value? (2 * rest.length + 1) maxDepth (skipSpaces rest)
      let rest ← endOfLine? rest
      pure ({ b with entries := ← atHeaderPath? (assign? v path) b.path b.entries }, rest)
    | _ => none

/-- Reads the lines of a document. -/
def lines? : Nat → Builder → List Char → Option Builder
  | 0, _, _ => none
  | fuel + 1, b, cs =>
    match skipLines cs.length cs with
    | [] => some b
    | cs => (line? b cs).bind fun (b, rest) => lines? fuel b rest

/-- The entries of a document; a byte order mark may stand before it. -/
def read? (text : String) : Option (List (String × Toml)) :=
  let cs :=
    match text.toList with
    | '\ufeff' :: cs => cs
    | cs => cs
  (lines? (cs.length + 1) {} cs).map fun b => entriesToToml b.entries

end RouteTraffic.Toml
