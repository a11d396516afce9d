import RouteTraffic.Json.Number
import RouteTraffic.Text.Utf8

/-!
# JSON tokens

A text is cut into tokens before it is read.  A number or string token holds what it is read
as, or the fault that reading it meets, and apart from that the fault that skipping it meets:
a value that nobody asks for is only skipped, and then a number too large for a double or half
of a surrogate pair does no harm.  Tokens end with the first one that not even skipping gets
past.
-/

namespace RouteTraffic.Json

open Text

/-- A token. -/
inductive Token where
  | openList
  | closeList
  | openRecord
  | closeRecord
  | comma
  | colon
  | null
  | bool (b : Bool)
  | number (read : Except Fault Number) (skip : Option Fault)
  | text (read : Except Fault String) (skip : Option Fault)
  /-- The start of no token, or a word that breaks off. -/
  | broken (fault : Fault)

/-! ### Strings -/

/-- Four hexadecimal digits. -/
def hex4? (a b c d : Char) : Option Nat := do
  let a ← hexValue? a
  let b ← hexValue? b
  let c ← hexValue? c
  let d ← hexValue? d
  pure (((a * 16 + b) * 16 + c) * 16 + d)

/-- The fault where four hexadecimal digits are missing: the text ends unless four bytes follow. -/
def hexFault (cs : List Char) : Fault :=
  if utf8Length cs < 4 then .unfinished else .malformed

/-- What the letter after a backslash stands for. -/
def escaped? (c : Char) : Option Char :=
  if c = '"' || c = '\\' || c = '/' then some c
  else if c = 'b' then some '\x08'
  else if c = 'f' then some '\x0c'
  else if c = 'n' then some '\n'
  else if c = 'r' then some '\r'
  else if c = 't' then some '\t'
  else none

/-- The first half of a surrogate pair. -/
def isHighSurrogate (n : Nat) : Bool := 0xD800 ≤ n && n ≤ 0xDBFF

/-- The second half of a surrogate pair. -/
def isLowSurrogate (n : Nat) : Bool := 0xDC00 ≤ n && n ≤ 0xDFFF

/-- The character of a surrogate pair. -/
def ofSurrogates (high low : Nat) : Char :=
  Char.ofNat (0x10000 + (high - 0xD800) * 0x400 + (low - 0xDC00))

/-- Puts a character before the rest of a string. -/
def consChar (c : Char) (r : Except Fault (List Char × List Char)) :
    Except Fault (List Char × List Char) :=
  r.map fun (s, rest) => (c :: s, rest)

/-- Reads a string after its opening quote, and returns the text after its closing one. -/
def readString : List Char → Except Fault (List Char × List Char)
  | [] => .error .unfinished
  | '"' :: rest => .ok ([], rest)
  | '\\' :: [] => .error .unfinished
  | '\\' :: 'u' :: a :: b :: c :: d :: rest =>
    match hex4? a b c d with
    | none => .error .malformed
    | some n =>
      if isLowSurrogate n then .error .malformed
      else if isHighSurrogate n then
        match rest with
        | '\\' :: 'u' :: e :: f :: g :: h :: rest =>
          match hex4? e f g h with
          | none => .error .malformed
          | some m =>
            if isLowSurrogate m then consChar (ofSurrogates n m) (readString rest)
            else .error .malformed
        | '\\' :: 'u' :: rest => .error (hexFault rest)
        | '\\' :: _ :: _ => .error .malformed
        | ['\\'] => .error .unfinished
        | [] => .error .unfinished
        | _ :: _ => .error .malformed
      else consChar (Char.ofNat n) (readString rest)
  | '\\' :: 'u' :: rest => .error (hexFault rest)
  | '\\' :: c :: rest =>
    match escaped? c with
    | some e => consChar e (readString rest)
    | none => .error .malformed
  | c :: rest => if c.toNat < 0x20 then .error .malformed else consChar c (readString rest)

/-- Skips a string after its opening quote. -/
def skipString : List Char → Except Fault (List Char)
  | [] => .error .unfinished
  | '"' :: rest => .ok rest
  | '\\' :: [] => .error .unfinished
  | '\\' :: 'u' :: a :: b :: c :: d :: rest =>
    match hex4? a b c d with
    | none => .error .malformed
    | some _ => skipString rest
  | '\\' :: 'u' :: rest => .error (hexFault rest)
  | '\\' :: c :: rest =>
    match escaped? c with
    | some _ => skipString rest
    | none => .error .malformed
  | c :: rest => if c.toNat < 0x20 then .error .malformed else skipString rest

/-! ### Words -/

/-- The text after a word, of which `expected` is still to come. -/
def word (expected cs : List Char) : Except Fault (List Char) :=
  match expected, cs with
  | [], cs => .ok cs
  | _ :: _, [] => .error .unfinished
  | e :: es, c :: cs => if c = e then word es cs else .error .malformed

/-! ### Cutting a text -/

/-- The white space of JSON. -/
def isSpace (c : Char) : Bool := c = ' ' || c = '\n' || c = '\t' || c = '\r'

/-- The token that starts with `c`, and the text after it if there is a way past it. -/
def token (c : Char) (rest : List Char) : Token × Option (List Char) :=
  if c = '[' then (.openList, some rest)
  else if c = ']' then (.closeList, some rest)
  else if c = '\x7b' then (.openRecord, some rest)
  else if c = '\x7d' then (.closeRecord, some rest)
  else if c = ',' then (.comma, some rest)
  else if c = ':' then (.colon, some rest)
  else if c = '"' then
    let read := (readString rest).map fun (s, _) => String.ofList s
    match skipString rest with
    | .ok rest => (.text read none, some rest)
    | .error f => (.text read (some f), none)
  else if c = 'n' then ofWord .null (word "ull".toList rest)
  else if c = 't' then ofWord (.bool true) (word "rue".toList rest)
  else if c = 'f' then ofWord (.bool false) (word "alse".toList rest)
  else if c = '-' || isDigit c then
    let read := (readNumber (c :: rest)).map fun (n, _) => n
    match skipNumber (c :: rest) with
    | .ok rest => (.number read none, some rest)
    | .error f => (.number read (some f), none)
  else (.broken .malformed, none)
where
  ofWord (t : Token) : Except Fault (List Char) → Token × Option (List Char)
    | .ok rest => (t, some rest)
    | .error f => (.broken f, none)

/-- The tokens of a text, each found in the text left by the one before. -/
def tokensWithin : Nat → List Char → List Token
  | 0, _ => []
  | _ + 1, [] => []
  | fuel + 1, c :: rest =>
    if isSpace c then tokensWithin fuel rest
    else
      match token c rest with
      | (t, some rest) => t :: tokensWithin fuel rest
      | (t, none) => [t]

/-- The tokens of a text.  Each takes at least one character, so there are no more than those. -/
def tokens (cs : List Char) : List Token := tokensWithin cs.length cs

end RouteTraffic.Json
