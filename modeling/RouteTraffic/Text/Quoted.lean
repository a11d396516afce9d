import RouteTraffic.Text.Digits
import RouteTraffic.Text.GraphemeExtend
import RouteTraffic.Text.Printable

/-!
# Quoted text

Text as messages quote it: between double quotes, with a backslash before quotes and
backslashes, short escapes for the common controls, and a hexadecimal escape for every other
character that could not be seen.
-/

namespace RouteTraffic.Text

/-- A mark that would be drawn over the quote or letter before it.  The halfwidth sound marks extend
a grapheme too, but are drawn on their own. -/
def isAttached (c : Char) : Bool := isGraphemeExtend c && c != '\uff9e' && c != '\uff9f'

/-- The Hangul fillers: letters that are drawn as nothing. -/
def isFiller (c : Char) : Bool :=
  c = '\u115f' || c = '\u1160' || c = '\u3164' || c = '\uffa0'

/-- A character by its code point, as `\u{…}`. -/
def codePointEscape (c : Char) : List Char :=
  '\\' :: 'u' :: '\x7b' :: hexDigits c.toNat ++ ['\x7d']

/-- One character inside the quotes. -/
def quotedChar (c : Char) : List Char :=
  if c = '\x00' then ['\\', '0']
  else if c = '\t' then ['\\', 't']
  else if c = '\r' then ['\\', 'r']
  else if c = '\n' then ['\\', 'n']
  else if c = '\\' || c = '"' then ['\\', c]
  else if isAttached c || isFiller c || !isPrintable c then codePointEscape c
  else [c]

/-- The text between quotes. -/
def quoted (s : String) : String :=
  String.ofList ('"' :: s.toList.flatMap quotedChar ++ ['"'])

end RouteTraffic.Text
