/-!
# UTF-8

The length of texts in bytes.
-/

namespace RouteTraffic.Text

/-- The number of bytes of a text in UTF-8. -/
def utf8Length (cs : List Char) : Nat :=
  cs.foldl (fun n c => n + c.utf8Size) 0

end RouteTraffic.Text
