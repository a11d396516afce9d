import RouteTraffic.Route
import RouteTraffic.Text.Blank

/-!
# Selections

What of a service a chart shows: the summary of all routes, or one route by its key.
-/

namespace RouteTraffic

/-- All routes together, or the route with a key. -/
inductive Selection where
  | all
  | route (key : UInt32)
  deriving DecidableEq, Repr

namespace Selection

/-- The label of the summary. -/
def summaryLabel : String := "All Routes (Summary)"

/-- The label where there is nothing to show. -/
def noDataLabel : String := "No Data"

/-- Reads `all` in any case, or a key, with blanks around it. -/
def parse (text : String) : Except Text.IntegerError Selection :=
  let cs := Text.trim text.toList
  if Text.lowerAscii cs = "all".toList then .ok .all
  else (Text.natural? (UInt32.size - 1) cs).map fun key => .route (UInt32.ofNat key)

/-- The text of a selection, which reads back as it. -/
def toText : Selection → String
  | .all => "all"
  | .route key => String.ofList (Text.digits key.toNat)

end Selection

/-- A series with the label of what it shows. -/
structure SelectedSeries where
  label : String
  series : Series Float

/-- The first route with the selection key, with its position. -/
def findRoute? (routes : List Route) (key : UInt32) : Option (Route × Nat) :=
  routes.zipIdx.find? fun (r, i) => r.selectionKey i == key

/-- The series that a selection shows. -/
def select (routes : List Route) : Selection → SelectedSeries
  | .all => ⟨Selection.summaryLabel, summarize routes⟩
  | .route key =>
    match findRoute? routes key with
    | some (r, i) =>
      match r.stats with
      | some s => ⟨r.label i, s⟩
      | none => ⟨Selection.noDataLabel, .empty⟩
    | none => ⟨Selection.noDataLabel, .empty⟩

end RouteTraffic
