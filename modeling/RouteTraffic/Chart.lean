import RouteTraffic.ByteSize
import RouteTraffic.Instant.Parser
import RouteTraffic.Selection
import RouteTraffic.Series.Recent

/-!
# Charts

The recent part of a selected series, with the totals as text.
-/

namespace RouteTraffic

/-- What a chart shows. -/
structure Chart where
  label : String
  points : List (Point Float)
  totalSent : String
  totalReceived : String

/-- The chart of a selection at a moment. -/
def Chart.build (routes : List Route) (selection : Selection) (now : Instant)
    (config : SeriesConfig) : Chart :=
  let selected := select routes selection
  { label := selected.label
    points := recentSeries selected.series.points now config
    totalSent := ByteSize.format selected.series.total.sent
    totalReceived := ByteSize.format selected.series.total.received }

/-- There is nothing to draw. -/
def Chart.isEmpty (c : Chart) : Bool := c.points.isEmpty

/-- The points as clock times and byte counts. -/
def Chart.rows (c : Chart) (zone : Calendar.Zone) : List (String × String × String) :=
  c.points.map fun p =>
    (p.time.clockTime zone, ByteSize.format p.value.sent, ByteSize.format p.value.received)

/-- What an axis shows where a text is no timestamp. -/
def invalidTick : String := "--:--:--"

/-- The clock time of a timestamp text, as an axis shows it. -/
def Chart.tick (zone : Calendar.Zone) (text : String) : String :=
  match Instant.parse zone text with
  | .ok t => t.clockTime zone
  | .error _ => invalidTick

end RouteTraffic
