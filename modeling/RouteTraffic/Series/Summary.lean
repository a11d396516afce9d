import RouteTraffic.Series

/-!
# The summary of several series

The points of several series merged by instant: samples that fall into the same millisecond
are added, in the order in which they are met.
-/

namespace RouteTraffic

variable {α : Type} [Channel α]

/-- Adds a value at an instant to points in strictly ascending order of time. -/
def addAt (t : Instant) (v : Traffic α) : List (Point α) → List (Point α)
  | [] => [⟨t, v⟩]
  | p :: ps =>
    if p.time = t then ⟨t, p.value + v⟩ :: ps
    else if t ≤ p.time then ⟨t, v⟩ :: p :: ps
    else p :: addAt t v ps

/-- Merges points by the millisecond they fall into. -/
def mergeByMillis (points : List (Point α)) : List (Point α) :=
  points.foldl (fun merged p => addAt p.time.truncateToMillis p.value merged) []

/-- The summary of the series that have samples. -/
def Series.summary (series : List (Series α)) : Series α :=
  let reporting := series.filter fun s => !s.isEmpty
  ⟨mergeByMillis (reporting.flatMap (·.points)), Traffic.sum (reporting.map (·.total))⟩

end RouteTraffic
