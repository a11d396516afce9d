import RouteTraffic.Instant
import RouteTraffic.Traffic

/-!
# Time series

Samples of traffic over time, with the total that their source reports.  The total is a figure
of its own and need not be the sum of the samples.
-/

namespace RouteTraffic

/-- Traffic at an instant. -/
structure Point (α : Type) where
  time : Instant
  value : Traffic α
  deriving DecidableEq, Repr

/-- Samples in the order of their source, and the reported total. -/
structure Series (α : Type) where
  points : List (Point α)
  total : Traffic α
  deriving DecidableEq, Repr

/-- Puts a point before the first one that is not earlier. -/
def insertByTime {α : Type} (p : Point α) : List (Point α) → List (Point α)
  | [] => [p]
  | q :: qs => if p.time ≤ q.time then p :: q :: qs else q :: insertByTime p qs

/-- The points sorted by time; points of one instant keep their order.  Sources report their
samples nearly in order, and then each point finds its place at once. -/
def sortByTime {α : Type} (points : List (Point α)) : List (Point α) :=
  points.foldr insertByTime []

namespace Series

variable {α : Type} [Channel α]

/-- No points and a total of zero. -/
def empty : Series α := ⟨[], 0⟩

instance : Inhabited (Series α) := ⟨empty⟩

/-- There are no points. -/
def isEmpty (s : Series α) : Bool := s.points.isEmpty

/-- The number of points. -/
def length (s : Series α) : Nat := s.points.length

/-- The sum of the points, which is not the total. -/
def pointsSum (s : Series α) : Traffic α := Traffic.sum (s.points.map (·.value))

/-- The earlier of two instants. -/
def earlier (a b : Instant) : Instant := if a ≤ b then a else b

/-- The later of two instants. -/
def later (a b : Instant) : Instant := if a ≤ b then b else a

/-- The first and the last instant, wherever in the list they stand. -/
def span? (s : Series α) : Option (Instant × Instant) :=
  match s.points with
  | [] => none
  | p :: ps =>
    some
      (ps.foldl (fun t q => earlier t q.time) p.time,
        ps.foldl (fun t q => later t q.time) p.time)

/-- Appends a point at a number of milliseconds since the epoch; a number outside the calendar
is left out. -/
def addAtMillis (s : Series α) (ms : Int) (value : Traffic α) : Series α :=
  match Instant.ofEpochMillis? ms with
  | some t => { s with points := s.points ++ [⟨t, value⟩] }
  | none => s

/-- All points of two series, sorted by time; those of the first come before those of the second
at the same instant.  The totals are added. -/
def concat (a b : Series α) : Series α :=
  ⟨sortByTime (a.points ++ b.points), a.total + b.total⟩

end Series

end RouteTraffic
