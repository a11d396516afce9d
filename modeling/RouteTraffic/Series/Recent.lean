import RouteTraffic.Series

/-!
# The recent part of a series

What a chart shows of a series: the samples of a trailing window sorted by time, gaps longer
than the sampling interval filled by interpolation, and the result smoothed by a moving
average over the samples up to each point.
-/

namespace RouteTraffic

variable {α : Type} [Channel α]

/-- What part of a series is shown, and how. -/
structure SeriesConfig where
  /-- How far back the chart reaches. -/
  window : Span
  /-- The expected distance of samples; longer gaps are filled. -/
  interval : Span
  /-- How many samples the moving average takes. -/
  smoothing : Nat
  deriving DecidableEq, Repr

/-- Ten minutes, sampled each minute, smoothed over three samples. -/
def SeriesConfig.standard : SeriesConfig :=
  ⟨.ofSeconds 600, .ofSeconds 60, 3⟩

/-- The start of the window that ends at `now`; the start of the calendar if it is before that. -/
def windowStart (now : Instant) (window : Span) : Instant :=
  (now.sub? window).getD .first

/-- The points from the start of the window on, sorted by time. -/
def inWindow (points : List (Point α)) (now : Instant) (window : Span) : List (Point α) :=
  sortByTime (points.filter fun p => windowStart now window ≤ p.time)

/-- The instant of the `j`-th synthetic point after `start`, if it comes before `stop`. -/
def stepInstant? (start stop : Instant) (intervalMs : Int) (j : Nat) : Option Instant :=
  match (Span.ofMillis? (min (intervalMs * j) Span.maxMillis)).bind start.add? with
  | some t => if t < stop then some t else none
  | none => none

/-- The synthetic points of a gap.  Their values are spread evenly over the whole number of
intervals that fit into the gap, so the last one may carry the value of `stop` already. -/
def bridge (start stop : Point α) (intervalMs : Int) : List (Point α) :=
  let steps := ((stop.time.since start.time).wholeMillis / intervalMs).toNat
  let candidate (j : Nat) : Option (Point α) :=
    (stepInstant? start.time stop.time intervalMs j).map fun t =>
      ⟨t, start.value.lerp stop.value (Channel.ofNat j / Channel.ofNat steps)⟩
  ((List.range' 1 steps).map candidate).takeWhile Option.isSome |>.filterMap id

/-- The synthetic points between two neighbours, if they are further apart than the interval. -/
def gapPoints (start stop : Point α) (intervalMs : Int) : List (Point α) :=
  if intervalMs < (stop.time.since start.time).wholeMillis then bridge start stop intervalMs else []

/-- Fills the gaps after a point. -/
def fillAfter (intervalMs : Int) (start : Point α) : List (Point α) → List (Point α)
  | [] => []
  | p :: ps => gapPoints start p intervalMs ++ p :: fillAfter intervalMs p ps

/-- Fills every gap longer than the interval.  An interval of less than a millisecond fills
nothing. -/
def fillGaps (points : List (Point α)) (interval : Span) : List (Point α) :=
  if interval.wholeMillis ≤ 0 then points
  else
    match points with
    | [] => []
    | p :: ps => p :: fillAfter interval.wholeMillis p ps

/-- Averages each point with the up to `width - 1` values before it, given newest first. -/
def smoothAfter (width : Nat) (before : List (Traffic α)) : List (Point α) → List (Point α)
  | [] => []
  | p :: ps =>
    let values := (p.value :: before).take width
    ⟨p.time, (Traffic.sum values.reverse).divideBy values.length⟩ :: smoothAfter width values ps

/-- The trailing moving average over `width` samples, or as many as there are; a width of zero
counts as one. -/
def movingAverage (points : List (Point α)) (width : Nat) : List (Point α) :=
  smoothAfter (max width 1) [] points

/-- The recent part of a series as a chart shows it. -/
def recentSeries (points : List (Point α)) (now : Instant) (config : SeriesConfig) :
    List (Point α) :=
  movingAverage (fillGaps (inWindow points now config.window) config.interval) config.smoothing

end RouteTraffic
