import RouteTraffic.Series

/-!
# Recorders

A recorder gathers samples into buckets of time.  A sample of the newest bucket is added to
it, any other opens a new bucket, and only the newest buckets are kept.
-/

namespace RouteTraffic

variable {α : Type} [Channel α]

/-- How a recorder gathers samples. -/
structure RecorderConfig where
  bucket : Span
  maxPoints : Nat
  deriving DecidableEq, Repr

/-- Buckets of one second, a thousand of them. -/
def RecorderConfig.standard : RecorderConfig := ⟨.ofSeconds 1, 1000⟩

/-- The start of the bucket of an instant: the multiple of the bucket since the epoch at or before
it.  Without a bucket of at least a millisecond, or where that multiple is outside the
calendar, it is the instant itself. -/
def bucketStart (bucket : Span) (t : Instant) : Instant :=
  let width := bucket.wholeMillis
  if width ≤ 0 then t
  else (Instant.ofEpochMillis? (t.epochMillis - t.epochMillis % width)).getD t

/-- The buckets of a recorder, the oldest first, and their sum. -/
structure Recorder (α : Type) [Channel α] where
  config : RecorderConfig
  points : List (Point α) := []
  total : Traffic α := 0

namespace Recorder

/-- Adds a value to the last point if it stands at the instant, and appends a point if not. -/
def appendAt (t : Instant) (v : Traffic α) : List (Point α) → List (Point α)
  | [] => [⟨t, v⟩]
  | [p] => if p.time = t then [⟨t, p.value + v⟩] else [p, ⟨t, v⟩]
  | p :: ps => p :: appendAt t v ps

/-- The last `n` points. -/
def keepLast (n : Nat) (points : List (Point α)) : List (Point α) :=
  points.drop (points.length - n)

/-- Records a sample and sums up the buckets that are kept. -/
def record (r : Recorder α) (t : Instant) (v : Traffic α) : Recorder α :=
  let start := bucketStart r.config.bucket t
  let points := keepLast r.config.maxPoints (appendAt start v r.points)
  { r with points, total := Traffic.sum (points.map (·.value)) }

/-- Records bytes sent at this moment. -/
def recordSent (r : Recorder α) (now : Instant) (bytes : UInt64) : Recorder α :=
  r.record now (.ofSent (Channel.ofNat bytes.toNat))

/-- Records bytes received at this moment. -/
def recordReceived (r : Recorder α) (now : Instant) (bytes : UInt64) : Recorder α :=
  r.record now (.ofReceived (Channel.ofNat bytes.toNat))

/-- What has been gathered. -/
def snapshot (r : Recorder α) : Series α :=
  ⟨r.points, r.total⟩

/-- Records samples one after another. -/
def recordAll (r : Recorder α) (samples : List (Instant × Traffic α)) : Recorder α :=
  samples.foldl (fun r s => r.record s.1 s.2) r

end Recorder

end RouteTraffic
