import RouteTraffic.Decimal.Binary64

/-!
# Byte counts

What was observed at one moment: bytes sent and bytes received.  The arithmetic of the two
channels is left open, so that everything built on counts can be read over doubles, which is
what the program runs on, and over exact rationals.
-/

namespace RouteTraffic

/-- The arithmetic that series need of a channel. -/
class Channel (α : Type) extends Zero α, Add α, Sub α, Mul α, Div α where
  /-- A whole number as a value of the channel. -/
  ofNat : Nat → α

instance : Channel Float where
  ofNat := Decimal.ofNat

instance : Channel Rat where
  zero := Rat.ofInt 0
  add := Rat.add
  sub := Rat.sub
  mul := Rat.mul
  div := Rat.div
  ofNat n := Rat.ofInt n

/-- Bytes sent and bytes received. -/
structure Traffic (α : Type) where
  sent : α
  received : α
  deriving DecidableEq, Repr

namespace Traffic

variable {α : Type} [Channel α]

/-- Nothing sent and nothing received. -/
def zero : Traffic α := ⟨0, 0⟩

instance : Zero (Traffic α) := ⟨zero⟩

instance : Inhabited (Traffic α) := ⟨zero⟩

/-- Bytes that were sent. -/
def ofSent (bytes : α) : Traffic α := ⟨bytes, 0⟩

/-- Bytes that were received. -/
def ofReceived (bytes : α) : Traffic α := ⟨0, bytes⟩

/-- Channel by channel. -/
def add (a b : Traffic α) : Traffic α := ⟨a.sent + b.sent, a.received + b.received⟩

instance : Add (Traffic α) := ⟨add⟩

/-- The sum from the left, starting at zero. -/
def sum (values : List (Traffic α)) : Traffic α := values.foldl (· + ·) 0

theorem sum_concat (values : List (Traffic α)) (value : Traffic α) :
    sum (values ++ [value]) = sum values + value := by
  unfold sum
  rw [List.foldl_append]
  rfl

/-- Both channels divided by a number of samples. -/
def divideBy (t : Traffic α) (count : Nat) : Traffic α :=
  ⟨t.sent / Channel.ofNat count, t.received / Channel.ofNat count⟩

/-- The value at a fraction of the way from one value to another. -/
def lerp (start stop : Traffic α) (fraction : α) : Traffic α :=
  ⟨start.sent + (stop.sent - start.sent) * fraction,
    start.received + (stop.received - start.received) * fraction⟩

/-- Both counts are finite and neither is below zero. -/
def isValid (t : Traffic Float) : Bool := ok t.sent && ok t.received
where
  ok (x : Float) : Bool := x.isFinite && 0.0 ≤ x

end Traffic

end RouteTraffic
