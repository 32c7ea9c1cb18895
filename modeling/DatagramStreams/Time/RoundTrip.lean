import DatagramStreams.Time.Seconds

/-! The adaptive retransmission timeout: a smoothed round-trip time and its smoothed deviation.
The arithmetic is a parameter throughout, so that the estimator runs on binary64 numbers and can be read
over exact rationals.
-/

set_option autoImplicit false

namespace DatagramStreams

class Measure (α : Type) extends Add α, Sub α, Mul α, Max α where
  zero : α
  eighth : α
  quarter : α
  four : α
  magnitude : α → α
  ofSpan : Span → α
  /-- To the nearest nanosecond, of a number that is not negative. -/
  toSpan : α → Span

instance : Measure Float where
  max a b := if a < b then b else a
  zero := 0
  eighth := 0.125
  quarter := 0.25
  four := 4
  magnitude := Float.abs
  ofSpan := Span.toMillis
  toSpan x := Span.ofSeconds (x / 1000.0)

structure Estimate (α : Type) where
  mean : α
  deviation : α

namespace Estimate

variable {α : Type} [Measure α]

def initial : Estimate α := ⟨Measure.zero, Measure.zero⟩

/-- The deviation is measured against the mean that already holds the sample. -/
def fold (e : Estimate α) (sample : α) : Estimate α :=
  let mean := e.mean + Measure.eighth * (sample - e.mean)
  ⟨mean, e.deviation + Measure.quarter * (Measure.magnitude (sample - mean) - e.deviation)⟩

def bound (e : Estimate α) : α := max (e.mean + Measure.four * e.deviation) Measure.zero

end Estimate

/-- `fallback` stands for the timeout until a first sample has arrived. -/
structure RoundTrip (α : Type := Float) [Measure α] where
  fallback : Span
  estimate : Estimate α := .initial
  hasSample : Bool := false

namespace RoundTrip

variable {α : Type} [Measure α]

def minimum : Span := Span.milliseconds 10

def update (r : RoundTrip α) (sample : Span) : RoundTrip α :=
  { r with estimate := r.estimate.fold (Measure.ofSpan sample), hasSample := true }

def timeout (r : RoundTrip α) : Span :=
  if r.hasSample then max (Measure.toSpan r.estimate.bound) minimum else r.fallback

end RoundTrip

end DatagramStreams
