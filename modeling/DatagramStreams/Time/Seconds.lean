import DatagramStreams.Data.Binary64
import DatagramStreams.Time.Span

/-! Spans in and out of binary64 arithmetic. Seconds round to nanoseconds in exact integer arithmetic.
-/

set_option autoImplicit false

namespace DatagramStreams.Span

/-- A number of seconds, which must not be negative, as a span. -/
def ofSeconds (x : Float) : Span := Binary64.scaled second x.toBits.toNat

def toMillis (s : Span) : Float :=
  (Float.ofNat (s / second) + Float.ofNat (s % second) / 1e9) * 1000.0

end DatagramStreams.Span
