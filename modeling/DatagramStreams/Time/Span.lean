/-! Instants and spans in nanoseconds. Instants count from a common start, and no span is negative.
-/

set_option autoImplicit false

namespace DatagramStreams

abbrev Instant := Nat

abbrev Span := Nat

namespace Span

def microsecond : Span := 1000
def millisecond : Span := 1000000
def second : Span := 1000000000

def milliseconds (n : Nat) : Span := n * millisecond

/-- Time from `start` to `now`, nothing when the clock reads earlier than `start`. -/
def elapsed (start now : Instant) : Span := now - start

end Span

end DatagramStreams
