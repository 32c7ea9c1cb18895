import DatagramStreams.Time.Span

/-! Settings of a connection.
-/

set_option autoImplicit false

namespace DatagramStreams

structure Settings where
  initialTimeout : Span := Span.milliseconds 500
  /-- A connection closes when packets stay unacknowledged for longer. -/
  sendTimeout : Span := Span.milliseconds 5000
  pendingLife : Span := Span.milliseconds 5000
  retryInterval : Span := Span.milliseconds 500
  /-- How long an ACK waits for a packet that may carry it. -/
  ackDelay : Span := Span.milliseconds 50
  fastRetransmit : Bool := true
  deriving DecidableEq, Repr

end DatagramStreams
