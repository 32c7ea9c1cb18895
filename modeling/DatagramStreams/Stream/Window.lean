import DatagramStreams.Failure
import DatagramStreams.Time.RoundTrip
import DatagramStreams.Time.Timer

/-! Packets in flight on a reliable stream. ACKs are cumulative: one that lies `d` steps past the base
removes the `d` oldest packets. A timeout halves the window, and three ACKs that repeat the base
stand for a lost packet. Main statement: an ACK drops as many packets as it reports
(`packets_acknowledge`), and nothing else takes a packet out.
-/

set_option autoImplicit false

namespace DatagramStreams

structure InFlight where
  packet : Packet
  lastSent : Instant
  deriving DecidableEq, Repr

structure SendWindow where
  /-- Sequence of the oldest packet in flight, or of the next packet when there is none. -/
  base : Seq
  size : Nat
  sent : List InFlight := []
  retransmitTimer : Timer := {}
  /-- Runs since the last ACK that removed packets. -/
  closeTimer : Timer := {}
  roundTrip : RoundTrip
  fastRetransmit : Bool := true
  repeatedAcks : Nat := 0
  /-- A packet was once registered behind the base, or into a full window. -/
  misused : Bool := false

namespace SendWindow

def minSize : Nat := 5
def maxSize : Nat := 100

def repeatThreshold : Nat := 3

def new (base : Seq) (initialTimeout : Span) : SendWindow where
  base := base
  size := minSize
  roundTrip := { fallback := initialTimeout }

def setFastRetransmit (w : SendWindow) (on : Bool) : SendWindow :=
  { w with fastRetransmit := on, repeatedAcks := 0 }

def inFlight (w : SendWindow) : Nat := w.sent.length

def isFull (w : SendWindow) : Bool := w.size ≤ w.inFlight

def timeout (w : SendWindow) : Span := w.roundTrip.timeout

def packets (w : SendWindow) : List Packet := w.sent.map InFlight.packet

/-- Registers a packet just handed to the socket. Running timers go on timing the oldest packet. The
caller answers for the order of packets and for room; a call without either is noted. -/
def register (w : SendWindow) (p : Packet) (now : Instant) : SendWindow :=
  { w with
    retransmitTimer := w.retransmitTimer.ensureStarted now
    closeTimer := w.closeTimer.ensureStarted now
    sent := w.sent ++ [⟨p, now⟩]
    misused := w.misused || !Seq.isNew w.base p.sequence || w.isFull }

def fill (now : Instant) : List Packet → SendWindow → List Packet × SendWindow
  | [], w => ([], w)
  | p :: rest, w => if w.isFull then (p :: rest, w) else fill now rest (w.register p now)

def countRepeat (w : SendWindow) (acked : Nat) : SendWindow :=
  if w.fastRetransmit then
    { w with repeatedAcks := if acked = 0 then w.repeatedAcks + 1 else 0 }
  else w

def timerAfter (rest : List InFlight) (now : Instant) : Timer :=
  if rest.isEmpty then .stopped else .startedAt now

/-- Removes the `acked` oldest packets and takes a round-trip sample from each. -/
def remove (w : SendWindow) (acked : Nat) (now : Instant) : SendWindow :=
  let rest := w.sent.drop acked
  { w with
    base := w.base + UInt16.ofNat acked
    size := min (w.size + acked) maxSize
    sent := rest
    roundTrip := (w.sent.take acked).foldl
      (fun r e => r.update (Span.elapsed e.lastSent now)) w.roundTrip
    retransmitTimer := timerAfter rest now
    closeTimer := timerAfter rest now }

def acknowledge (w : SendWindow) (ack : Seq) (now : Instant) :
    Except ConnectionError Nat × SendWindow :=
  let acked := Seq.distance w.base ack
  if !Seq.isNew w.base ack then (.ok 0, w)
  else if w.inFlight < acked then (.error (.violation w.base ack acked w.inFlight), w)
  else if acked = 0 then (.ok 0, w.countRepeat 0)
  else (.ok acked, (w.countRepeat acked).remove acked now)

/-- Whether all packets in flight must be sent again now. Repeated ACKs are used up by it, a plain
timeout halves the window, and both start the retransmit timer again. -/
def retransmitDue (w : SendWindow) (now : Instant) : Bool × SendWindow :=
  if w.fastRetransmit && repeatThreshold ≤ w.repeatedAcks then
    (true, { w with
      repeatedAcks := 0
      retransmitTimer := if w.retransmitTimer.isActive then .startedAt now else w.retransmitTimer })
  else if w.retransmitTimer.hasPassed now w.timeout then
    (true, { w with retransmitTimer := .startedAt now, size := max (w.size / 2) minSize })
  else (false, w)

def markResent (w : SendWindow) (now : Instant) : SendWindow :=
  { w with sent := w.sent.map fun e => { e with lastSent := now } }

def isDead (w : SendWindow) (now : Instant) (limit : Span) : Bool :=
  w.closeTimer.hasPassed now limit

@[simp] theorem packets_register (w : SendWindow) (p : Packet) (now : Instant) :
    (w.register p now).packets = w.packets ++ [p] := by
  simp [register, packets]

@[simp] theorem packets_markResent (w : SendWindow) (now : Instant) :
    (w.markResent now).packets = w.packets := by
  simp [markResent, packets, Function.comp_def]

theorem packets_remove (w : SendWindow) (acked : Nat) (now : Instant) :
    (w.remove acked now).packets = w.packets.drop acked := by
  simp [remove, packets, List.map_drop]

@[simp] theorem packets_countRepeat (w : SendWindow) (acked : Nat) :
    (w.countRepeat acked).packets = w.packets := by
  cases h : w.fastRetransmit <;> simp [countRepeat, packets, h]

@[simp] theorem length_packets (w : SendWindow) : w.packets.length = w.inFlight := by
  simp [packets, inFlight]

theorem packets_retransmitDue (w : SendWindow) (now : Instant) :
    (w.retransmitDue now).2.packets = w.packets := by
  unfold retransmitDue packets
  split
  · rfl
  · split <;> rfl

theorem packets_acknowledge (w : SendWindow) (ack : Seq) (now : Instant) :
    (w.acknowledge ack now).2.packets =
      match (w.acknowledge ack now).1 with
      | .ok n => w.packets.drop n
      | .error _ => w.packets := by
  unfold acknowledge
  simp only
  split
  · simp
  · split
    · rfl
    · split
      · simp
      · simp [packets_remove]

end SendWindow

end DatagramStreams
