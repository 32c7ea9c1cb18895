import DatagramStreams.Address.Basic
import DatagramStreams.Data.Table
import DatagramStreams.Packet.Sequence
import DatagramStreams.Time.Span

/-! Handshakes that wait for the last ACK of their client, with their age. Slots keep the order of
insertion, so that a sweep can stop at the first slot that is young enough. A slot outlives its entry
when the handshake completes or starts anew, and then counts for nothing.
-/

set_option autoImplicit false

namespace DatagramStreams

structure PendingKey where
  client : Address
  ack : Seq
  deriving DecidableEq, Repr

structure PendingEntry where
  sequenceIn : Seq
  created : Instant
  deriving DecidableEq, Repr

structure Pending where
  entries : Table PendingKey PendingEntry := {}
  slots : List (PendingKey × Instant) := []

namespace Pending

def size (p : Pending) : Nat := p.entries.size

/-- Records a handshake; the same key again makes it young again. -/
def insert (p : Pending) (k : PendingKey) (sequenceIn : Seq) (now : Instant) : Pending where
  entries := p.entries.put k { sequenceIn, created := now }
  slots := p.slots ++ [(k, now)]

def complete (p : Pending) (k : PendingKey) : Option Seq × Pending :=
  match p.entries.find? k with
  | some e => (some e.sequenceIn, { p with entries := p.entries.erase k })
  | none => (none, p)

def holds (entries : Table PendingKey PendingEntry) (slot : PendingKey × Instant) : Bool :=
  match entries.find? slot.1 with
  | some e => e.created = slot.2
  | none => false

def sweepSlots (now : Instant) (life : Span) :
    List (PendingKey × Instant) → Table PendingKey PendingEntry → Nat × Pending
  | [], entries => (0, { entries })
  | slot :: rest, entries =>
    if Span.elapsed slot.2 now ≤ life then (0, { entries, slots := slot :: rest })
    else if holds entries slot then
      let (n, p) := sweepSlots now life rest (entries.erase slot.1)
      (n + 1, p)
    else sweepSlots now life rest entries

def sweep (p : Pending) (now : Instant) (life : Span) : Nat × Pending :=
  sweepSlots now life p.slots p.entries

end Pending

end DatagramStreams
