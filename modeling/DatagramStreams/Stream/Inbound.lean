import DatagramStreams.Data.Queue
import DatagramStreams.Packet.Basic

/-! The receiving half of a reliable stream: payloads are accepted strictly in sequence.
-/

set_option autoImplicit false

namespace DatagramStreams

structure Inbound where
  /-- Sequence of the next payload to accept; also the value of every ACK. -/
  sequence : Seq
  delivered : Queue Octets := {}
  deriving DecidableEq, Repr

namespace Inbound

inductive Arrival where
  | expected
  | ahead
  | duplicate
  deriving DecidableEq, Repr

def classify (i : Inbound) (s : Seq) : Arrival :=
  if s = i.sequence then .expected
  else if Seq.isNew i.sequence s then .ahead
  else .duplicate

def accept (i : Inbound) (payload : Octets) : Inbound :=
  { sequence := Seq.next i.sequence, delivered := i.delivered.push payload }

def takeDelivered (i : Inbound) : List Octets × Inbound :=
  (i.delivered.toList, { i with delivered := {} })

theorem classify_eq_expected {i : Inbound} {s : Seq} : i.classify s = .expected ↔ s = i.sequence := by
  unfold classify
  split
  · simp [*]
  · split <;> simp [*]

theorem ne_of_classify {i : Inbound} {s : Seq} (h : i.classify s ≠ .expected) : s ≠ i.sequence :=
  fun he => h (classify_eq_expected.mpr he)

@[simp] theorem sequence_accept (i : Inbound) (payload : Octets) :
    (i.accept payload).sequence = Seq.next i.sequence := rfl

@[simp] theorem delivered_accept (i : Inbound) (payload : Octets) :
    (i.accept payload).delivered = i.delivered.push payload := rfl

end Inbound

end DatagramStreams
