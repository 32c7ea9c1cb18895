import DatagramStreams.Packet.Sequence
import DatagramStreams.Time.Timer

/-! The ACK that waits for a packet to carry it. It goes out on its own once the delay has passed.
-/

set_option autoImplicit false

namespace DatagramStreams

structure AckHolder where
  delay : Span
  ack : Option Seq := none
  timer : Timer := {}
  deriving DecidableEq, Repr

namespace AckHolder

/-- A newer value replaces the pending one without moving the start of its delay. -/
def set (h : AckHolder) (a : Seq) (now : Instant) : AckHolder :=
  { h with ack := some a, timer := h.timer.ensureStarted now }

def cleared (h : AckHolder) : AckHolder := { h with ack := none, timer := .stopped }

def take (h : AckHolder) : Option Seq × AckHolder := (h.ack, h.cleared)

def takeExpired (h : AckHolder) (now : Instant) : Option Seq × AckHolder :=
  if h.timer.hasPassed now h.delay then h.take else (none, h)

/-- Puts back an ACK that was taken and not sent; its delay starts again. A value set since wins. -/
def restore (h : AckHolder) (a : Seq) (now : Instant) : AckHolder :=
  match h.ack with
  | none => { h with ack := some a, timer := .startedAt now }
  | some _ => h

@[simp] theorem ack_set (h : AckHolder) (a : Seq) (now : Instant) : (h.set a now).ack = some a := rfl

@[simp] theorem ack_cleared (h : AckHolder) : h.cleared.ack = none := rfl

theorem ack_restore (h : AckHolder) (a : Seq) (now : Instant) :
    (h.restore a now).ack = some (h.ack.getD a) := by
  cases ha : h.ack <;> simp [restore, ha]

theorem takeExpired_fst_eq_some {h : AckHolder} {now : Instant} {a : Seq} :
    (h.takeExpired now).1 = some a ↔ h.timer.hasPassed now h.delay = true ∧ h.ack = some a := by
  cases ht : h.timer.hasPassed now h.delay <;> simp [takeExpired, take, ht]

end AckHolder

end DatagramStreams
