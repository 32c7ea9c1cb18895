import DatagramStreams.Failure
import DatagramStreams.Packet.Encoding

/-! What a datagram socket offers, as functions on the state that holds it. All sends and receives
return at once; waiting is left to whoever runs the tasks.
-/

set_option autoImplicit false

namespace DatagramStreams

inductive Readiness where
  | ready
  | pending
  | failed (e : IoError)
  deriving DecidableEq, Repr

structure Socket (σ : Type) where
  localAddress : σ → Except IoError Address
  send : Address → Packet → σ → Except IoError Unit × σ
  /-- Reads one datagram of at most so many octets, with its sender. -/
  receive : Nat → σ → Except IoError (Address × Octets) × σ
  /-- Outcome of beginning to wait for something to read. -/
  readable : σ → Readiness
  /-- Outcome of a wait for something to read that has already begun. -/
  stillReadable : σ → Readiness
  writable : σ → Readiness
  stillWritable : σ → Readiness
  close : σ → σ

namespace Socket

/-- One octet more than a datagram may have, so that a longer one is seen to be too long. -/
def bufferLength : Nat := Packet.maxLength + 1

def within {σ τ : Type} (sock : Socket σ) (get : τ → σ) (set : τ → σ → τ) : Socket τ where
  localAddress t := sock.localAddress (get t)
  send a p t := let (r, s) := sock.send a p (get t); (r, set t s)
  receive n t := let (r, s) := sock.receive n (get t); (r, set t s)
  readable t := sock.readable (get t)
  stillReadable t := sock.stillReadable (get t)
  writable t := sock.writable (get t)
  stillWritable t := sock.stillWritable (get t)
  close t := set t (sock.close (get t))

end Socket

theorem Packet.decode?_take_bufferLength (b : Octets) :
    decode? (b.take Socket.bufferLength) = decode? b := by
  by_cases h : b.length ≤ maxLength
  · rw [List.take_of_length_le (by simp only [Socket.bufferLength]; omega)]
  · have hcut : maxLength < (b.take Socket.bufferLength).length := by
      simp only [List.length_take, Socket.bufferLength]
      omega
    simp only [decode?, decode, if_pos hcut, if_pos (Nat.lt_of_not_le h)]
    rfl

end DatagramStreams
