import DatagramStreams.Packet.Encoding
import DatagramStreams.Transport.Socket

/-! The loop that reads a socket: it waits for something to read, drains it, decodes each datagram and
hands the packet on. Malformed datagrams and transient failures are passed over; the loop ends when it
is stopped, when the socket fails or closes, or when nobody is left to take the packets.
-/

set_option autoImplicit false

namespace DatagramStreams

namespace Reader

inductive Phase where
  | idle
  | waiting
  | draining
  | ended
  deriving DecidableEq, Repr

end Reader

structure Reader where
  phase : Reader.Phase := .idle
  stopped : Bool := false
  deriving DecidableEq, Repr

namespace Reader

variable {σ : Type}

structure Receiver (σ : Type) where
  isThere : σ → Bool
  take : Address → Packet → σ → Except ConnectionError Unit × σ

def hasEnded (l : Reader) : Bool := l.phase = .ended

def enter (l : Reader) (phase : Phase) : Reader := { l with phase }

def stop (l : Reader) : Reader := { l with stopped := true }

def await (l : Reader) (readiness : Readiness) : Reader :=
  if l.stopped then l.enter .ended
  else
    match readiness with
    | .ready => l.enter .draining
    | .pending => l.enter .waiting
    | .failed _ => l.enter .ended

/-- Reads one datagram. What the receiver thinks of the packet does not matter to the loop. -/
def drain (sock : Socket σ) (receiver : Receiver σ) (l : Reader) (s : σ) : Reader × σ :=
  match sock.receive Socket.bufferLength s with
  | (.ok (source, b), s) =>
    if receiver.isThere s then
      match Packet.decode? b with
      | some p => (l, (receiver.take source p s).2)
      | none => (l, s)
    else (l.enter .ended, s)
  | (.error e, s) =>
    if e.kind = .wouldBlock then (l.enter .idle, s)
    else if e.kind.isTransient then (l, s)
    else (l.enter .ended, s)

def step (sock : Socket σ) (receiver : Receiver σ) (l : Reader) (s : σ) : Reader × σ :=
  match l.phase with
  | .idle => (l.await (sock.readable s), s)
  | .waiting => (l.await (sock.stillReadable s), s)
  | .draining => l.drain sock receiver s
  | .ended => (l, s)

end Reader

end DatagramStreams
