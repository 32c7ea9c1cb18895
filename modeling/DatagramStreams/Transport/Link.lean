import DatagramStreams.Packet.Encoding
import DatagramStreams.Transport.AckHolder
import DatagramStreams.Transport.Socket

/-! One peer reached through a socket. Every packet that leaves without an ACK of its own takes along
the one that waits, and gives it back when the socket refuses the packet.
-/

set_option autoImplicit false

namespace DatagramStreams

structure Link where
  peer : Address
  acks : AckHolder
  deriving DecidableEq, Repr

namespace Link

variable {σ : Type}

def attach (l : Link) (p : Packet) : Option Seq × Link :=
  if p.hasAck then (none, l)
  else
    let (taken, acks) := l.acks.take
    (taken, { l with acks })

def giveBack (l : Link) (taken : Option Seq) (now : Instant) : Link :=
  match taken with
  | some a => { l with acks := l.acks.restore a now }
  | none => l

def loaded (p : Packet) (taken : Option Seq) : Packet :=
  match taken with
  | some a => p.withAck a
  | none => p

/-- Hands a packet to the socket; `false` says that the socket would block. -/
def send (sock : Socket σ) (l : Link) (p : Packet) (now : Instant) (s : σ) :
    Except IoError Bool × Link × σ :=
  let (taken, rest) := l.attach p
  match sock.send l.peer (loaded p taken) s with
  | (.ok (), s) => (.ok true, rest, s)
  | (.error e, s) =>
    (if e.kind = .wouldBlock then .ok false else .error e, rest.giveBack taken now, s)

def sendQuietly (sock : Socket σ) (l : Link) (p : Packet) (now : Instant) (s : σ) : Link × σ :=
  (l.send sock p now s).2

end Link

end DatagramStreams
