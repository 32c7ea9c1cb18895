import DatagramStreams.Data.Queue
import DatagramStreams.Packet.Draft
import DatagramStreams.Transport.Link

/-! An unreliable stream: whatever is newer than all that came before is accepted, the rest is stale.
-/

set_option autoImplicit false

namespace DatagramStreams

structure UnreliableStream where
  sequenceIn : Seq
  sequenceOut : Seq
  delivered : Queue Octets := {}
  deriving DecidableEq, Repr

namespace UnreliableStream

variable {σ : Type}

def new (sequenceIn sequenceOut : Seq) : UnreliableStream := { sequenceIn, sequenceOut }

/-- A socket that would block loses the payload without a word. -/
def send (sock : Socket σ) (u : UnreliableStream) (l : Link) (payload : Octets) (now : Instant)
    (s : σ) : Except ConnectionError Unit × UnreliableStream × Link × σ :=
  match Packet.data false u.sequenceOut payload with
  | .error e => (.error (.packet e), u, l, s)
  | .ok p =>
    let u := { u with sequenceOut := Seq.next u.sequenceOut }
    match l.send sock p now s with
    | (.ok _, l, s) => (.ok (), u, l, s)
    | (.error e, l, s) => (.error (.io e), u, l, s)

def receive (u : UnreliableStream) (p : Packet) : UnreliableStream :=
  match p.payload with
  | none => u
  | some payload =>
    if Seq.isNew u.sequenceIn p.sequence then
      { u with sequenceIn := p.nextSequence, delivered := u.delivered.push payload }
    else u

def takeDelivered (u : UnreliableStream) : List Octets × UnreliableStream :=
  (u.delivered.toList, { u with delivered := {} })

end UnreliableStream

end DatagramStreams
