import DatagramStreams.Data.Queue
import DatagramStreams.Packet.Encoding
import DatagramStreams.Transport.Socket

/-! A socket that plays a script. Every send is noted with what became of it, and reads find what has
been put in front of them.
-/

set_option autoImplicit false

namespace DatagramStreams

namespace Recorder

structure Attempt where
  target : Address
  packet : Packet
  failure : Option IoKind
  deriving DecidableEq, Repr

inductive Arrival where
  | datagram (source : Address) (octets : Octets)
  | failure (kind : IoKind)
  deriving DecidableEq, Repr

end Recorder

structure Recorder where
  /-- Outcomes of the next sends; a send that succeeds has no failure to name. -/
  plan : List (Option IoKind) := []
  mode : Option IoKind := none
  attempts : Queue Recorder.Attempt := {}
  arrivals : List Recorder.Arrival := []
  room : Readiness := .ready
  closed : Bool := false
  deriving DecidableEq, Repr

namespace Recorder

def address : Address := { ip := Ip.v4Loopback, port := 1 }

def outcome (r : Recorder) : Option IoKind × List (Option IoKind) :=
  match r.plan with
  | o :: rest => (o, rest)
  | [] => (r.mode, [])

def send (target : Address) (p : Packet) (r : Recorder) : Except IoError Unit × Recorder :=
  let (failure, plan) := r.outcome
  (match failure with
    | some k => .error (.injected k)
    | none => .ok (),
    { r with plan, attempts := r.attempts.push ⟨target, p, failure⟩ })

def receive (limit : Nat) (r : Recorder) : Except IoError (Address × Octets) × Recorder :=
  if r.closed then (.error .socketClosed, r)
  else
    match r.arrivals with
    | [] => (.error .nothingQueued, r)
    | .datagram source b :: arrivals => (.ok (source, b.take limit), { r with arrivals })
    | .failure k :: arrivals => (.error (.injected k), { r with arrivals })

def readable (r : Recorder) : Readiness :=
  if r.closed then .failed .socketClosed else if r.arrivals.isEmpty then .pending else .ready

def socket : Socket Recorder where
  localAddress _ := .ok address
  send := send
  receive := receive
  readable := readable
  stillReadable := readable
  writable := room
  stillWritable := room
  close r := { r with closed := true }

def sent (r : Recorder) : List Octets :=
  (r.attempts.toList.filter fun a => a.failure.isNone).map fun a => a.packet.encode

end Recorder

end DatagramStreams
