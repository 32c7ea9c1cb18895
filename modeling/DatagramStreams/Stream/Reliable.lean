import DatagramStreams.Stream.Inbound
import DatagramStreams.Stream.Outbound

/-! A reliable stream: both halves, and the ACKs that join them. A payload accepted or seen before
is acknowledged together with the next packet or after a delay, one that leaves a gap at once.
-/

set_option autoImplicit false

namespace DatagramStreams

inductive StreamHealth where
  | alive
  /-- Packets stayed unacknowledged for longer than the send timeout. -/
  | dead
  deriving DecidableEq, Repr

structure ReliableStream where
  outbound : Outbound
  inbound : Inbound

structure StreamStats where
  windowSize : Nat
  inFlight : Nat
  queued : Nat
  timeout : Span
  sequenceIn : Seq
  sequenceOut : Seq
  deriving DecidableEq, Repr

namespace ReliableStream

variable {σ : Type}

def new (sequenceIn sequenceOut : Seq) (config : Settings) : ReliableStream where
  outbound := .new sequenceOut config
  inbound := { sequence := sequenceIn }

def setSendTimeout (r : ReliableStream) (limit : Span) : ReliableStream :=
  { r with outbound := { r.outbound with sendTimeout := limit } }

def send (sock : Socket σ) (r : ReliableStream) (l : Link) (payload : Octets) (now : Instant)
    (s : σ) : Except ConnectionError Unit × ReliableStream × Link × σ :=
  let (result, outbound, l, s) := r.outbound.send sock l payload now s
  (result, { r with outbound }, l, s)

def owe (l : Link) (ack : Seq) (now : Instant) : Link := { l with acks := l.acks.set ack now }

/-- A bare ACK instead of the one that waits. -/
def ackNow (sock : Socket σ) (l : Link) (ack : Seq) (now : Instant) (s : σ) : Link × σ :=
  { l with acks := l.acks.cleared }.sendQuietly sock (Packet.ackOnly ack) now s

def receivePayload (sock : Socket σ) (r : ReliableStream) (l : Link) (sequence : Seq)
    (payload : Octets) (now : Instant) (s : σ) : ReliableStream × Link × σ :=
  match r.inbound.classify sequence with
  | .expected =>
    let inbound := r.inbound.accept payload
    ({ r with inbound }, owe l inbound.sequence now, s)
  | .ahead => (r, ackNow sock l r.inbound.sequence now s)
  | .duplicate => (r, owe l r.inbound.sequence now, s)

def receiveAck (r : ReliableStream) (ack : Option Seq) (now : Instant) :
    Except ConnectionError Unit × ReliableStream :=
  match ack with
  | none => (.ok (), r)
  | some a =>
    let (result, outbound) := r.outbound.acknowledge a now
    (result.map fun _ => (), { r with outbound })

/-- The ACK is applied before the payload is looked at, and a violation ends there. -/
def receive (sock : Socket σ) (r : ReliableStream) (l : Link) (p : Packet) (now : Instant) (s : σ) :
    Except ConnectionError Unit × ReliableStream × Link × σ :=
  match r.receiveAck p.ack now with
  | (.error e, r) => (.error e, r, l, s)
  | (.ok (), r) =>
    match p.reliable, p.payload with
    | true, some payload => (.ok (), r.receivePayload sock l p.sequence payload now s)
    | _, _ => (.ok (), r, l, s)

def takeDelivered (r : ReliableStream) : List Octets × ReliableStream :=
  let (taken, inbound) := r.inbound.takeDelivered
  (taken, { r with inbound })

def flushAck (sock : Socket σ) (l : Link) (now : Instant) (s : σ) : Link × σ :=
  match l.acks.takeExpired now with
  | (some a, acks) => { l with acks }.sendQuietly sock (Packet.ackOnly a) now s
  | (none, acks) => ({ l with acks }, s)

def poll (sock : Socket σ) (r : ReliableStream) (l : Link) (now : Instant) (s : σ) :
    Except IoError StreamHealth × ReliableStream × Link × σ :=
  if r.outbound.isDead now then (.ok .dead, r, l, s)
  else
    match r.outbound.drive sock l now s with
    | (.error e, outbound, l, s) => (.error e, { r with outbound }, l, s)
    | (.ok (), outbound, l, s) =>
      let (l, s) := flushAck sock l now s
      (.ok .alive, { r with outbound }, l, s)

def stats (r : ReliableStream) : StreamStats where
  windowSize := r.outbound.window.size
  inFlight := r.outbound.window.inFlight
  queued := r.outbound.queue.size
  timeout := r.outbound.window.timeout
  sequenceIn := r.inbound.sequence
  sequenceOut := r.outbound.sequence

end ReliableStream

end DatagramStreams
