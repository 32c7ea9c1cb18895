import DatagramStreams.Data.Queue
import DatagramStreams.Packet.Draft
import DatagramStreams.Session.Settings
import DatagramStreams.Stream.Window
import DatagramStreams.Transport.Link

/-! The sending half of a reliable stream: a window of packets in flight and a queue behind it.
Packets leave the queue in order, each when the window has room and the socket takes it.
-/

set_option autoImplicit false

namespace DatagramStreams

structure Outbound where
  sequence : Seq
  window : SendWindow
  queue : Queue Packet := {}
  sendTimeout : Span

namespace Outbound

variable {σ : Type}

def new (first : Seq) (config : Settings) : Outbound where
  sequence := first
  window := (SendWindow.new first config.initialTimeout).setFastRetransmit config.fastRetransmit
  sendTimeout := config.sendTimeout

def enqueue (o : Outbound) (p : Packet) : Outbound := { o with queue := o.queue.push p }

def register (o : Outbound) (p : Packet) (now : Instant) : Outbound :=
  { o with window := o.window.register p now }

def submit (sock : Socket σ) (o : Outbound) (l : Link) (p : Packet) (now : Instant) (s : σ) :
    Except ConnectionError Unit × Outbound × Link × σ :=
  if !o.queue.isEmpty || o.window.isFull then (.ok (), o.enqueue p, l, s)
  else
    match l.send sock p now s with
    | (.ok true, l, s) => (.ok (), o.register p now, l, s)
    | (.ok false, l, s) => (.ok (), o.enqueue p, l, s)
    | (.error e, l, s) => (.error (.io e), o, l, s)

/-- A payload takes its sequence before the socket is tried, and a failing socket does not give the
sequence back. -/
def send (sock : Socket σ) (o : Outbound) (l : Link) (payload : Octets) (now : Instant) (s : σ) :
    Except ConnectionError Unit × Outbound × Link × σ :=
  match Packet.data true o.sequence payload with
  | .error e => (.error (.packet e), o, l, s)
  | .ok p => submit sock { o with sequence := Seq.next o.sequence } l p now s

def acknowledge (o : Outbound) (ack : Seq) (now : Instant) : Except ConnectionError Nat × Outbound :=
  let (r, window) := o.window.acknowledge ack now
  (r, { o with window })

def resend (sock : Socket σ) (now : Instant) :
    List Packet → Link → σ → Except IoError Unit × Link × σ
  | [], l, s => (.ok (), l, s)
  | p :: rest, l, s =>
    match l.send sock p now s with
    | (.ok _, l, s) => resend sock now rest l s
    | (.error e, l, s) => (.error e, l, s)

def retransmit (sock : Socket σ) (o : Outbound) (l : Link) (now : Instant) (s : σ) :
    Except IoError Unit × Outbound × Link × σ :=
  match o.window.retransmitDue now with
  | (false, window) => (.ok (), { o with window }, l, s)
  | (true, window) =>
    let (r, l, s) := resend sock now window.packets l s
    (r, { o with window := window.markResent now }, l, s)

def flush (sock : Socket σ) (now : Instant) :
    List Packet → SendWindow → Link → σ → Except IoError Unit × List Packet × SendWindow × Link × σ
  | [], w, l, s => (.ok (), [], w, l, s)
  | p :: rest, w, l, s =>
    if w.isFull then (.ok (), p :: rest, w, l, s)
    else
      match l.send sock p now s with
      | (.ok true, l, s) => flush sock now rest (w.register p now) l s
      | (.ok false, l, s) => (.ok (), p :: rest, w, l, s)
      | (.error e, l, s) => (.error e, p :: rest, w, l, s)

def drive (sock : Socket σ) (o : Outbound) (l : Link) (now : Instant) (s : σ) :
    Except IoError Unit × Outbound × Link × σ :=
  match o.retransmit sock l now s with
  | (.error e, o, l, s) => (.error e, o, l, s)
  | (.ok (), o, l, s) =>
    let (r, queue, window, l, s) := flush sock now o.queue.toList o.window l s
    (r, { o with queue := .ofList queue, window }, l, s)

def isDead (o : Outbound) (now : Instant) : Bool := o.window.isDead now o.sendTimeout

end Outbound

end DatagramStreams
