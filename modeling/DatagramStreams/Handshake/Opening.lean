import DatagramStreams.Handshake.Draws
import DatagramStreams.Packet.Encoding
import DatagramStreams.Session.Settings
import DatagramStreams.Transport.Socket

/-! The client's side of a handshake, one small step at a time. A step reads the clock once.

    client                                    server
      | -- connect request, sequence S ------> |     repeated every interval, two further each time
      | <-- connect request T, ACK S + 1 ----- |
      | -- ACK T + 1 ------------------------> |

An agreed pair holds T + 1 for what comes in and S + 1 for what goes out.
-/

set_option autoImplicit false

namespace DatagramStreams

structure Agreement where
  sequenceIn : Seq
  sequenceOut : Seq
  deriving DecidableEq, Repr

namespace Opening

inductive Phase where
  | requesting
  /-- The deadline has been looked at, and was not over. -/
  | checked
  | awaitingRoom
  | asked
  | listening
  | awaitingReply
  | confirming (agreed : Agreement)
  | awaitingConfirm (agreed : Agreement)
  | finished (result : Except ConnectionError Agreement)
  deriving Repr

end Opening

structure Opening where
  target : Address
  timeout : Span
  retryInterval : Span
  deadline : Instant
  request : Seq
  retryAt : Instant := 0
  phase : Opening.Phase := .requesting

namespace Opening

variable {σ : Type}

inductive Wish where
  | again
  | sleep (mail : Bool) (limit : Option Instant)
  | ended
  deriving DecidableEq, Repr

def start (target : Address) (timeout retryInterval : Span) (request : Seq) (now : Instant) : Opening :=
  { target, timeout, retryInterval, request, deadline := now + timeout }

def enter (o : Opening) (phase : Phase) : Opening := { o with phase }

def fail (o : Opening) (e : ConnectionError) : Opening × Wish :=
  (o.enter (.finished (.error e)), .ended)

def expectedAck (o : Opening) : Seq := Seq.next o.request

/-- The sequence of the server's reply to the current request, if this datagram is it. -/
def replyIn? (o : Opening) (source : Address) (b : Octets) : Option Seq :=
  if source = o.target then
    match Packet.decode? b with
    | some p => if p.connectRequest && p.ack = some o.expectedAck then some p.sequence else none
    | none => none
  else none

def attempt (o : Opening) (now : Instant) : Opening × Wish :=
  if o.deadline ≤ now then o.fail (.timeout o.timeout) else (o.enter .checked, .again)

def sendRequest (sock : Socket σ) (o : Opening) (s : σ) : (Opening × Wish) × σ :=
  let sent : Opening × Wish := (o.enter .asked, .again)
  match sock.send o.target (Packet.request o.request) s with
  | (.ok (), s) => (sent, s)
  | (.error e, s) => (if e.kind = .wouldBlock then sent else o.fail (.io e), s)

/-- Goes by whether there is room to write. Only a wait ends with the deadline: where there is room the
request leaves, however late it is. -/
def ask (sock : Socket σ) (o : Opening) (room : Readiness) (now : Instant) (s : σ) : (Opening × Wish) × σ :=
  match room with
  | .ready => o.sendRequest sock s
  | .failed e => (o.fail (.io e), s)
  | .pending =>
    (if o.deadline ≤ now then o.fail (.timeout o.timeout)
      else (o.enter .awaitingRoom, .sleep false (some o.deadline)), s)

def listeningFrom (o : Opening) (now : Instant) : Opening :=
  { o with phase := .listening, retryAt := min (now + o.retryInterval) o.deadline }

/-- Nothing more has arrived: try again when it is time, otherwise wait. A request that got no answer
is followed by one whose sequence no reply to it can match. -/
def nothingLeft (sock : Socket σ) (o : Opening) (now : Instant) (s : σ) : Opening × Wish :=
  if o.retryAt ≤ now then
    ({ o with phase := .requesting, request := Seq.next o.expectedAck }, .again)
  else
    match sock.readable s with
    | .ready => (o, .again)
    | .pending => (o.enter .awaitingReply, .sleep true (some o.retryAt))
    | .failed e => o.fail (.io e)

def listen (sock : Socket σ) (o : Opening) (now : Instant) (s : σ) : (Opening × Wish) × σ :=
  match sock.receive Socket.bufferLength s with
  | (.ok (source, b), s) =>
    match o.replyIn? source b with
    | some t =>
      ((o.enter (.confirming { sequenceIn := Seq.next t, sequenceOut := o.expectedAck }), .again), s)
    | none => ((o, .again), s)
  | (.error e, s) =>
    if e.kind = .wouldBlock then (o.nothingLeft sock now s, s)
    else if e.kind.isTransient then ((o, .again), s)
    else (o.fail (.io e), s)

def resume (sock : Socket σ) (o : Opening) (now : Instant) (s : σ) : Opening × Wish :=
  match sock.stillReadable s with
  | .ready => (o.enter .listening, .again)
  | .failed e => o.fail (.io e)
  | .pending =>
    if o.retryAt ≤ now then (o.enter .listening, .again) else (o, .sleep true (some o.retryAt))

def sendConfirm (sock : Socket σ) (o : Opening) (agreed : Agreement) (s : σ) : (Opening × Wish) × σ :=
  let done : Opening × Wish := (o.enter (.finished (.ok agreed)), .ended)
  match sock.send o.target (Packet.ackOnly agreed.sequenceIn) s with
  | (.ok (), s) => (done, s)
  | (.error e, s) => (if e.kind = .wouldBlock then done else o.fail (.io e), s)

def confirm (sock : Socket σ) (o : Opening) (agreed : Agreement) (room : Readiness) (s : σ) :
    (Opening × Wish) × σ :=
  match room with
  | .ready => o.sendConfirm sock agreed s
  | .pending => ((o.enter (.awaitingConfirm agreed), .sleep false none), s)
  | .failed e => (o.fail (.io e), s)

def step (sock : Socket σ) (o : Opening) (now : Instant) (s : σ) : (Opening × Wish) × σ :=
  match o.phase with
  | .requesting => (o.attempt now, s)
  | .checked => o.ask sock (sock.writable s) now s
  | .awaitingRoom => o.ask sock (sock.stillWritable s) now s
  | .asked => ((o.listeningFrom now, .again), s)
  | .listening => o.listen sock now s
  | .awaitingReply => (o.resume sock now s, s)
  | .confirming agreed => o.confirm sock agreed (sock.writable s) s
  | .awaitingConfirm agreed => o.confirm sock agreed (sock.stillWritable s) s
  | .finished _ => ((o, .ended), s)

end Opening

end DatagramStreams
