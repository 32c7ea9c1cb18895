import DatagramStreams.Session.Journal
import DatagramStreams.Stream.Reliable
import DatagramStreams.Stream.Unreliable

/-! A connection: both streams over one link, the lifecycle, and the application's handler. Arriving
packets are only buffered; callbacks happen inside `poll`, timers are looked at there as well.
A client's connection owns its socket and closes it when it leaves the open state, a server's
connections share the server's.
-/

set_option autoImplicit false

namespace DatagramStreams

structure Connection where
  link : Link
  state : Lifecycle := .initial
  reliable : ReliableStream
  unreliable : UnreliableStream
  handler : Handler
  announced : Bool := false
  ownsSocket : Bool
  journal : Journal := .empty

namespace Connection

variable {σ : Type}

def establish (peer : Address) (sequenceIn sequenceOut : Seq) (config : Settings) (handler : Handler)
    (ownsSocket : Bool) : Connection where
  link := { peer, acks := { delay := config.ackDelay } }
  reliable := .new sequenceIn sequenceOut config
  unreliable := .new sequenceIn sequenceOut
  handler := handler
  ownsSocket := ownsSocket

def peer (c : Connection) : Address := c.link.peer

def isOpen (c : Connection) : Bool := c.state = .opened

def record (c : Connection) (h : Happening) : Connection := { c with journal := c.journal.add h }

def setSendTimeout (c : Connection) (limit : Span) : Connection :=
  { c with reliable := c.reliable.setSendTimeout limit }

def stats (c : Connection) : StreamStats := c.reliable.stats

/-- A connection that owns its socket has a receive loop on it as soon as it is there, and comes here only when it
leaves the open state, that is, once. So there is a loop to stop exactly if the socket is its own. -/
def releaseSocket (sock : Socket σ) (c : Connection) (s : σ) : σ :=
  if c.ownsSocket then sock.close s else s

def close (sock : Socket σ) (c : Connection) (now : Instant) (s : σ) : Connection × σ :=
  match c.state with
  | .opened =>
    let (link, s) := c.link.sendQuietly sock Packet.closeNotice now s
    ({ c with state := .closing, link }, c.releaseSocket sock s)
  | _ => (c, s)

def closedByPeer (sock : Socket σ) (c : Connection) (s : σ) : Connection × σ :=
  match c.state with
  | .opened => ({ c with state := .closing }, c.releaseSocket sock s)
  | _ => (c, s)

def closeIfFatal (sock : Socket σ) (c : Connection) (result : Except ConnectionError Unit)
    (now : Instant) (s : σ) : Except ConnectionError Unit × Connection × σ :=
  match result with
  | .ok () => (.ok (), c, s)
  | .error e => (.error e, if e.isFatal then c.close sock now s else (c, s))

def sendReliable (sock : Socket σ) (c : Connection) (payload : Octets) (now : Instant) (s : σ) :
    Except ConnectionError Unit × Connection × σ :=
  if !c.isOpen then (.error .closed, c, s)
  else
    let (result, reliable, link, s) := c.reliable.send sock c.link payload now s
    { c with reliable, link, journal := c.journal.noteSend payload result }.closeIfFatal sock result now s

def sendUnreliable (sock : Socket σ) (c : Connection) (payload : Octets) (now : Instant) (s : σ) :
    Except ConnectionError Unit × Connection × σ :=
  if !c.isOpen then (.error .closed, c, s)
  else
    let (result, unreliable, link, s) := c.unreliable.send sock c.link payload now s
    { c with unreliable, link }.closeIfFatal sock result now s

def perform (sock : Socket σ) (now : Instant) (c : Connection) (s : σ) : Action → Connection × σ
  | .sendReliable payload =>
    let (result, c, s) := c.sendReliable sock payload now s
    (c.record (.sentReliable result), s)
  | .sendUnreliable payload =>
    let (result, c, s) := c.sendUnreliable sock payload now s
    (c.record (.sentUnreliable result), s)
  | .close =>
    let (c, s) := c.close sock now s
    (c.record .askedToClose, s)
  | .askState => (c.record (.sawState c.state), s)

def performAll (sock : Socket σ) (now : Instant) : List Action → Connection → σ → Connection × σ
  | [], c, s => (c, s)
  | a :: rest, c, s =>
    let (c, s) := c.perform sock now s a
    performAll sock now rest c s

def notify (sock : Socket σ) (now : Instant) (c : Connection) (call : Callback) (s : σ) :
    Connection × σ :=
  performAll sock now (c.handler.respond c.journal.entries call) (c.record (.callback call)) s

def notifyAll (sock : Socket σ) (now : Instant) : List Callback → Connection → σ → Connection × σ
  | [], c, s => (c, s)
  | call :: rest, c, s =>
    let (c, s) := c.notify sock now call s
    notifyAll sock now rest c s

def announce (sock : Socket σ) (c : Connection) (now : Instant) (s : σ) : Connection × σ :=
  if c.announced then (c, s) else { c with announced := true }.notify sock now .opened s

/-- Hands over everything accepted so far, the unreliable payloads before the reliable ones. A
handler that closes on the way does not keep the rest from being handed over. -/
def dispatch (sock : Socket σ) (c : Connection) (now : Instant) (s : σ) : Connection × σ :=
  let (fresh, unreliable) := c.unreliable.takeDelivered
  let (ordered, reliable) := c.reliable.takeDelivered
  notifyAll sock now (fresh.map .unreliable ++ ordered.map .reliable) { c with unreliable, reliable } s

def pollStream (sock : Socket σ) (c : Connection) (now : Instant) (s : σ) : Connection × σ :=
  let (health, reliable, link, s) := c.reliable.poll sock c.link now s
  let c := { c with reliable, link }
  match health with
  | .ok .alive => (c, s)
  | _ => c.close sock now s

def finishClose (sock : Socket σ) (c : Connection) (now : Instant) (s : σ) : Connection × σ :=
  match c.state with
  | .closing => { c with state := .closed }.notify sock now .closed s
  | _ => (c, s)

/-- Open: callbacks first, then the timers, unless a handler has closed. Closing: the last callback.
Closed: nothing but a failure. -/
def poll (sock : Socket σ) (c : Connection) (now : Instant) (s : σ) :
    Except ConnectionError Unit × Connection × σ :=
  match c.state with
  | .closed => (.error .closed, c, s)
  | .closing =>
    let (c, s) := c.announce sock now s
    (.ok (), c.finishClose sock now s)
  | .opened =>
    let (c, s) := c.announce sock now s
    let (c, s) := c.dispatch sock now s
    (.ok (), if c.isOpen then c.pollStream sock now s else (c, s))

def receiveUnreliable (c : Connection) (p : Packet) : Connection :=
  if !p.reliable && p.hasPayload then { c with unreliable := c.unreliable.receive p } else c

def receiveData (sock : Socket σ) (c : Connection) (p : Packet) (now : Instant) (s : σ) :
    Except ConnectionError Unit × Connection × σ :=
  if p.reliable || p.hasAck then
    let (result, reliable, link, s) := c.reliable.receive sock c.link p now s
    let c := { c with reliable, link }
    match result with
    | .ok () => (.ok (), c.receiveUnreliable p, s)
    | .error e => (.error e, c.close sock now s)
  else (.ok (), c.receiveUnreliable p, s)

/-- Only an open connection listens, only to its peer, and connect requests come too late for it. -/
def receive (sock : Socket σ) (c : Connection) (source : Address) (p : Packet) (now : Instant) (s : σ) :
    Except ConnectionError Unit × Connection × σ :=
  if !c.isOpen || source ≠ c.peer || p.connectRequest then (.ok (), c, s)
  else if p.close then (.ok (), c.closedByPeer sock s)
  else c.receiveData sock p now s

def description (c : Connection) : String :=
  "Connection \x7b peer: " ++ c.peer.text ++ ", state: " ++ c.state.title ++ " \x7d"

end Connection

end DatagramStreams
