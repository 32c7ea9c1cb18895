import DatagramStreams.Data.Queue
import DatagramStreams.Network.Faults
import DatagramStreams.Network.Registry
import DatagramStreams.Transport.Socket

/-! A network in memory. A socket is a mailbox that holds an address; a datagram goes into the mailbox
of whoever holds its target when it is delivered, and to nobody if nobody does. Sockets of one factory
share its faults and the failures it is told to show.
-/

set_option autoImplicit false

namespace DatagramStreams

structure Datagram where
  source : Address
  octets : Octets
  deriving DecidableEq, Repr

structure NetSocket where
  address : Address
  factory : Nat
  queue : Queue Datagram := {}
  closed : Bool := false
  deriving DecidableEq, Repr

/-- Failures that the sockets of a factory show. A wait looks at them when it begins. -/
structure SocketMode where
  send : Option IoKind := none
  localAddress : Option IoKind := none
  writable : Readiness := .ready
  readable : Option IoKind := none
  receiveErrors : List IoKind := []
  deriving DecidableEq, Repr

structure Factory where
  faults : FaultModel
  mode : SocketMode := {}

structure Transmission where
  source : Address
  target : Address
  octets : Octets
  failure : Option IoKind
  deriving DecidableEq, Repr

structure Held where
  datagram : Datagram
  target : Address
  delay : Span
  deriving DecidableEq, Repr

inductive Signal where
  | mail (socket : SocketId)
  | shut (socket : SocketId)
  | held (h : Held)
  deriving DecidableEq, Repr

structure Network where
  registry : Registry := {}
  factories : Array Factory := #[]
  sockets : Array NetSocket := #[]
  transmissions : List Transmission := []
  signals : List Signal := []

namespace Network

def signal (net : Network) (x : Signal) : Network := { net with signals := x :: net.signals }

def mode (net : Network) (factory : Nat) : SocketMode :=
  match net.factories[factory]? with
  | some f => f.mode
  | none => {}

def setMode (net : Network) (factory : Nat) (mode : SocketMode) : Network :=
  { net with factories := net.factories.modify factory fun f => { f with mode } }

def addFactory (net : Network) (plan : FaultPlan) : Nat × Network :=
  (net.factories.size, { net with factories := net.factories.push { faults := { plan } } })

def bind (net : Network) (factory : Nat) (a : Address) : Except IoError SocketId × Network :=
  let id := net.sockets.size
  match net.registry.register a id with
  | (.ok address, registry) =>
    (.ok id, { net with registry, sockets := net.sockets.push { address, factory } })
  | (.error e, registry) => (.error e, { net with registry })

def drop (net : Network) (id : SocketId) : Network :=
  match net.sockets[id]? with
  | some k => { net with registry := net.registry.release k.address id }
  | none => net

def close (net : Network) (id : SocketId) : Network :=
  match net.sockets[id]? with
  | some k =>
    if k.closed then net
    else
      { net with
        registry := net.registry.release k.address id
        sockets := net.sockets.modify id fun k => { k with closed := true, queue := {} } }.signal
        (.shut id)
  | none => net

def deliver (net : Network) (d : Datagram) (target : Address) : Network :=
  match net.registry.owner? target with
  | some id =>
    { net with sockets := net.sockets.modify id fun k => { k with queue := k.queue.push d } }.signal
      (.mail id)
  | none => net

def launch (net : Network) (h : Held) (held : Bool) : Network :=
  if held then net.signal (.held h) else net.deliver h.datagram h.target

def launchCopies (net : Network) (h : Held) (held : Bool) : Nat → Network
  | 0 => net
  | n + 1 => (net.launch h held).launchCopies h held n

/-- Sends through the faults of a factory. Nothing is held back when no task could release it. -/
def transmit (net : Network) (factory : Nat) (d : Datagram) (target : Address) (mayHold : Bool) :
    Network :=
  match net.factories[factory]? with
  | none => net
  | some f =>
    let (fate, faults) := f.faults.decide d.octets
    let net := { net with factories := net.factories.set! factory { f with faults } }
    match fate with
    | .lost => net
    | .delivered copies held =>
      net.launchCopies { datagram := d, target, delay := f.faults.plan.delay } (held && mayHold) copies

def sendFailure? (net : Network) (k : NetSocket) : Option IoError :=
  match (net.mode k.factory).send with
  | some kind => some (.injected kind)
  | none => if k.closed then some .socketClosed else none

def send (net : Network) (id : SocketId) (target : Address) (b : Octets) (mayHold : Bool) :
    Except IoError Unit × Network :=
  match net.sockets[id]? with
  | none => (.error .socketClosed, net)
  | some k =>
    let failure := net.sendFailure? k
    let entry : Transmission := ⟨k.address, target, b, failure.map IoError.kind⟩
    let net := { net with transmissions := entry :: net.transmissions }
    match failure with
    | some e => (.error e, net)
    | none => (.ok (), net.transmit k.factory ⟨k.address, b⟩ target mayHold)

def takeMail (net : Network) (id : SocketId) (k : NetSocket) (limit : Nat) :
    Except IoError (Address × Octets) × Network :=
  if k.closed then (.error .socketClosed, net)
  else
    match k.queue.pop? with
    | none => (.error .nothingQueued, net)
    | some (d, queue) =>
      (.ok (d.source, d.octets.take limit),
        { net with sockets := net.sockets.set! id { k with queue } })

def receive (net : Network) (id : SocketId) (limit : Nat) :
    Except IoError (Address × Octets) × Network :=
  match net.sockets[id]? with
  | none => (.error .socketClosed, net)
  | some k =>
    let mode := net.mode k.factory
    match mode.receiveErrors with
    | kind :: rest =>
      (.error (.injected kind), net.setMode k.factory { mode with receiveErrors := rest })
    | [] => net.takeMail id k limit

/-- Reads until something fails, at most so many times; `got` holds what came before. -/
def receiveAll (id : SocketId) (limit : Nat) :
    Nat → Queue (Address × Octets) → Network → (List (Address × Octets) × IoError) × Network
  | 0, got, net => ((got.toList, .nothingQueued), net)
  | n + 1, got, net =>
    match net.receive id limit with
    | (.ok x, net) => receiveAll id limit n (got.push x) net
    | (.error e, net) => ((got.toList, e), net)

def queued (net : Network) (id : SocketId) : Nat :=
  match net.sockets[id]? with
  | some k => k.queue.size
  | none => 0

def stillReadable (net : Network) (id : SocketId) : Readiness :=
  match net.sockets[id]? with
  | none => .failed .socketClosed
  | some k =>
    if k.closed then .failed .socketClosed else if k.queue.isEmpty then .pending else .ready

def readable (net : Network) (id : SocketId) : Readiness :=
  match net.sockets[id]? with
  | none => .failed .socketClosed
  | some k =>
    match (net.mode k.factory).readable with
    | some kind => .failed (.injected kind)
    | none => net.stillReadable id

def writable (net : Network) (id : SocketId) : Readiness :=
  match net.sockets[id]? with
  | none => .failed .socketClosed
  | some k =>
    match (net.mode k.factory).writable with
    | .ready => if k.closed then .failed .socketClosed else .ready
    | r => r

def localAddress (net : Network) (id : SocketId) : Except IoError Address :=
  match net.sockets[id]? with
  | none => .error .socketClosed
  | some k =>
    match (net.mode k.factory).localAddress with
    | some kind => .error (.injected kind)
    | none => .ok k.address

def sentCount (net : Network) (factory : Nat) : Nat :=
  match net.factories[factory]? with
  | some f => f.faults.sent
  | none => 0

def socket (id : SocketId) : Socket Network where
  localAddress net := net.localAddress id
  send target p net := net.send id target p.encode true
  receive limit net := net.receive id limit
  readable net := net.readable id
  stillReadable net := net.stillReadable id
  writable net := net.writable id
  -- Room is there when a wait begins, or never.
  stillWritable _ := .pending
  close net := net.close id

end Network

end DatagramStreams
