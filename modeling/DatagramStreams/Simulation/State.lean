import DatagramStreams.Handshake.Opening
import DatagramStreams.Network.Basic
import DatagramStreams.Session.Server
import DatagramStreams.Transport.Reader

/-! A running network: one clock, one list of draws, the connections and servers on it, and the tasks
that work in the background. Whatever the outside refers to has a name.
-/

set_option autoImplicit false

namespace DatagramStreams

inductive Task where
  | loop (n : Nat)
  | opening (n : Nat)
  | hold (h : Held)
  | release (h : Held)
  deriving DecidableEq, Repr

structure Alarm where
  millisecond : Nat
  task : Task
  deriving DecidableEq, Repr

inductive Audience where
  | listener (name : String) (refused : List Seq)
  | client (n : Nat)
  | host (n : Nat)
  deriving DecidableEq, Repr

structure LoopTask where
  loop : Reader := {}
  socket : SocketId
  audience : Audience
  receiverGone : Bool := false
  deriving DecidableEq, Repr

/-- A handler as the outside gives it; one that is not watched leaves no events. -/
structure Application where
  handler : Handler
  watched : Bool

inductive OpeningStage where
  | unbound
  | bound (socket : SocketId) (opening : Opening)
  | over

def OpeningStage.socket? : OpeningStage → Option SocketId
  | .bound socket _ => some socket
  | _ => none

structure OpeningTask where
  name : String
  factory : Nat
  target : Address
  timeout : Span
  config : Settings
  application : Application
  stage : OpeningStage := .unbound

structure Client where
  name : String
  connection : Connection
  socket : SocketId
  loop : Nat
  watched : Bool

structure Host where
  name : String
  server : Server
  socket : SocketId
  loop : Nat
  watched : Bool
  held : Bool := true

/-- A connection that the outside holds: a client's, or number `n` of a server. -/
inductive Handle where
  | client (n : Nat)
  | hosted (host n : Nat)
  deriving DecidableEq, Repr

inductive EventEntry where
  | happening (h : Happening)
  | packet (p : Packet)

structure Event where
  owner : String
  peer : Address
  entry : EventEntry

structure ConnectionReport where
  state : Lifecycle
  stats : StreamStats
  peer : Address
  localAddress : Except IoError Address
  description : String

structure Simulation where
  now : Instant := 0
  net : Network := {}
  draws : Draws := {}
  clients : Array Client := #[]
  hosts : Array Host := #[]
  loops : Array LoopTask := #[]
  openings : Array OpeningTask := #[]
  alarms : List Alarm := []
  ready : Queue Task := {}
  sleepers : List (SocketId × Task) := []
  factoryNames : Table String Nat := {}
  socketNames : Table String SocketId := {}
  loopNames : Table String Nat := {}
  hostNames : Table String Nat := {}
  connectionNames : Table String Handle := {}
  events : List Event := []
  /-- Openings that have ended and not yet been looked at, newest first. -/
  ended : List (String × Except ConnectionError Nat) := []
  opened : List (String × Except ConnectionError ConnectionReport) := []

namespace Simulation

def emit (s : Simulation) (watched : Bool) (owner : String) (peer : Address) (entries : List EventEntry) :
    Simulation :=
  if watched then { s with events := (entries.map fun e => ⟨owner, peer, e⟩).reverse ++ s.events }
  else s

/-- Makes a task run once more; it no longer waits for anything else. -/
def wake (s : Simulation) (t : Task) : Simulation :=
  { s with
    ready := if s.ready.contains t then s.ready else s.ready.push t
    sleepers := s.sleepers.filter fun e => e.2 ≠ t
    alarms := s.alarms.filter fun a => a.task ≠ t }

def spawn (s : Simulation) (t : Task) : Simulation := { s with ready := s.ready.push t }

/-- One datagram wakes one task. -/
def hear (s : Simulation) : Signal → Simulation
  | .mail id =>
    match s.sleepers.find? fun e => e.1 = id with
    | some e => s.wake e.2
    | none => s
  | .shut id => ((s.sleepers.filter fun e => e.1 = id).map Prod.snd).foldl wake s
  | .held h => s.spawn (.hold h)

def hearAll (s : Simulation) : Simulation :=
  s.net.signals.reverse.foldl hear { s with net := { s.net with signals := [] } }

def startLoop (s : Simulation) (socket : SocketId) (audience : Audience) : Nat × Simulation :=
  let n := s.loops.size
  (n, { s with loops := s.loops.push { socket, audience } }.spawn (.loop n))

def loopEnded (s : Simulation) (n : Nat) : Bool :=
  match s.loops[n]? with
  | some l => l.loop.hasEnded
  | none => true

def stopLoop (s : Simulation) (n : Nat) : Simulation :=
  if s.loopEnded n then s
  else { s with loops := s.loops.modify n fun l => { l with loop := l.loop.stop } }.wake (.loop n)

def clientSocket? (s : Simulation) (n : Nat) : Option SocketId := s.clients[n]?.map Client.socket

def handleSocket? (s : Simulation) : Handle → Option SocketId
  | .client n => s.clientSocket? n
  | .hosted n _ => s.hosts[n]?.map Host.socket

/-- The sockets that somebody still refers to: a name, a running loop, a server, an opening, or a
connection that is held or still to be named. -/
def heldSockets (s : Simulation) : List SocketId :=
  s.socketNames.values ++
    (s.loops.toList.filter fun l => !l.loop.hasEnded).map LoopTask.socket ++
    (s.hosts.toList.filter Host.held).map Host.socket ++
    (s.openings.toList.filterMap fun o => o.stage.socket?) ++
    (s.ended.filterMap fun e => e.2.toOption.bind s.clientSocket?) ++
    s.connectionNames.values.filterMap s.handleSocket?

def sweepSockets (s : Simulation) : Simulation :=
  let held := s.heldSockets
  let idle := s.net.registry.bound.values.filter fun id => !held.contains id
  { s with net := idle.foldl Network.drop s.net }

def afterClient (s : Simulation) (n : Nat) : Simulation :=
  match s.clients[n]? with
  | some c => if c.connection.isOpen then s else s.stopLoop c.loop
  | none => s

def putClient (s : Simulation) (n : Nat) (c : Client) (after : Connection) (net : Network) : Simulation :=
  let news := (after.journal.since c.connection.journal).map .happening
  ({ s with net, clients := s.clients.set! n { c with connection := after } }.emit c.watched c.name
    after.peer news).afterClient n

def reportHosted (h : Host) (before : List Connection) (s : Simulation) (n : Nat) (after : Connection) :
    Simulation :=
  let old := match before[n]? with
    | some c => c.journal
    | none => .empty
  s.emit h.watched h.name after.peer ((after.journal.since old).map .happening)

def putHost (s : Simulation) (n : Nat) (h : Host) (after : Server) (net : Network) : Simulation :=
  let s := { s with net, hosts := s.hosts.set! n { h with server := after } }
  (after.created.zipIdx).foldl (fun s e => reportHosted h h.server.created s e.2 e.1) s

def operate {α : Type} (s : Simulation) (handle : Handle) (other : α)
    (f : Socket Network → Connection → Network → α × Connection × Network) : α × Simulation :=
  match handle with
  | .client n =>
    match s.clients[n]? with
    | some c =>
      let (a, connection, net) := f (Network.socket c.socket) c.connection s.net
      (a, s.putClient n c connection net)
    | none => (other, s)
  | .hosted n k =>
    match s.hosts[n]? with
    | some h =>
      match h.server.connection? k with
      | some c =>
        let (a, connection, net) := f (Network.socket h.socket) c s.net
        (a, s.putHost n h { h.server with created := h.server.created.set k connection } net)
      | none => (other, s)
    | none => (other, s)

def connection? (s : Simulation) : Handle → Option (Connection × SocketId)
  | .client n => s.clients[n]?.map fun c => (c.connection, c.socket)
  | .hosted n k => do
    let h ← s.hosts[n]?
    let c ← h.server.connection? k
    pure (c, h.socket)

def report (s : Simulation) (c : Connection) (socket : SocketId) : ConnectionReport where
  state := c.state
  stats := c.stats
  peer := c.peer
  localAddress := s.net.localAddress socket
  description := c.description

def letGo (s : Simulation) (handle : Handle) : Simulation :=
  if s.connectionNames.values.contains handle then s
  else
    match handle with
    | .client n =>
      match s.clients[n]? with
      | some c => s.stopLoop c.loop
      | none => s
    | .hosted .. => s

def nameHandle (s : Simulation) (name : String) (handle : Handle) : Simulation :=
  let old := s.connectionNames.find? name
  let s := { s with connectionNames := s.connectionNames.put name handle }
  match old with
  | some h => s.letGo h
  | none => s

def dropHost (s : Simulation) (n : Nat) : Simulation :=
  match s.hosts[n]? with
  | some h => { s with hosts := s.hosts.set! n { h with held := false } }.stopLoop h.loop
  | none => s

end Simulation

end DatagramStreams
