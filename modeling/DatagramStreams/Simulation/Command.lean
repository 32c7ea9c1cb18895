import DatagramStreams.Simulation.Tasks

/-! Commands from outside. Each is carried out at the current time, then the background tasks run until
they rest, and the answer is reported with all that happened on the way.
-/

set_option autoImplicit false

namespace DatagramStreams

structure ModeChange where
  send : Option (Option IoKind) := none
  writable : Option Readiness := none
  readable : Option (Option IoKind) := none
  localAddress : Option (Option IoKind) := none
  receiveErrors : Option (List IoKind) := none
  deriving DecidableEq, Repr

def ModeChange.apply (c : ModeChange) (m : SocketMode) : SocketMode where
  send := c.send.getD m.send
  writable := c.writable.getD m.writable
  readable := c.readable.getD m.readable
  localAddress := c.localAddress.getD m.localAddress
  receiveErrors := c.receiveErrors.getD m.receiveErrors

inductive Command where
  | addFactory (name : String) (plan : FaultPlan) (describe : Bool)
  | sentCount (factory : String)
  | setMode (factory : String) (change : ModeChange)
  | bind (socket factory : String) (address : Address)
  | bindMany (factory : String) (address : Address) (n : Nat)
  | send (socket : String) (target : Address) (octets : Octets) (mayHold : Bool)
  | receive (socket : String) (limit : Nat)
  | readiness (socket : String)
  | inject (source target : Address) (octets : Octets)
  | closeSocket (socket : String)
  | dropSocket (socket : String)
  | startLoop (name socket : String) (refused : List Seq)
  | stopLoop (name : String)
  | dropReceiver (name : String)
  | dropLoop (name : String)
  | loopEnded (name : String)
  | startServer (name factory : String) (address : Address) (application : Application)
      (admitted : Option (List Address)) (config : Settings)
  | pollServer (name : String)
  | stopServer (name : String)
  | dropServer (name : String)
  | setPendingLife (name : String) (life : Span)
  | describeServer (name : String)
  | grab (server : String) (peer : Address) (name : String)
  | openConnection (name factory : String) (target : Address) (timeout : Span)
      (application : Application) (config : Settings)
  | pollConnection (name : String)
  | sendReliable (name : String) (payload : Octets)
  | sendUnreliable (name : String) (payload : Octets)
  | sendCounters (name : String) (first n : Nat) (reliably : Bool)
  | closeConnection (name : String)
  | setSendTimeout (name : String) (limit : Span)
  | dropConnection (name : String)
  | describeConnection (name : String)
  | advance (span : Span)
  | pump (rounds : Nat) (span : Span)

structure ServerReport where
  address : Except IoError Address
  connectionCount : Nat
  connections : List (Address × Lifecycle × StreamStats)
  description : String

inductive Answer where
  | done
  | flag (b : Bool)
  | count (n : Nat)
  | text (t : String)
  | address (result : Except IoError Address)
  | sent (result : Except IoError Nat)
  | mail (got : List (Address × Octets)) (last : IoError)
  | readiness (readable writable : Readiness)
  | outcome (result : Except ConnectionError Unit)
  | server (r : ServerReport)
  | connection (r : ConnectionReport)
  | failures (byName : Table String ConnectionError)

namespace Simulation

def sortedNames {α : Type} (t : Table String α) : List String :=
  t.keys.mergeSort fun a b => a ≤ b

/-! ### Factories and sockets -/

def factoryNumber (s : Simulation) (name : String) : Nat :=
  (s.factoryNames.find? name).getD s.net.factories.size

def addFactory (s : Simulation) (name : String) (plan : FaultPlan) (describe : Bool) :
    Answer × Simulation :=
  let (n, net) := s.net.addFactory plan
  (if describe then .text plan.description else .done,
    { s with net, factoryNames := s.factoryNames.put name n })

def setMode (s : Simulation) (factory : String) (change : ModeChange) : Simulation :=
  let n := s.factoryNumber factory
  { s with net := s.net.setMode n (change.apply (s.net.mode n)) }

def bind (s : Simulation) (name factory : String) (a : Address) : Answer × Simulation :=
  match s.net.bind (s.factoryNumber factory) a with
  | (.ok id, net) =>
    (.address (net.localAddress id), { s with net, socketNames := s.socketNames.put name id })
  | (.error e, net) => (.address (.error e), { s with net })

def bindMany (factory : Nat) (a : Address) :
    Nat → Answer → Network → Answer × Network
  | 0, last, net => (last, net)
  | n + 1, _, net =>
    match net.bind factory a with
    | (.ok id, net) => bindMany factory a n (.address (net.localAddress id)) (net.drop id)
    | (.error e, net) => (.address (.error e), net)

def onSocket (s : Simulation) (name : String) (f : SocketId → Network → Answer × Network) :
    Answer × Simulation :=
  match s.socketNames.find? name with
  | some id =>
    let (answer, net) := f id s.net
    (answer, { s with net })
  | none => (.done, s)

def dropSocket (s : Simulation) (name : String) : Answer × Simulation :=
  (.flag (s.socketNames.contains name), { s with socketNames := s.socketNames.erase name })

/-! ### Receive loops -/

def dropLoop (s : Simulation) (name : String) : Simulation :=
  match s.loopNames.find? name with
  | some n => { s with loopNames := s.loopNames.erase name }.stopLoop n
  | none => s

def startListener (s : Simulation) (name socket : String) (refused : List Seq) : Simulation :=
  match s.socketNames.find? socket with
  | some id =>
    let s := s.dropLoop name
    let (n, s) := s.startLoop id (.listener name refused)
    { s with loopNames := s.loopNames.put name n }
  | none => s

def dropReceiver (s : Simulation) (name : String) : Simulation :=
  match s.loopNames.find? name with
  | some n => { s with loops := s.loops.modify n fun l => { l with receiverGone := true } }
  | none => s

/-! ### Servers -/

def forgetServer (s : Simulation) (name : String) : Simulation :=
  match s.hostNames.find? name with
  | some n => { s with hostNames := s.hostNames.erase name }.dropHost n
  | none => s

/-- A server that does not learn its own address is given up again. -/
def startServer (s : Simulation) (name factory : String) (a : Address) (application : Application)
    (admitted : Option (List Address)) (config : Settings) : Answer × Simulation :=
  match s.net.bind (s.factoryNumber factory) a with
  | (.error e, net) => (.address (.error e), { s with net })
  | (.ok socket, net) =>
    match net.localAddress socket with
    | .error e => (.address (.error e), { s with net := net.drop socket })
    | .ok a =>
      let n := s.hosts.size
      let (loop, s) := { s with net }.startLoop socket (.host n)
      let admits := fun a => match admitted with
        | some l => l.contains a
        | none => true
      let server := Server.new config (fun _ _ => application.handler) admits
      let host : Host := { name, server, socket, loop, watched := application.watched }
      let s := { s with hosts := s.hosts.push host }.forgetServer name
      (.address (.ok a), { s with hostNames := s.hostNames.put name n })

def onHost {α : Type} (s : Simulation) (name : String) (other : α) (f : Nat → Host → α) : α :=
  match s.hostNames.find? name with
  | some n =>
    match s.hosts[n]? with
    | some h => f n h
    | none => other
  | none => other

def pollServer (s : Simulation) (name : String) : Simulation :=
  s.onHost name s fun n h =>
    let (server, net) := h.server.poll (Network.socket h.socket) s.now s.net
    s.putHost n h server net

def stopServer (s : Simulation) (name : String) : Simulation :=
  s.onHost name s fun n h =>
    let s := s.stopLoop h.loop
    let (server, net) := h.server.stop (Network.socket h.socket) s.now s.net
    s.putHost n h server net

def setPendingLife (s : Simulation) (name : String) (life : Span) : Simulation :=
  s.onHost name s fun n h => s.putHost n h (h.server.setPendingLife life) s.net

def serverReport (s : Simulation) (h : Host) : ServerReport :=
  let address := s.net.localAddress h.socket
  let connections := h.server.clients.entries.filterMap fun e =>
    (h.server.connection? e.2).map fun c => (e.1, c.state, c.stats)
  { address
    connectionCount := h.server.connectionCount
    connections := connections.mergeSort fun a b => a.1.text ≤ b.1.text
    description := h.server.description address }

def grab (s : Simulation) (server : String) (peer : Address) (name : String) : Answer × Simulation :=
  s.onHost server (.flag false, s) fun n h =>
    match h.server.clients.find? peer with
    | some k => (.flag true, s.nameHandle name (.hosted n k))
    | none => (.flag false, s)

/-! ### Connections -/

def openConnection (s : Simulation) (o : OpeningTask) : Simulation :=
  { s with openings := s.openings.push o }.spawn (.opening s.openings.size)

def onConnection (s : Simulation) (name : String)
    (f : Socket Network → Connection → Network → Answer × Connection × Network) : Answer × Simulation :=
  match s.connectionNames.find? name with
  | some handle => s.operate handle .done f
  | none => (.done, s)

def sendOn (reliably : Bool) (now : Instant) (payload : Octets) (sock : Socket Network)
    (c : Connection) (net : Network) : Except ConnectionError Unit × Connection × Network :=
  if reliably then c.sendReliable sock payload now net else c.sendUnreliable sock payload now net

def sendCounters (reliably : Bool) (now : Instant) (sock : Socket Network) (first : Nat) :
    Nat → Answer → Connection → Network → Answer × Connection × Network
  | 0, last, c, net => (last, c, net)
  | n + 1, _, c, net =>
    let (r, c, net) := sendOn reliably now (counter first) sock c net
    sendCounters reliably now sock (first + 1) n (.outcome r) c net

def pollConnection (s : Simulation) (name : String) : Answer × Simulation :=
  s.onConnection name fun sock c net =>
    let (r, c, net) := c.poll sock s.now net
    (.outcome r, c, net)

def dropConnection (s : Simulation) (name : String) : Answer × Simulation :=
  match s.connectionNames.find? name with
  | some h => (.flag true, { s with connectionNames := s.connectionNames.erase name }.letGo h)
  | none => (.flag false, s)

def connectionReport? (s : Simulation) (name : String) : Option ConnectionReport := do
  let handle ← s.connectionNames.find? name
  let (c, socket) ← s.connection? handle
  pure (s.report c socket)

/-! ### Rounds -/

def pumpServers : List String → Simulation → Simulation
  | [], s => s
  | name :: rest, s => pumpServers rest (s.pollServer name).settle

def pumpConnections :
    List String → Table String ConnectionError → Simulation → Table String ConnectionError × Simulation
  | [], failed, s => (failed, s)
  | name :: rest, failed, s =>
    let (answer, s) := s.pollConnection name
    let failed := match answer with
      | .outcome (.error e) => failed.put name e
      | _ => failed
    pumpConnections rest failed s.settle

def pump (span : Span) :
    Nat → Table String ConnectionError → Simulation → Table String ConnectionError × Simulation
  | 0, failed, s => (failed, s)
  | n + 1, failed, s =>
    let s := pumpServers (sortedNames s.hostNames) s
    let (failed, s) := pumpConnections (sortedNames s.connectionNames) failed s
    pump span n failed (s.advance span)

/-! ### Carrying out -/

def carryOut (s : Simulation) : Command → Answer × Simulation
  | .addFactory name plan describe => s.addFactory name plan describe
  | .sentCount factory => (.count (s.net.sentCount (s.factoryNumber factory)), s)
  | .setMode factory change => (.done, s.setMode factory change)
  | .bind socket factory a => s.bind socket factory a
  | .bindMany factory a n =>
    let (answer, net) := bindMany (s.factoryNumber factory) a n .done s.net
    (answer, { s with net })
  | .send socket target b mayHold => s.onSocket socket fun id net =>
    let (r, net) := net.send id target b mayHold
    (.sent (r.map fun _ => b.length), net)
  | .receive socket limit => s.onSocket socket fun id net =>
    let ((got, last), net) := Network.receiveAll id limit (net.queued id + 1) {} net
    (.mail got last, net)
  | .readiness socket => s.onSocket socket fun id net =>
    (.readiness (net.readable id) (net.writable id), net)
  | .inject source target b => (.done, { s with net := s.net.deliver ⟨source, b⟩ target })
  | .closeSocket socket => s.onSocket socket fun id net => (.done, net.close id)
  | .dropSocket socket => s.dropSocket socket
  | .startLoop name socket refused => (.done, s.startListener name socket refused)
  | .stopLoop name => (.done, match s.loopNames.find? name with
      | some n => Simulation.stopLoop s n
      | none => s)
  | .dropReceiver name => (.done, s.dropReceiver name)
  | .dropLoop name => (.flag (s.loopNames.contains name), s.dropLoop name)
  | .loopEnded name => (.flag (match s.loopNames.find? name with
      | some n => Simulation.loopEnded s n
      | none => true), s)
  | .startServer name factory a application admitted config =>
    s.startServer name factory a application admitted config
  | .pollServer name => (.done, s.pollServer name)
  | .stopServer name => (.done, s.stopServer name)
  | .dropServer name => (.flag (s.hostNames.contains name), s.forgetServer name)
  | .setPendingLife name life => (.done, s.setPendingLife name life)
  | .describeServer name => (s.onHost name .done fun _ h => .server (s.serverReport h), s)
  | .grab server peer name => s.grab server peer name
  | .openConnection name factory target timeout application config =>
    (.done, s.openConnection
      { name, factory := s.factoryNumber factory, target, timeout, application, config })
  | .pollConnection name => s.pollConnection name
  | .sendReliable name payload => s.onConnection name fun sock c net =>
    let (r, c, net) := c.sendReliable sock payload s.now net
    (.outcome r, c, net)
  | .sendUnreliable name payload => s.onConnection name fun sock c net =>
    let (r, c, net) := c.sendUnreliable sock payload s.now net
    (.outcome r, c, net)
  | .sendCounters name first n reliably => s.onConnection name fun sock c net =>
    sendCounters reliably s.now sock first n .done c net
  | .closeConnection name => s.onConnection name fun sock c net => (.done, c.close sock s.now net)
  | .setSendTimeout name limit => s.onConnection name fun _ c net =>
    (.done, c.setSendTimeout limit, net)
  | .dropConnection name => s.dropConnection name
  | .describeConnection name => (match s.connectionReport? name with
      | some r => .connection r
      | none => .done, s)
  | .advance span => (.done, s.advance span)
  | .pump rounds span =>
    let (failed, s) := pump span rounds {} s
    (.failures failed, s)

end Simulation

structure Outcome where
  answer : Answer
  opened : List (String × Except ConnectionError ConnectionReport)
  events : List Event
  transmissions : List Transmission

namespace Simulation

/-- Sorts by a pair of keys; what agrees in both stays in order. -/
def sortByKeys {α : Type} (keys : α → String × String) (l : List α) : List α :=
  let before := fun (a b : (String × String) × α) =>
    a.1.1 < b.1.1 || (a.1.1 = b.1.1 && a.1.2 ≤ b.1.2)
  ((l.map fun x => (keys x, x)).mergeSort before).map Prod.snd

def execute (s : Simulation) (c : Command) : Outcome × Simulation :=
  let (answer, s) := s.carryOut c
  let s := s.settle.lookAtEnded
  ({ answer
     opened := s.opened.reverse
     events := sortByKeys (fun e => (e.owner, e.peer.text)) s.events.reverse
     transmissions := sortByKeys (fun t => (t.source.text, t.target.text)) s.net.transmissions.reverse },
    { s with opened := [], events := [], net := { s.net with transmissions := [] } })

end Simulation

end DatagramStreams
