import DatagramStreams.Simulation.State

/-! Background tasks. They take turns in the order in which they became ready; a turn is one small step,
and a task with more to do at once keeps its place in front.
-/

set_option autoImplicit false

namespace DatagramStreams.Simulation

def millisecondAfter (t : Instant) : Nat := (t + (Span.millisecond - 1)) / Span.millisecond

def setAlarm (s : Simulation) (t : Instant) (task : Task) : Simulation :=
  { s with alarms := ⟨millisecondAfter t, task⟩ :: s.alarms }

def isDue (s : Simulation) (a : Alarm) : Bool := a.millisecond * Span.millisecond ≤ s.now

def sleep (s : Simulation) (id : SocketId) (task : Task) : Simulation :=
  { s with sleepers := s.sleepers ++ [(id, task)] }

/-! ### Held datagrams -/

def deliverHeld (s : Simulation) (h : Held) : Simulation :=
  { s with net := s.net.deliver h.datagram h.target }

def holdBack (s : Simulation) (h : Held) : Simulation :=
  let alarm : Alarm := ⟨millisecondAfter (s.now + h.delay), .release h⟩
  if s.isDue alarm then s.deliverHeld h else { s with alarms := alarm :: s.alarms }

/-! ### Receive loops -/

def listenerTake (name : String) (refused : List Seq) (source : Address) (p : Packet) (s : Simulation) :
    Except ConnectionError Unit × Simulation :=
  (if refused.contains p.sequence then .error .closed else .ok (),
    s.emit true name source [.packet p])

def clientTake (n : Nat) (source : Address) (p : Packet) (s : Simulation) :
    Except ConnectionError Unit × Simulation :=
  match s.clients[n]? with
  | some c =>
    let (r, connection, net) := c.connection.receive (Network.socket c.socket) source p s.now s.net
    (r, s.putClient n c connection net)
  | none => (.ok (), s)

def hostTake (n : Nat) (source : Address) (p : Packet) (s : Simulation) :
    Except ConnectionError Unit × Simulation :=
  match s.hosts[n]? with
  | some h =>
    let (server, draws, net) := h.server.receive (Network.socket h.socket) source p s.now s.draws s.net
    (.ok (), { s with draws }.putHost n h server net)
  | none => (.ok (), s)

def receiver (l : LoopTask) : Reader.Receiver Simulation :=
  match l.audience with
  | .listener name refused => ⟨fun _ => !l.receiverGone, listenerTake name refused⟩
  | .client n => ⟨fun _ => true, clientTake n⟩
  | .host n => ⟨fun _ => true, hostTake n⟩

def netSocket (id : SocketId) : Socket Simulation :=
  (Network.socket id).within Simulation.net fun s net => { s with net }

/-- Whether the task goes on at once, and the state after its turn. -/
def turnLoop (s : Simulation) (n : Nat) : Bool × Simulation :=
  match s.loops[n]? with
  | none => (false, s)
  | some l =>
    let (loop, s) := l.loop.step (netSocket l.socket) (receiver l) s
    let s := { s with loops := s.loops.modify n fun l =>
      { l with loop := { loop with stopped := l.loop.stopped } } }
    match loop.phase with
    | .waiting => (false, s.sleep l.socket (.loop n))
    | .ended => (false, s)
    | _ => (true, s)

/-! ### Openings -/

def setStage (s : Simulation) (n : Nat) (stage : OpeningStage) : Simulation :=
  { s with openings := s.openings.modify n fun o => { o with stage } }

def endOpening (s : Simulation) (n : Nat) (name : String) (result : Except ConnectionError Nat) :
    Simulation :=
  { s.setStage n .over with ended := (name, result) :: s.ended }

def admitClient (s : Simulation) (o : OpeningTask) (socket : SocketId) (agreed : Agreement) :
    Nat × Simulation :=
  let n := s.clients.size
  let (loop, s) := s.startLoop socket (.client n)
  let connection := Connection.establish o.target agreed.sequenceIn agreed.sequenceOut o.config
    o.application.handler true
  let client : Client := { name := o.name, connection, socket, loop, watched := o.application.watched }
  (n, { s with clients := s.clients.push client })

/-- A client owns its socket. Its loop is there before anybody can close it, and stops when it lets go. -/
def finishOpening (s : Simulation) (n : Nat) (o : OpeningTask) (socket : SocketId) :
    Except ConnectionError Agreement → Simulation
  | .ok agreed =>
    let (client, s) := s.admitClient o socket agreed
    s.endOpening n o.name (.ok client)
  | .error e => { s with net := s.net.drop socket }.endOpening n o.name (.error e)

def bindOpening (s : Simulation) (n : Nat) (o : OpeningTask) : Bool × Simulation :=
  match s.net.bind o.factory o.target.wildcardFor with
  | (.error e, net) => (false, { s with net }.endOpening n o.name (.error (.io e)))
  | (.ok socket, net) =>
    let (first, draws) := s.draws.draw
    let opening := Opening.start o.target o.timeout o.config.retryInterval first s.now
    (true, { s with net, draws }.setStage n (.bound socket opening))

def stepOpening (s : Simulation) (n : Nat) (o : OpeningTask) (socket : SocketId) (opening : Opening) :
    Bool × Simulation :=
  let ((opening, wish), s) := opening.step (netSocket socket) s.now s
  let s := s.setStage n (.bound socket opening)
  match wish with
  | .again => (true, s)
  | .sleep mail limit =>
    let s := if mail then s.sleep socket (.opening n) else s
    (false, match limit with
      | some t => s.setAlarm t (.opening n)
      | none => s)
  | .ended =>
    match opening.phase with
    | .finished result => (false, s.finishOpening n o socket result)
    | _ => (false, s)

def turnOpening (s : Simulation) (n : Nat) : Bool × Simulation :=
  match s.openings[n]? with
  | none => (false, s)
  | some o =>
    match o.stage with
    | .unbound => s.bindOpening n o
    | .bound socket opening => s.stepOpening n o socket opening
    | .over => (false, s)

/-! ### Turns -/

def perform (s : Simulation) : Task → Bool × Simulation
  | .loop n => s.turnLoop n
  | .opening n => s.turnOpening n
  | .hold h => (false, s.holdBack h)
  | .release h => (false, s.deliverHeld h)

def turn (s : Simulation) : Simulation :=
  match s.ready.pop? with
  | none => s
  | some (t, rest) =>
    let (again, s) := { s with ready := rest.pushFront t }.perform t
    if again then s.hearAll else { s with ready := s.ready.tail }.hearAll.sweepSockets

def turns : Nat → Simulation → Simulation
  | 0, s => s
  | n + 1, s => if s.ready.isEmpty then s else turns n s.turn

/-- Tasks that are still busy after so many turns at one instant will never rest. -/
def patience : Nat := 1000000000

def lookAt (s : Simulation) (e : String × Except ConnectionError Nat) : Simulation :=
  match e.2 with
  | .error x => { s with opened := (e.1, .error x) :: s.opened }
  | .ok n =>
    match s.clients[n]? with
    | some c =>
      let r := s.report c.connection c.socket
      { s with opened := (e.1, .ok r) :: s.opened }.nameHandle e.1 (.client n)
    | none => s

def lookAtEnded (s : Simulation) : Simulation :=
  s.ended.reverse.foldl lookAt { s with ended := [] }

def settle (s : Simulation) : Simulation :=
  turns patience s.hearAll.sweepSockets

/-! ### Time -/

/-- Wakes the tasks whose alarm is due, in the order in which the alarms were set. -/
def ring (s : Simulation) : Simulation :=
  let due := (s.alarms.filter s.isDue).reverse
  let s := { s with alarms := s.alarms.filter fun a => !s.isDue a }
  due.foldl (fun s a => match a.task with
    | .release h => s.spawn (.release h)
    | t => s.wake t) s

def tick (s : Simulation) (span : Span) : Simulation := { s with now := s.now + span }.ring.settle

def ticks : Nat → Simulation → Simulation
  | 0, s => s
  | n + 1, s => ticks n (s.tick Span.millisecond)

/-- Moves the clock. While an alarm is set it goes by milliseconds, a shorter rest last, and in one
jump otherwise. -/
def advance (s : Simulation) (span : Span) : Simulation :=
  if s.alarms.isEmpty then s.tick span
  else
    let s := ticks (span / Span.millisecond) s
    let rest := span % Span.millisecond
    if rest = 0 then s else s.tick rest

end DatagramStreams.Simulation
