import DatagramStreams.Handshake.Draws
import DatagramStreams.Handshake.Pending
import DatagramStreams.Session.Connection

/-! A server: many clients over one socket. A packet goes to the connection of its sender; from an
unknown sender an ACK may complete a handshake, and a connect request may begin one. Trouble with
one client closes that client only.
-/

set_option autoImplicit false

namespace DatagramStreams

structure Server where
  created : List Connection := []
  clients : Table Address Nat := {}
  pending : Pending := {}
  pendingLife : Span
  config : Settings
  handlers : HandlerFactory
  admits : Address → Bool

namespace Server

variable {σ : Type}

def new (config : Settings) (handlers : HandlerFactory) (admits : Address → Bool) : Server :=
  { config, handlers, admits, pendingLife := config.pendingLife }

def connection? (v : Server) (n : Nat) : Option Connection := v.created[n]?

def connectionCount (v : Server) : Nat := v.clients.size

def update (v : Server) (n : Nat) (f : Connection → σ → Connection × σ) (s : σ) : Server × σ :=
  match v.connection? n with
  | some c =>
    let (c, s) := f c s
    ({ v with created := v.created.set n c }, s)
  | none => (v, s)

/-- Answers an admitted connect request with a drawn sequence. The handshake is pending before the
answer leaves, whatever becomes of the answer. -/
def accept (sock : Socket σ) (v : Server) (source : Address) (request : Packet) (now : Instant)
    (draws : Draws) (s : σ) : Server × Draws × σ :=
  if !v.admits source then (v, draws, s)
  else
    let (t, draws) := draws.draw
    let answer := Packet.reply t request.nextSequence
    let pending := v.pending.insert ⟨source, answer.nextSequence⟩ request.nextSequence now
    ({ v with pending }, draws, (sock.send source answer s).2)

def newborn (v : Server) (source : Address) (sequenceIn sequenceOut : Seq) : Connection :=
  .establish source sequenceIn sequenceOut v.config (v.handlers v.created.length source) false

def complete (v : Server) (source : Address) (ack : Seq) : Server :=
  match v.pending.complete ⟨source, ack⟩ with
  | (none, _) => v
  | (some sequenceIn, pending) =>
    { v with
      pending
      clients := v.clients.put source v.created.length
      created := v.created ++ [v.newborn source sequenceIn ack] }

def receiveFrom (sock : Socket σ) (source : Address) (p : Packet) (now : Instant) (c : Connection)
    (s : σ) : Connection × σ :=
  match c.receive sock source p now s with
  | (.ok (), c, s) => (c, s)
  | (.error _, c, s) => c.close sock now s

def receive (sock : Socket σ) (v : Server) (source : Address) (p : Packet) (now : Instant)
    (draws : Draws) (s : σ) : Server × Draws × σ :=
  match v.clients.find? source, p.ack with
  | some n, _ =>
    let (v, s) := v.update n (receiveFrom sock source p now) s
    (v, draws, s)
  | none, some ack => (v.complete source ack, draws, s)
  | none, none => if p.connectRequest then v.accept sock source p now draws s else (v, draws, s)

def pollOne (sock : Socket σ) (now : Instant) (c : Connection) (s : σ) : Connection × σ :=
  match c.poll sock now s with
  | (.ok (), c, s) => (c, s)
  | (.error .closed, c, s) => (c, s)
  | (.error _, c, s) => c.close sock now s

def pollEach (sock : Socket σ) (now : Instant) : List Nat → Server → σ → Server × σ
  | [], v, s => (v, s)
  | n :: rest, v, s =>
    let (v, s) := v.update n (pollOne sock now) s
    pollEach sock now rest v s

def forgetClosed (v : Server) : Server :=
  { v with clients := v.clients.keep fun _ n =>
      match v.connection? n with
      | some c => c.state ≠ .closed
      | none => false }

def pollInOrder (sock : Socket σ) (order : List Nat) (v : Server) (now : Instant) (s : σ) :
    Server × σ :=
  let (_, pending) := v.pending.sweep now v.pendingLife
  let (v, s) := pollEach sock now order { v with pending } s
  (v.forgetClosed, s)

/-- Polls every client; which comes first makes no difference to any of them. -/
def poll (sock : Socket σ) (v : Server) (now : Instant) (s : σ) : Server × σ :=
  v.pollInOrder sock v.clients.values now s

def dismiss (sock : Socket σ) (now : Instant) (c : Connection) (s : σ) : Connection × σ :=
  let (c, s) := c.close sock now s
  (c.poll sock now s).2

def dismissEach (sock : Socket σ) (now : Instant) : List Nat → Server → σ → Server × σ
  | [], v, s => (v, s)
  | n :: rest, v, s =>
    let (v, s) := v.update n (dismiss sock now) s
    dismissEach sock now rest v s

/-- Closes clients in the given order with their last callbacks, and gives the socket up. -/
def stopInOrder (sock : Socket σ) (order : List Nat) (v : Server) (now : Instant) (s : σ) :
    Server × σ :=
  let (v, s) := dismissEach sock now order { v with clients := .empty } s
  (v, sock.close s)

def stop (sock : Socket σ) (v : Server) (now : Instant) (s : σ) : Server × σ :=
  v.stopInOrder sock v.clients.values now s

def setPendingLife (v : Server) (life : Span) : Server := { v with pendingLife := life }

def description (v : Server) (address : Except IoError Address) : String :=
  let shown := match address with
    | .ok a => "Some(" ++ a.text ++ ")"
    | .error _ => "None"
  "Server \x7b local_addr: " ++ shown ++ ", connections: " ++ toString v.connectionCount ++ " \x7d"

end Server

end DatagramStreams
