import DatagramStreams.Proofs.Server.Clients
import DatagramStreams.Proofs.Transport.Outlet

/-! A server on a socket that all its clients share, from its start through anything that can happen to it.
An observer writes down what concerns handshakes: which requests were answered, which connections were
created, and when old handshakes were looked for.
Main statement: `Reached.sound`.
-/

set_option autoImplicit false

namespace DatagramStreams

inductive Deed where
  /-- An admitted connect request got an answer with the drawn sequence `reply`. -/
  | answered (client : Address) (request reply : Seq) (moment : Instant)
  /-- An ACK completed the handshake under `key`, and this connection began. -/
  | opened (key : PendingKey) (newborn : Connection)
  | swept (moment : Instant) (life : Span)

namespace Server

def deed? (before after : Server) (now : Instant) : Event → Option Deed
  | .datagram source octets draws =>
    match Packet.decode? octets with
    | some p =>
      match before.clients.find? source, p.ack with
      | some _, _ => none
      | none, some ack => (after.connection? before.created.length).map (.opened ⟨source, ack⟩)
      | none, none =>
        if p.connectRequest && before.admits source then
          some (.answered source p.sequence draws.draw.1 now)
        else none
    | none => none
  | .poll _ => some (.swept now before.pendingLife)
  | _ => none

end Server

structure Service where
  server : Server
  outlet : Outlet := {}
  clock : Instant := 0
  /-- Newest first. -/
  history : List Deed := []

namespace Service

def start (config : Settings) (handlers : HandlerFactory) (admits : Address → Bool) : Service where
  server := .new config handlers admits

/-- The clock never goes back, and a poll or a stop visits every client once. -/
structure Possible (h : Service) (now : Instant) (e : Server.Event) : Prop where
  later : h.clock ≤ now
  thorough : e.Thorough h.server

def next (fate : Outlet.Fate) (h : Service) (now : Instant) (e : Server.Event) : Service :=
  let (server, outlet) := h.server.react (Outlet.socket fate) now h.outlet e
  { server
    outlet
    clock := now
    history := (h.server.deed? server now e).toList ++ h.history }

/-- States of a server from its start on. The fate of sends is open at every step. -/
inductive Reached (config : Settings) (handlers : HandlerFactory) (admits : Address → Bool) : Service → Prop where
  | start : Reached config handlers admits (.start config handlers admits)
  | next {h : Service} (hr : Reached config handlers admits h) {now : Instant} {e : Server.Event}
      (hp : h.Possible now e) (fate : Outlet.Fate) : Reached config handlers admits (h.next fate now e)

variable {config : Settings} {handlers : HandlerFactory} {admits : Address → Bool} {h : Service}

theorem Possible.datagram (now : Instant) (source : Address) (octets : Octets) (draws : Draws)
    (hl : h.clock ≤ now) : h.Possible now (.datagram source octets draws) :=
  ⟨hl, trivial⟩

theorem Possible.poll (now : Instant) {order : List Nat} (hl : h.clock ≤ now)
    (ho : order.Perm h.server.clients.values) : h.Possible now (.poll order) :=
  ⟨hl, ho⟩

theorem Reached.sound (hr : Reached config handlers admits h) : h.server.Sound := by
  induction hr with
  | start => exact Server.sound_new config handlers admits
  | next _ hp fate ih => exact ih.react hp.thorough _ _

end Service

end DatagramStreams
