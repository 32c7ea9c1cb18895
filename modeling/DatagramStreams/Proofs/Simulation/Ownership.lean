import DatagramStreams.Proofs.Simulation.Leaving

/-! Who owns which address in runs of a network. A client owns its address as long as it is open, gives it up
in the move in which it leaves and has nothing to do with it from then on. A server's socket is closed when the
server is stopped, whatever its connections do.
Main statement: `Reached.ownership`.
-/

set_option autoImplicit false

namespace DatagramStreams

def Network.Offers (net : Network) (a : Address) : Prop :=
  ∀ factory, ∃ id, (net.bind factory a).1 = .ok id ∧ (net.bind factory a).2.badge id = some (a, false)

/-- The loop takes its next step in the same way whoever would take a packet. -/
def Reader.HandsNothing {σ : Type} (l : Reader) (sock : Socket σ) (s : σ) : Prop :=
  ∀ receiver receiver', l.step sock receiver s = l.step sock receiver' s

namespace Network

variable {net : Network} {held : SocketId → Prop} {id : SocketId} {a b : Address} {closed : Bool}

theorem Tenured.offers (h : net.Tenured held) (hbadge : net.badge id = some (a, closed))
    (hfree : net.registry.owner? a = none) : net.Offers a := fun factory =>
  ⟨_, bind_ok_of_free (h.assigned hbadge) hfree factory⟩

theorem localAddress_eq (hbadge : net.badge id = some (a, closed)) (hb : net.localAddress id = .ok b) :
    b = a := by
  obtain ⟨k, hk, rfl, -⟩ := exists_of_badge hbadge
  simp only [localAddress, hk] at hb
  split at hb
  · cases hb
  · exact (Except.ok.inj hb).symm

end Network

namespace Simulation

variable {role : SocketId → Role} {stopped : List Nat} {s : Simulation} {n : Nat} {c : Client} {a : Address}

/-- Somebody holds the connection of a client, or is about to get it. -/
def Holds (s : Simulation) (n : Nat) : Prop :=
  (∃ x, s.connectionNames.find? x = some (.client n)) ∨ ∃ x, (x, .ok n) ∈ s.ended

/-- A client that is open owns its address. The move in which it leaves frees that. -/
structure Resident (s : Simulation) (n : Nat) (c : Client) (a : Address) : Prop where
  owner : s.net.registry.owner? a = some c.socket
  leaving : ∀ m : Move, m.waits = false → ∀ c', (m.run s).clients[n]? = some c' →
    c'.connection.isOpen = false → (m.run s).net.registry.owner? a = none ∧ (m.run s).net.Offers a

/-- A client that has left owns no address, gets nothing to read, and takes no address from anybody, whoever
has bound its own since. -/
structure Departed (s : Simulation) (n : Nat) (c : Client) (a : Address) : Prop where
  unbound : ∀ b, s.net.registry.owner? b ≠ some c.socket
  offered : s.net.registry.owner? a = none → s.net.Offers a
  silent : ∀ (k : Nat) l, s.loops[k]? = some l → l.audience = .client n →
    l.loop.HandsNothing (netSocket l.socket) s
  use : ∀ (turn : Connection.Turn) now, (turn.run (Network.socket c.socket) now c.connection s.net).2 = s.net
  close : s.net.close c.socket = s.net
  drop : s.net.drop c.socket = s.net

structure Ownership (stopped : List Nat) (s : Simulation) : Prop where
  client : ∀ (n : Nat) c, s.clients[n]? = some c → ∃ a, s.net.badge c.socket = some (a, !c.connection.isOpen) ∧
    (∀ b, s.net.localAddress c.socket = .ok b → b = a) ∧
    (c.connection.isOpen = true → s.Holds n → s.Resident n c a) ∧
    (c.connection.isOpen = false → s.Departed n c a)
  server : ∀ (n : Nat) host, s.hosts[n]? = some host → n ∉ stopped → ∃ a,
    s.net.badge host.socket = some (a, false) ∧
    ((∃ x, s.hostNames.find? x = some n) → s.net.registry.owner? a = some host.socket)
  hosted : ∀ (n : Nat) host, s.hosts[n]? = some host → ∀ k c, host.server.connection? k = some c →
    ∀ (turn : Connection.Turn) now, Network.Same s.net (turn.run (Network.socket host.socket) now c s.net).2
  others : ∀ id a, s.Refers id → s.net.badge id = some (a, false) → s.net.registry.owner? a = some id

theorem Holds.refers (h : s.Holds n) (hc : s.clients[n]? = some c) : s.Refers c.socket := by
  have hsocket : s.clientSocket? n = some c.socket := by rw [clientSocket?, hc, Option.map_some]
  rcases h with ⟨x, hx⟩ | ⟨x, hx⟩
  · exact ⟨.handle x, Option.bind_eq_some_iff.mpr ⟨.client n, hx, hsocket⟩⟩
  · obtain ⟨k, hk⟩ := List.mem_iff_getElem?.mp hx
    exact ⟨.ended k, Option.bind_eq_some_iff.mpr ⟨(x, .ok n), hk, hsocket⟩⟩

theorem handsNothing_of_closed {id : SocketId} (hb : s.net.badge id = some (a, true)) (l : Reader) :
    l.HandsNothing (netSocket id) s := by
  intro receiver receiver'
  unfold Reader.step
  cases l.phase with
  | draining =>
    obtain ⟨e, he⟩ := Network.receive_of_closed hb Socket.bufferLength
    have hreceive : ((netSocket id).receive Socket.bufferLength s).1 = .error e := he
    simp only [Reader.drain]
    rcases hr : (netSocket id).receive Socket.bufferLength s with ⟨e' | x, s'⟩
    · rfl
    · rw [hr] at hreceive
      cases hreceive
  | idle => rfl
  | waiting => rfl
  | ended => rfl

theorem Orderly.resident (h : Orderly role stopped s) (hc : s.clients[n]? = some c)
    (hbadge : s.net.badge c.socket = some (a, false)) (hopen : c.connection.isOpen = true) (hheld : s.Holds n) :
    s.Resident n c a where
  owner := h.tenured.bound (hheld.refers hc) hbadge
  leaving m hm c' hc' hleft := by
    obtain ⟨role', h'⟩ := h.move m hm
    have hfree := h.free_of_leaving h' (h.passage m hm) hc hc' (hheld.refers hc) hopen hleft hbadge
    exact ⟨hfree, fun factory => ⟨_, Network.bind_ok_of_free (h.tenured.assigned hbadge) hfree factory⟩⟩

theorem Orderly.departed (h : Orderly role stopped s) (hc : s.clients[n]? = some c)
    (hbadge : s.net.badge c.socket = some (a, true)) (hleft : c.connection.isOpen = false) :
    s.Departed n c a where
  unbound := h.tenured.owner?_ne_of_closed hbadge
  offered := h.tenured.offers hbadge
  silent k l hl ha := by
    have hrole : role l.socket = .client n := (h.loops hl).trans (congrArg Audience.role ha)
    obtain ⟨c', hc', hsocket⟩ := h.clientOf hrole
    rw [hc, Option.some.injEq] at hc'
    rw [← hsocket, ← hc']
    exact handsNothing_of_closed hbadge l.loop
  use turn now := (turn.run_of_not_opened (of_decide_eq_false hleft) (Network.socket c.socket) now s.net).2
  close := Network.close_of_closed hbadge
  drop := h.tenured.drop_of_closed hbadge

/-- In every run a client owns its address as long as it is open and somebody holds it. When it leaves, for
whatever cause, the address is free at once and can be bound again; nothing more is read for the client, and
what is done with it takes the address from nobody. No end of a connection closes the socket of a server,
which owns its address until the server is stopped. -/
theorem Reached.ownership (h : Reached stopped s) : s.Ownership stopped := by
  obtain ⟨role, ho⟩ := h.orderly
  refine ⟨fun n c hc => ?_, fun n host hh hn => ?_, fun n host hh k c hc turn now => ?_,
    fun id a hid hb => ho.tenured.bound hid hb⟩
  · obtain ⟨-, -, a, hbadge⟩ := ho.clients hc
    refine ⟨a, hbadge, fun b => Network.localAddress_eq hbadge, fun hopen hheld => ?_, fun hleft => ?_⟩
    · rw [hopen] at hbadge
      exact ho.resident hc hbadge hopen hheld
    · rw [hleft] at hbadge
      exact ho.departed hc hbadge hleft
  · obtain ⟨-, -, a, closed, hbadge, hclosed⟩ := ho.hosts hh
    cases closed with
    | true => exact absurd (hclosed rfl) hn
    | false =>
      refine ⟨a, hbadge, fun ⟨x, hx⟩ => ho.tenured.bound ⟨.host n, ?_⟩ hbadge⟩
      obtain ⟨⟨host', hh', hheld⟩, -⟩ := ho.hostNames hx
      rw [hh, Option.some.injEq] at hh'
      exact Option.map_eq_some_iff.mpr ⟨host, Option.filter_eq_some_iff.mpr ⟨hh, hh' ▸ hheld⟩, rfl⟩
  · obtain ⟨-, hserver, -⟩ := ho.hosts hh
    exact turn.run_same host.socket now c s.net (Server.bound_of_shares hserver.shares hc).owned

/-- A client is open with an address of its own and leaves. While it is still held, somebody else binds the
address, and keeps it when the client is let go. The server has its own address all the time. -/
theorem Reached.ownership_after_rebinding :
    let server : Address := { ip := Ip.v4Loopback, port := 7000 }
    let client : Address := { ip := Ip.v4Loopback, port := 49152 }
    let quiet : Application := ⟨.ofScript {}, false⟩
    let opening : List Move := [.command (.addFactory "net" {} false),
      .command (.startServer "server" "net" server quiet none {}),
      .command (.openConnection "client" "net" server (Span.milliseconds 5000) quiet {}), .sweep] ++
      List.replicate 16 .turn ++ [.look]
    let rebinding : List Move :=
      [.command (.bind "other" "net" client), .command (.dropConnection "client"), .sweep]
    let s₁ := Move.runAll opening {}
    let s₂ := Move.run s₁ (.command (.closeConnection "client"))
    let s₃ := Move.runAll rebinding s₂
    (∃ c, s₁.clients[0]? = some c ∧ s₁.Resident 0 c client) ∧
      (∃ c, s₂.clients[0]? = some c ∧ s₂.Departed 0 c client) ∧ s₂.net.Offers client ∧
      s₃.net.registry.owner? client = some 2 ∧ s₃.net.registry.owner? server = some 0 := by
  intro server client quiet opening rebinding s₁ s₂ s₃
  have h₁ : Reached _ s₁ := Reached.start.moves opening (by decide +kernel)
  have h₂ : Reached _ s₂ := h₁.move (.command (.closeConnection "client")) rfl
  have h₃ : Reached _ s₃ := h₂.moves rebinding (by decide +kernel)
  have hview₁ : s₁.clients[0]?.map (fun c => (c.socket, c.connection.isOpen)) = some (1, true) := by
    decide +kernel
  have hview₂ : s₂.clients[0]?.map (fun c => (c.socket, c.connection.isOpen)) = some (1, false) := by
    decide +kernel
  have hbadge₁ : s₁.net.badge 1 = some (client, false) := by decide +kernel
  have hbadge₂ : s₂.net.badge 1 = some (client, true) := by decide +kernel
  obtain ⟨c₁, hc₁, hview₁⟩ := Option.map_eq_some_iff.mp hview₁
  obtain ⟨c₂, hc₂, hview₂⟩ := Option.map_eq_some_iff.mp hview₂
  obtain ⟨hsocket₁, hopen⟩ := Prod.mk.inj hview₁
  obtain ⟨hsocket₂, hleft⟩ := Prod.mk.inj hview₂
  obtain ⟨a₁, ha₁, -, hresident, -⟩ := h₁.ownership.client 0 c₁ hc₁
  obtain ⟨a₂, ha₂, -, -, hdeparted⟩ := h₂.ownership.client 0 c₂ hc₂
  obtain rfl : client = a₁ := by
    rw [hsocket₁, hbadge₁] at ha₁
    exact congrArg Prod.fst (Option.some.inj ha₁)
  obtain rfl : client = a₂ := by
    rw [hsocket₂, hbadge₂] at ha₂
    exact congrArg Prod.fst (Option.some.inj ha₂)
  have hresident := hresident hopen (.inl ⟨"client", by decide +kernel⟩)
  obtain ⟨-, hoffers⟩ := hresident.leaving (.command (.closeConnection "client")) rfl c₂ hc₂ hleft
  refine ⟨⟨c₁, hc₁, hresident⟩, ⟨c₂, hc₂, hdeparted hleft⟩, hoffers, ?_, ?_⟩
  · exact h₃.ownership.others 2 client ⟨.name "other", by decide +kernel⟩ (by decide +kernel)
  · have hsocket : s₃.hosts[0]?.map Host.socket = some 0 := by decide +kernel
    obtain ⟨host, hh, hsocket⟩ := Option.map_eq_some_iff.mp hsocket
    obtain ⟨a, ha, howner⟩ := h₃.ownership.server 0 host hh (by decide +kernel)
    have hbadge : s₃.net.badge 0 = some (server, false) := by decide +kernel
    obtain rfl : server = a := by
      rw [hsocket, hbadge] at ha
      exact congrArg Prod.fst (Option.some.inj ha)
    exact hsocket ▸ howner ⟨"server", by decide +kernel⟩

end Simulation

end DatagramStreams
