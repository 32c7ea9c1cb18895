import DatagramStreams.Proofs.Network.Seat
import DatagramStreams.Transport.Udp

/-! What a socket owes to whoever closes it: its address, at once or as soon as a wait that had begun before is let
go. Main statements: `Network.lease`, a socket of the simulated network gives it back at once, and
`UdpSocket.lease`, one of the operating system when nobody waits for something to read any more.
-/

set_option autoImplicit false

namespace DatagramStreams

inductive Lease.Stage where
  | held
  /-- Held, and there is a wait for something to read. -/
  | awaited
  /-- Closed, but that wait has not been let go yet. -/
  | lingering
  | returned
  deriving DecidableEq

def Lease.Stage.isOpen : Lease.Stage → Bool
  | held | awaited => true
  | lingering | returned => false

/-- A socket with the address that it holds. -/
structure Lease (σ : Type) where
  socket : Socket σ
  /-- A wait for something to read begins, or is over. -/
  await : Bool → σ → σ
  others : σ → σ → Prop
  stands : Lease.Stage → σ → Prop
  free : σ → Prop
  send : ∀ {stage s} a p, stands stage s → stands stage (socket.send a p s).2
  receive : ∀ {stage s} n, stands stage s → stands stage (socket.receive n s).2
  meanwhile : ∀ {stage s s'}, others s s' → stands stage s → stands stage s'
  deaf : ∀ {stage s} n, stands stage s → stage.isOpen = false → ∃ e, (socket.receive n s).1 = .error e
  awaits : ∀ {stage s} waits, stands stage s → stage.isOpen = true →
    stands (if waits then .awaited else .held) (await waits s)
  letGo : ∀ {s}, stands .lingering s → stands .returned (await false s) ∧ free (await false s)
  rests : ∀ {s}, stands .returned s → stands .returned (await false s)
  close_held : ∀ {s}, stands .held s → stands .returned (socket.close s) ∧ free (socket.close s)
  close_awaited : ∀ {s}, stands .awaited s →
    stands .lingering (socket.close s) ∨ stands .returned (socket.close s) ∧ free (socket.close s)
  close_closed : ∀ {stage s}, stands stage s → stage.isOpen = false → stands stage (socket.close s)

namespace Network

variable {own : SocketId} {address : Address} {closed : Bool} {net : Network}

def Vacant (address : Address) (net : Network) : Prop :=
  ∀ factory, ∃ id, (net.bind factory address).1 = .ok id ∧
    (net.bind factory address).2.badge id = some (address, false)

theorem Seated.vacant (h : Seated own address false net) (ha : Registry.Assigned address) :
    Vacant address (net.close own) :=
  fun factory => ⟨_, bind_ok_of_free ha (h.close_own.2 rfl) factory⟩

theorem Seated.not_vacant (h : Seated own address false net) (ha : Registry.Assigned address) :
    ¬ Vacant address net := by
  intro hvacant
  obtain ⟨id, hid, -⟩ := hvacant 0
  have howner : net.registry.owner? { ip := Registry.hostFor address.ip, port := address.port } = some own := by
    rw [ha.host]
    exact h.owner.mpr rfl
  rw [bind_of_owner ha.port howner] at hid
  cases hid

theorem Seated.sent (h : Seated own address closed net) (a : Address) (p : Packet) :
    Seated own address closed ((socket own).send a p net).2 :=
  h.same (send_same net own a p.encode true)

/-- A socket of the network gives its address back when it is closed, whoever waits for it. -/
def lease (own : SocketId) (address : Address) : Lease Network where
  socket := socket own
  await _ net := net
  others net net' := ∃ x : Outside, x.Spares own ∧ net' = x.run net
  stands stage net := stage ≠ .lingering ∧ Seated own address (!stage.isOpen) net ∧ Registry.Assigned address
  free := Vacant address
  send a p h := ⟨h.1, h.2.1.sent a p, h.2.2⟩
  receive n h := ⟨h.1, h.2.1.same (receive_same _ own n), h.2.2⟩
  meanwhile := by
    rintro stage net _ ⟨x, hx, rfl⟩ h
    exact ⟨h.1, h.2.1.outside hx, h.2.2⟩
  deaf n h hclosed := receive_of_closed (by rw [h.2.1.badge, hclosed]; rfl) n
  awaits waits h hopen := by
    have hseat := h.2.1
    rw [hopen] at hseat
    cases waits <;> exact ⟨by decide, hseat, h.2.2⟩
  letGo h := absurd rfl h.1
  rests h := h
  close_held h := ⟨⟨by decide, h.2.1.close_own.1, h.2.2⟩, h.2.1.vacant h.2.2⟩
  close_awaited h := .inr ⟨⟨by decide, h.2.1.close_own.1, h.2.2⟩, h.2.1.vacant h.2.2⟩
  close_closed h hclosed := by
    refine ⟨h.1, ?_, h.2.2⟩
    rw [hclosed]
    exact h.2.1.close_own.1

end Network

/-- A descriptor of an operating system, bound to an address until it is closed. -/
structure Descriptor (ω : Type) where
  socket : Socket ω
  others : ω → ω → Prop
  bound : ω → Prop
  free : ω → Prop
  send : ∀ {w} a p, bound w → bound (socket.send a p w).2
  receive : ∀ {w} n, bound w → bound (socket.receive n w).2
  meanwhile : ∀ {w w'}, others w w' → bound w → bound w'
  frees : ∀ {w}, bound w → free (socket.close w)
  taken : ∀ {w}, bound w → ¬ free w

def Network.descriptor (own : SocketId) (address : Address) : Descriptor Network where
  socket := socket own
  others := (lease own address).others
  bound := (lease own address).stands .held
  free := Vacant address
  send := (lease own address).send
  receive := (lease own address).receive
  meanwhile := (lease own address).meanwhile
  frees h := ((lease own address).close_held h).2
  taken h := h.2.1.not_vacant h.2.2

namespace UdpSocket

variable {ω : Type}

def Stands (D : Descriptor ω) : Lease.Stage → UdpSocket ω → Prop
  | .held, u => u.held = true ∧ u.awaited = false ∧ D.bound u.system
  | .awaited, u => u.held = true ∧ u.awaited = true ∧ D.bound u.system
  | .lingering, u => u.held = false ∧ u.awaited = true ∧ D.bound u.system
  | .returned, u => u.held = false ∧ u.awaited = false

variable {D : Descriptor ω} {stage : Lease.Stage} {u : UdpSocket ω}

theorem Stands.held (h : Stands D stage u) : u.held = stage.isOpen := by
  cases stage <;> exact h.1

theorem Stands.system (h : Stands D stage u) {w : ω} (hw : D.bound u.system → D.bound w) :
    Stands D stage { u with system := w } := by
  cases stage with
  | held | awaited | lingering => exact ⟨h.1, h.2.1, hw h.2.2⟩
  | returned => exact h

theorem Stands.lingers (h : Stands D .awaited u) : Stands D .lingering ((socket D.socket).close u) := by
  obtain ⟨hheld, hawaited, hbound⟩ := h
  refine ⟨rfl, hawaited, ?_⟩
  simpa [socket, keep, hawaited] using hbound

/-- A socket of the operating system gives its address back when it is closed and no wait is pending. -/
def lease (D : Descriptor ω) : Lease (UdpSocket ω) where
  socket := socket D.socket
  await := await D.socket
  others u u' := ∃ w, D.others u.system w ∧ u' = { u with system := w }
  stands := Stands D
  free u := D.free u.system
  send a p h := by
    simp only [socket]
    split
    · exact h.system (D.send a p)
    · exact h
  receive n h := by
    simp only [socket]
    split
    · exact h.system (D.receive n)
    · exact h
  meanwhile := by
    rintro stage u _ ⟨w, hw, rfl⟩ h
    exact h.system (D.meanwhile hw)
  deaf n h hclosed := by
    simp only [socket, h.held, hclosed]
    exact ⟨_, rfl⟩
  awaits {stage u} waits h hopen := by
    have hheld : u.held = true := h.held.trans hopen
    have hbound : D.bound u.system := by cases stage <;> first | exact h.2.2 | cases hopen
    cases waits <;> simpa [Stands, await, keep, hheld] using hbound
  letGo h := by
    obtain ⟨hheld, hawaited, hbound⟩ := h
    refine ⟨⟨hheld, rfl⟩, ?_⟩
    simpa [await, keep, hheld, hawaited] using D.frees hbound
  rests h := ⟨h.1, rfl⟩
  close_held h := by
    obtain ⟨hheld, hawaited, hbound⟩ := h
    refine ⟨⟨rfl, hawaited⟩, ?_⟩
    simpa [socket, keep, hheld, hawaited] using D.frees hbound
  close_awaited h := .inl h.lingers
  close_closed {stage u} h hclosed := by
    have hheld : u.held = false := h.held.trans hclosed
    have hsame : (socket D.socket).close u = u := by
      cases hawaited : u.awaited <;> simp [socket, keep, hheld, hawaited] <;> cases u <;> simp_all
    rw [hsame]
    exact h

end UdpSocket

end DatagramStreams
