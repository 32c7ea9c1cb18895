import DatagramStreams.Proofs.Network.Lease
import DatagramStreams.Proofs.Server.Removal
import DatagramStreams.Transport.Reader

/-! A server at work, on a socket that is let to it, and the loop that reads the socket. A stop ends it for good,
whatever still arrives and whoever still holds its connections, and the address comes back with the stop or with
the next turn of the loop.
Main statement: `ListeningServer.lifecycle`.
-/

set_option autoImplicit false

namespace DatagramStreams

structure ListeningServer (σ : Type) where
  server : Server
  loop : Reader := {}
  state : σ
  draws : Draws := {}

namespace ListeningServer

variable {σ : Type}

def socket (K : Lease σ) : Socket (ListeningServer σ) :=
  K.socket.within ListeningServer.state fun h state => { h with state }

def receiver (K : Lease σ) (now : Instant) : Reader.Receiver (ListeningServer σ) where
  isThere _ := true
  take source p h :=
    let (server, draws, state) := h.server.receive K.socket source p now h.draws h.state
    (.ok (), { h with server, draws, state })

def occur (K : Lease σ) (now : Instant) (h : ListeningServer σ) (x : Server.Occasion) : ListeningServer σ :=
  let (server, state) := h.server.occur K.socket now h.state x
  { h with server, state }

def turn (K : Lease σ) (now : Instant) (h : ListeningServer σ) : Reader × ListeningServer σ :=
  h.loop.step (socket K) (receiver K now) h

inductive Event (σ : Type) where
  | read
  | poll (visits : List Server.Visit)
  | stop (visits : List Server.Visit)
  | setPendingLife (life : Span)
  | use (n : Nat) (what : Connection.Use)
  | outside (state : σ)

def next (K : Lease σ) (now : Instant) (h : ListeningServer σ) : Event σ → ListeningServer σ
  | .read =>
    let (loop, h) := h.turn K now
    { h with loop, state := K.await (loop.phase = .waiting) h.state }
  | .poll visits => h.occur K now (.poll visits)
  | .stop visits => { h with loop := h.loop.stop }.occur K now (.stop visits)
  | .setPendingLife life => h.occur K now (.event (.setPendingLife life))
  | .use n what => h.occur K now (.event (.use n what))
  | .outside state => { h with state }

def Possible (K : Lease σ) (h : ListeningServer σ) : Event σ → Prop
  | .poll visits => Server.Occasion.Thorough h.server (.poll visits)
  | .stop visits => Server.Occasion.Thorough h.server (.stop visits)
  | .outside state => K.others h.state state
  | _ => True

/-- From `h₀` anything that can happen leads to these states. -/
inductive Reached (K : Lease σ) (h₀ : ListeningServer σ) : ListeningServer σ → Prop
  | refl : Reached K h₀ h₀
  | next {h : ListeningServer σ} (hr : Reached K h₀ h) {e : Event σ} (he : h.Possible K e) (now : Instant) :
      Reached K h₀ (h.next K now e)

def start (config : Settings) (handlers : HandlerFactory) (admits : Address → Bool) (state : σ) (draws : Draws) :
    ListeningServer σ where
  server := .new config handlers admits
  state := state
  draws := draws

def stage (h : ListeningServer σ) : Lease.Stage := if h.loop.phase = .waiting then .awaited else .held

variable {K : Lease σ} {h h' : ListeningServer σ} {now : Instant} {visits : List Server.Visit}

theorem isOpen_stage (h : ListeningServer σ) : h.stage.isOpen = true := by
  unfold stage
  split <;> rfl

theorem turn_cases (K : Lease σ) (now : Instant) (h : ListeningServer σ) :
    ((h.turn K now).2.server = h.server ∧ ((h.turn K now).2.state = h.state ∨
        (h.turn K now).2.state = (K.socket.receive Socket.bufferLength h.state).2)) ∨
      ∃ source octets s, K.socket.receive Socket.bufferLength h.state = (.ok (source, octets), s) ∧
        ((h.turn K now).2.server, (h.turn K now).2.state) =
          h.server.occur K.socket now s (.event (.datagram source octets h.draws)) := by
  unfold turn Reader.step
  split
  · exact .inl ⟨rfl, .inl rfl⟩
  · exact .inl ⟨rfl, .inl rfl⟩
  · rcases hr : K.socket.receive Socket.bufferLength h.state with ⟨e | ⟨source, octets⟩, s⟩
    · simp only [Reader.drain, socket, Socket.within, hr]
      refine .inl ?_
      split
      · exact ⟨rfl, .inr rfl⟩
      · split <;> exact ⟨rfl, .inr rfl⟩
    · simp only [Reader.drain, socket, Socket.within, hr, receiver, if_true]
      refine .inr ⟨source, octets, s, rfl, ?_⟩
      cases hdecode : Packet.decode? octets with
      | none => rw [Server.occur, Server.react_malformed hdecode]
      | some p => rw [Server.occur, Server.react_datagram hdecode]
  · exact .inl ⟨rfl, .inl rfl⟩

theorem turn_loop (K : Lease σ) (now : Instant) (h : ListeningServer σ) :
    (h.turn K now).1.stopped = h.loop.stopped ∧
      (h.loop.stopped = true → (h.turn K now).1.phase ≠ .waiting) := by
  have hawait (readiness : Readiness) : (h.loop.await readiness).stopped = h.loop.stopped ∧
      (h.loop.stopped = true → (h.loop.await readiness).phase ≠ .waiting) := by
    unfold Reader.await
    split
    · exact ⟨rfl, fun _ => nofun⟩
    · split <;> exact ⟨rfl, fun hstopped => absurd hstopped ‹_›⟩
  unfold turn Reader.step
  split <;> rename_i hp
  · exact hawait _
  · exact hawait _
  · unfold Reader.drain
    split
    · split
      · split <;> exact ⟨rfl, fun _ => by simp [hp]⟩
      · exact ⟨rfl, fun _ => nofun⟩
    · split
      · exact ⟨rfl, fun _ => nofun⟩
      · split
        · exact ⟨rfl, fun _ => by simp [hp]⟩
        · exact ⟨rfl, fun _ => nofun⟩
  · exact ⟨rfl, fun _ => by simp [hp]⟩

/-- Once a loop has been stopped, its turn lets go of what it has waited for. -/
theorem state_read (hloop : h.loop.stopped = true) (now : Instant) :
    (h.next K now .read).state = K.await false (h.turn K now).2.state := by
  have hphase := (turn_loop K now h).2 hloop
  simp only [next, hphase, decide_false]

/-- The server has come so far by what happened to it, and this is how its socket stands. -/
structure Sound (K : Lease σ) (st : Lease.Stage) (h : ListeningServer σ) : Prop where
  run : Server.Reached K.socket h.server
  lease : K.stands st h.state

variable {st : Lease.Stage}

theorem Sound.occur (hs : h.Sound K st) {x : Server.Occasion} (hx : x.Thorough h.server)
    (hstop : ∀ visits, x ≠ .stop visits) (now : Instant) : (h.occur K now x).Sound K st where
  run := hs.run.occur hx now h.state
  lease := hs.run.sound.occur_keeps (I := K.stands st) (fun a p _ hl => K.send a p hl) hx hstop now hs.lease

theorem Sound.turn (hs : h.Sound K st) (now : Instant) : (h.turn K now).2.Sound K st ∧
    (st.isOpen = false → (h.turn K now).2.server = h.server) := by
  rcases turn_cases K now h with ⟨hserver, hstate⟩ | ⟨source, octets, s, hr, hoccur⟩
  · refine ⟨⟨hserver ▸ hs.run, ?_⟩, fun _ => hserver⟩
    rcases hstate with hstate | hstate <;> rw [hstate]
    · exact hs.lease
    · exact K.receive _ hs.lease
  · have hlease : K.stands st s := by
      have hl := K.receive Socket.bufferLength hs.lease
      rwa [hr] at hl
    have hread : Sound K st { h with state := s } := ⟨hs.run, hlease⟩
    have hthere : Server.Occasion.Thorough h.server (.event (.datagram source octets h.draws)) := trivial
    obtain ⟨hrun, hl⟩ := hread.occur hthere nofun now
    obtain ⟨hserver, hstate⟩ := Prod.mk.inj hoccur
    refine ⟨⟨hserver ▸ hrun, hstate ▸ hl⟩, fun hclosed => ?_⟩
    obtain ⟨e, he⟩ := K.deaf Socket.bufferLength hs.lease hclosed
    rw [hr] at he
    cases he

theorem Sound.stop (hs : h.Sound K st) (visits : List Server.Visit) (now : Instant) :
    ∃ s, K.stands st s ∧ (h.next K now (.stop visits)).state = K.socket.close s :=
  hs.run.sound.stop_keeps (I := K.stands st) (fun a p _ hl => K.send a p hl) visits now hs.lease

structure Running (K : Lease σ) (h : ListeningServer σ) : Prop where
  sound : h.Sound K h.stage
  loop : h.loop.stopped = false

theorem Running.next (hs : h.Running K) {e : Event σ} (he : h.Possible K e) (hstop : ∀ visits, e ≠ .stop visits)
    (now : Instant) : (h.next K now e).Running K := by
  cases e with
  | read =>
    obtain ⟨⟨hrun, hlease⟩, -⟩ := hs.sound.turn now
    have hawaits := K.awaits ((h.turn K now).1.phase = .waiting) hlease h.isOpen_stage
    simp only [decide_eq_true_eq] at hawaits
    exact ⟨⟨hrun, hawaits⟩, (turn_loop K now h).1.trans hs.loop⟩
  | poll visits => exact ⟨hs.sound.occur (x := .poll visits) he nofun now, hs.loop⟩
  | stop visits => exact absurd rfl (hstop visits)
  | setPendingLife life => exact ⟨hs.sound.occur (x := .event (.setPendingLife life)) trivial nofun now, hs.loop⟩
  | use n what => exact ⟨hs.sound.occur (x := .event (.use n what)) trivial nofun now, hs.loop⟩
  | outside state => exact ⟨⟨hs.sound.run, K.meanwhile he hs.sound.lease⟩, hs.loop⟩

/-- The server has been stopped, and its socket has let the address go, or will when the loop has a turn. -/
structure Stopped (K : Lease σ) (st : Lease.Stage) (h : ListeningServer σ) : Prop where
  sound : h.Sound K st
  closed : st.isOpen = false
  lingers : st = .lingering → h.loop.phase = .waiting
  loop : h.loop.stopped = true
  retired : h.server.Retired

theorem Sound.stopped_of (hs : h.Sound K st) (hv : Server.Occasion.Thorough h.server (.stop visits)) (now : Instant)
    {st' : Lease.Stage} (hlease : K.stands st' (h.next K now (.stop visits)).state) (hclosed : st'.isOpen = false)
    (hlingers : st' = .lingering → h.loop.phase = .waiting) : (h.next K now (.stop visits)).Stopped K st' := by
  obtain ⟨hclients, hfinished⟩ := hs.run.finished_stop hv now h.state
  exact ⟨⟨hs.run.occur hv now h.state, hlease⟩, hclosed, hlingers, rfl, hclients, fun c hc => (hfinished c hc).state⟩

theorem Running.stopped (hs : h.Running K) (hv : Server.Occasion.Thorough h.server (.stop visits)) (now : Instant) :
    (h.next K now (.stop visits)).Stopped K .returned ∧ K.free (h.next K now (.stop visits)).state ∨
      (h.next K now (.stop visits)).Stopped K .lingering ∧ h.loop.phase = .waiting := by
  obtain ⟨s, hlease, hstate⟩ := hs.sound.stop visits now
  unfold stage at hlease
  split at hlease
  · rename_i hwaits
    rcases K.close_awaited hlease with hlingers | ⟨hreturned, hfree⟩
    · exact .inr ⟨hs.sound.stopped_of hv now (hstate ▸ hlingers) rfl fun _ => hwaits, hwaits⟩
    · exact .inl ⟨hs.sound.stopped_of hv now (hstate ▸ hreturned) rfl nofun, hstate ▸ hfree⟩
  · obtain ⟨hreturned, hfree⟩ := K.close_held hlease
    exact .inl ⟨hs.sound.stopped_of hv now (hstate ▸ hreturned) rfl nofun, hstate ▸ hfree⟩

theorem Stopped.occur (hs : h.Stopped K st) {x : Server.Occasion} (hx : x.Thorough h.server)
    (hquiet : ∀ source octets draws, x ≠ .event (.datagram source octets draws)) (hstop : ∀ visits, x ≠ .stop visits)
    (now : Instant) : (h.occur K now x).Stopped K st ∧ (h.occur K now x).server.calls = h.server.calls := by
  obtain ⟨hretired, hcalls⟩ := hs.retired.occur K.socket hx hquiet now h.state
  exact ⟨⟨hs.sound.occur hx hstop now, hs.closed, hs.lingers, hs.loop, hretired⟩, hcalls⟩

theorem Stopped.read (hs : h.Stopped K st) (now : Instant) :
    (h.next K now .read).Stopped K .returned ∧ (h.next K now .read).server = h.server := by
  obtain ⟨⟨hrun, hlease⟩, hdeaf⟩ := hs.sound.turn now
  have hsame := hdeaf hs.closed
  have hreturned : K.stands .returned (h.next K now .read).state := by
    rw [state_read hs.loop]
    cases st with
    | held | awaited => exact absurd hs.closed (by decide)
    | lingering => exact (K.letGo hlease).1
    | returned => exact K.rests hlease
  exact ⟨⟨⟨hrun, hreturned⟩, rfl, nofun, (turn_loop K now h).1.trans hs.loop, hsame ▸ hs.retired⟩, hsame⟩

theorem Stopped.next (hs : h.Stopped K st) {e : Event σ} (he : h.Possible K e) (now : Instant) :
    (∃ st', (h.next K now e).Stopped K st') ∧ (h.next K now e).server.calls = h.server.calls := by
  cases e with
  | read =>
    obtain ⟨hstopped, hsame⟩ := hs.read now
    exact ⟨⟨_, hstopped⟩, by rw [hsame]⟩
  | stop visits =>
    obtain ⟨s, hlease, hstate⟩ := hs.sound.stop visits now
    have hclosed := K.close_closed hlease hs.closed
    obtain ⟨-, hcalls⟩ := hs.retired.occur K.socket (x := .stop visits) he nofun now h.state
    exact ⟨⟨_, hs.sound.stopped_of he now (hstate ▸ hclosed) hs.closed hs.lingers⟩, hcalls⟩
  | poll visits =>
    obtain ⟨hstopped, hcalls⟩ := hs.occur (x := .poll visits) he nofun nofun now
    exact ⟨⟨_, hstopped⟩, hcalls⟩
  | setPendingLife life =>
    obtain ⟨hstopped, hcalls⟩ := hs.occur (x := .event (.setPendingLife life)) trivial nofun nofun now
    exact ⟨⟨_, hstopped⟩, hcalls⟩
  | use n what =>
    obtain ⟨hstopped, hcalls⟩ := hs.occur (x := .event (.use n what)) trivial nofun nofun now
    exact ⟨⟨_, hstopped⟩, hcalls⟩
  | outside state =>
    exact ⟨⟨_, ⟨hs.sound.run, K.meanwhile he hs.sound.lease⟩, hs.closed, hs.lingers, hs.loop, hs.retired⟩, rfl⟩

theorem Stopped.stays (hs : h.Stopped K st) (hr : Reached K h h') :
    (∃ st', h'.Stopped K st') ∧ h'.server.calls = h.server.calls := by
  induction hr with
  | refl => exact ⟨⟨_, hs⟩, rfl⟩
  | next _ he now ih =>
    obtain ⟨⟨st', hstopped⟩, hcalls⟩ := ih
    obtain ⟨hnext, hsame⟩ := hstopped.next he now
    exact ⟨hnext, hsame.trans hcalls⟩

theorem Reached.running (hr : Reached K h h') (hs : h.Running K) : h'.Running K ∨ ∃ st, h'.Stopped K st := by
  induction hr with
  | refl => exact .inl hs
  | @next g hg e he now ih =>
    rcases ih with hrunning | ⟨st, hstopped⟩
    · by_cases hstop : ∃ visits, e = .stop visits
      · obtain ⟨visits, rfl⟩ := hstop
        exact .inr ((hrunning.stopped he now).elim (fun h => ⟨_, h.1⟩) fun h => ⟨_, h.1⟩)
      · exact .inl (hrunning.next he (fun visits h => hstop ⟨visits, h⟩) now)
    · exact .inr (hstopped.next he now).1

theorem Stopped.silent (hs : h.Stopped K st) (hr : Reached K h h') : h'.server.calls = h.server.calls ∧
    h'.server.connectionCount = 0 ∧ (K.stands .lingering h'.state ∨ K.stands .returned h'.state) := by
  obtain ⟨⟨st', hstopped⟩, hcalls⟩ := hs.stays hr
  refine ⟨hcalls, by rw [Server.connectionCount, hstopped.retired.clients]; rfl, ?_⟩
  have hlease := hstopped.sound.lease
  have hclosed := hstopped.closed
  cases st' with
  | held | awaited => cases hclosed
  | lingering => exact .inl hlease
  | returned => exact .inr hlease

end ListeningServer

end DatagramStreams
