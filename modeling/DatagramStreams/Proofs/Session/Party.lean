import DatagramStreams.Proofs.Session.Actions
import DatagramStreams.Proofs.Stream.Endpoint

/-! A connection over a socket that plays any script, with the datagrams that have left it. Its reliable
stream is an endpoint, whatever the application does between two packets.
Main statements: `Sound.act` and `Sound.deliver`, what a connection does of its own accord and what it
does with a packet of any content.
-/

set_option autoImplicit false

namespace DatagramStreams

structure Party where
  conn : Connection
  released : List Octets := []
  departures : List Departure := []

namespace Party

def endpoint (p : Party) : Endpoint where
  stream := p.conn.reliable
  link := p.conn.link
  taken := p.conn.journal.taken
  handed := p.conn.journal.reads
  released := p.released
  departures := p.departures

def emit (p : Party) (r : Recorder) : Party :=
  { p with departures := p.departures ++ r.passed.map p.endpoint.depart }

def establish (peer : Address) (inn out : Seq) (config : Settings) (handler : Handler) (ownsSocket : Bool) :
    Party where
  conn := .establish peer inn out config handler ownsSocket

inductive Act where
  | sendReliable (payload : Octets)
  | sendUnreliable (payload : Octets)
  | poll
  | close

def act (p : Party) (what : Act) (plan : List (Option IoKind)) (now : Instant) : Party :=
  let (conn, r) := match what with
    | .sendReliable payload => (p.conn.sendReliable Recorder.socket payload now (.playing plan)).2
    | .sendUnreliable payload => (p.conn.sendUnreliable Recorder.socket payload now (.playing plan)).2
    | .poll => (p.conn.poll Recorder.socket now (.playing plan)).2
    | .close => p.conn.close Recorder.socket now (.playing plan)
  { p with conn }.emit r

def deliver (p : Party) (source : Address) (q : Packet) (plan : List (Option IoKind)) (now : Instant) :
    Party :=
  let (_, conn, r) := p.conn.receive Recorder.socket source q now (.playing plan)
  { p with
    conn
    released := p.released ++ Packet.payloads (p.conn.window.departed conn.window) }.emit r

structure Sound (out inn : Seq) (p : Party) : Prop where
  endpoint : p.endpoint.Sound out inn
  aligned : p.conn.isOpen = true → p.endpoint.Aligned out

variable {out inn : Seq} {p p' : Party}

theorem Sound.sending (h : p.Sound out inn) : p.conn.Sending out p.released.length :=
  ⟨h.endpoint.carries, h.endpoint.offers, h.aligned⟩

theorem sound_establish (inn out : Seq) (peer : Address) (config : Settings) (handler : Handler)
    (ownsSocket : Bool) : (establish peer inn out config handler ownsSocket).Sound out inn :=
  ⟨Endpoint.sound_start config peer, fun _ => (Seq.after_zero out).symm⟩

theorem Sound.proceeds (h : p.Sound out inn) {r r' : Recorder} (hr : r.passed = [])
    {c : Connection} (hp : Connection.Proceeds out p.released.length p.conn r c r') :
    (emit { p with conn := c } r').Sound out inn ∧
      p.endpoint.Grows (emit { p with conn := c } r').endpoint := by
  obtain ⟨new, hpassed, he⟩ := hp.emits
  rw [hr, List.nil_append] at hpassed
  have hg : p.endpoint.Grows (emit { p with conn := c } r').endpoint :=
    ⟨hp.taken, hp.heard, rfl, Nat.le_of_add_le_add_left he.le⟩
  have ho : c.link.acks.Offers p.conn.reliable.inbound.sequence := hp.sequence ▸ hp.sending.offers
  have hd : (emit { p with conn := c } r').endpoint.departures =
      p.endpoint.departures ++ new.map (emit { p with conn := c } r').endpoint.depart := by
    rw [← hpassed]
    rfl
  exact ⟨⟨h.endpoint.grow hg hp.sending.carries hp.sequence ho hd he, hp.sending.aligned⟩, hg⟩

theorem Sound.act (h : p.Sound out inn) (what : Act) (plan : List (Option IoKind)) (now : Instant) :
    (p.act what plan now).Sound out inn ∧ p.endpoint.Grows (p.act what plan now).endpoint := by
  have hs := h.sending
  have hr := Recorder.passed_playing plan
  cases what with
  | sendReliable payload => exact h.proceeds hr (Connection.sendReliable_onward hs payload now _).proceeds
  | sendUnreliable payload =>
    exact h.proceeds hr (Connection.sendUnreliable_onward hs payload now _).proceeds
  | poll => exact h.proceeds hr (Connection.poll_proceeds hs now _)
  | close => exact h.proceeds hr (Connection.close_onward hs.carries hs.offers now _).proceeds

/-- A packet of any content from anybody either leaves the reliable stream to itself or is heard. -/
theorem Sound.deliver (h : p.Sound out inn) (source : Address) (q : Packet) (plan : List (Option IoKind))
    (now : Instant) : (p.deliver source q plan now).Sound out inn ∧
      (p.endpoint.Grows (p.deliver source q plan now).endpoint ∨
        ∃ n, p.conn.reliable.acknowledged q.ack now = .ok n ∧
          p.endpoint.Hears q n (p.deliver source q plan now).endpoint) := by
  rcases Connection.receive_cases h.sending source q now (.playing plan) with ⟨hp, hw⟩ | ⟨n, hl⟩
  · have hreleased : p.released ++ Packet.payloads (p.conn.window.departed
        (p.conn.receive Recorder.socket source q now (.playing plan)).2.1.window) = p.released := by
      rw [hw]
      simp [SendWindow.departed, Packet.payloads]
    simp only [Party.deliver, hreleased]
    obtain ⟨hs, hg⟩ := h.proceeds (Recorder.passed_playing plan) hp
    exact ⟨hs, .inl hg⟩
  · obtain ⟨new, hpassed, hm⟩ := hl.passed
    have hd : (p.deliver source q plan now).endpoint.departures =
        p.endpoint.departures ++ new.map (p.deliver source q plan now).endpoint.depart := by
      rw [Recorder.passed_playing, List.nil_append] at hpassed
      rw [← hpassed]
      rfl
    obtain ⟨hs, hh⟩ := h.endpoint.hears (p.deliver source q plan now).endpoint hl.inbound hl.carries
      hl.inFlight (congrArg Journal.taken hl.journal) (congrArg Journal.reads hl.journal) rfl hl.offers hd hm
    refine ⟨⟨hs, fun ho => ?_⟩, .inr ⟨n, hl.acknowledged, hh⟩⟩
    have hopen : p.conn.isOpen = true := by
      rw [Connection.isOpen, ← hl.state]
      exact ho
    have hal := h.aligned hopen
    rw [Endpoint.Aligned, hh.taken]
    exact hl.sequence.trans hal

end Party

end DatagramStreams
