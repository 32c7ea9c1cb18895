import DatagramStreams.Proofs.Session.Party

/-! One connection by itself, with a peer that may send anything and a socket that may fail in any way.
Main statement: nothing that a reliable send has taken is lost, and nothing leaves out of turn.
-/

set_option autoImplicit false

namespace DatagramStreams

namespace Party

/-- States of a party whose first sequences are `inn` and `out`. Packets of any content arrive from
anybody. -/
inductive Reached (inn out : Seq) : Party → Prop where
  | establish (peer : Address) (config : Settings) (handler : Handler) (ownsSocket : Bool) :
      Reached inn out (.establish peer inn out config handler ownsSocket)
  | act {p : Party} (h : Reached inn out p) (what : Act) (plan : List (Option IoKind)) (now : Instant) :
      Reached inn out (p.act what plan now)
  | deliver {p : Party} (h : Reached inn out p) (source : Address) (q : Packet) (plan : List (Option IoKind))
      (now : Instant) : Reached inn out (p.deliver source q plan now)

structure Conserved (out : Seq) (p : Party) : Prop where
  taken : p.conn.journal.taken = p.released ++
    (Packet.payloads p.conn.window.packets ++
      Packet.payloads p.conn.reliable.outbound.queue.toList)
  sequences : (p.conn.window.packets ++ p.conn.reliable.outbound.queue.toList).map Packet.sequence =
    (List.range (p.conn.window.inFlight + p.conn.reliable.outbound.queue.toList.length)).map
      p.conn.window.base.after
  next : p.conn.isOpen = true → p.conn.reliable.outbound.sequence =
    p.conn.window.base.after (p.conn.window.inFlight + p.conn.reliable.outbound.queue.toList.length)
  /-- Payloads leave for the first time in the order in which they were taken. -/
  order : (Departure.numbers p.departures).eraseDups =
    List.range (p.released.length + p.conn.window.inFlight)
  departed : ∀ d ∈ p.departures, d.packet.reliable = true →
    d.packet.payload = p.conn.journal.taken[d.number]? ∧ d.packet.sequence = out.after d.number
  used : p.conn.window.misused = false

theorem Reached.sound {inn out : Seq} {p : Party} (h : Reached inn out p) : p.Sound out inn := by
  induction h with
  | establish peer config handler ownsSocket => exact sound_establish inn out peer config handler ownsSocket
  | act _ what plan now ih => exact (ih.act what plan now).1
  | deliver _ source q plan now ih => exact (ih.deliver source q plan now).1

theorem Reached.conserved {inn out : Seq} {p : Party} (h : Reached inn out p) : p.Conserved out := by
  have hs := h.sound
  have hcarries : p.conn.reliable.outbound.Carries out p.released.length p.conn.journal.taken :=
    hs.endpoint.carries
  have hbase : p.conn.window.base = out.after p.released.length := hcarries.base
  have hcount : p.released.length + p.conn.window.inFlight +
      p.conn.reliable.outbound.queue.toList.length = p.conn.journal.taken.length := hcarries.count
  refine ⟨hs.endpoint.taken_eq, ?_, fun ho => ?_, hs.endpoint.order, fun d hd hr => ?_, hcarries.used⟩
  · have hpackets : p.conn.window.packets ++ p.conn.reliable.outbound.queue.toList = _ := hcarries.packets
    have hlength : (p.conn.journal.taken.drop p.released.length).length =
        p.conn.window.inFlight + p.conn.reliable.outbound.queue.toList.length := by
      rw [List.length_drop]
      omega
    rw [hpackets, Packet.sequence_numbered, hbase, hlength]
    exact List.map_congr_left fun i _ => (Seq.after_after out p.released.length i).symm
  · have hnext : p.conn.reliable.outbound.sequence = out.after p.conn.journal.taken.length := hs.aligned ho
    rw [hnext, hbase, Seq.after_after, ← Nat.add_assoc, hcount]
  · obtain ⟨-, x, hx, hp, hseq, -⟩ := (hs.endpoint.honest d hd).payload hr
    exact ⟨hp.trans hx.symm, hseq⟩

/-- A send that would block is made up for by a poll, and an ACK of what was never sent ends the
connection. -/
theorem Reached.conserved_after_violation :
    let p := (((Party.establish Recorder.address 7 65535 {} (.ofScript {}) true).act (.sendReliable [1])
      [some .wouldBlock] 0).act (.sendReliable [2]) [] 0).act .poll [] 0
    let p₁ := p.deliver Recorder.address (.ackOnly 9) [] 0
    p.conn.window.inFlight = 2 ∧ p.Conserved 65535 ∧ p₁.conn.isOpen = false ∧ p₁.Conserved 65535 := by
  have hstart : Reached 7 65535 _ := .establish Recorder.address {} (.ofScript {}) true
  have hqueued := hstart.act (.sendReliable [1]) [some .wouldBlock] 0
  have hpolled := (hqueued.act (.sendReliable [2]) [] 0).act .poll [] 0
  have hended := hpolled.deliver Recorder.address (.ackOnly 9) [] 0
  exact ⟨rfl, hpolled.conserved, rfl, hended.conserved⟩

end Party

end DatagramStreams
