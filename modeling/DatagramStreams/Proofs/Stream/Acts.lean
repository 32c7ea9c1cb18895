import DatagramStreams.Proofs.Stream.Keeping
import DatagramStreams.Transport.Recorder

/-! What an application and its peer can do to a reliable stream, over a socket that behaves in any way.
Main statement: `ReliableStream.send_trace`, all that a send leaves behind. A payload that is refused leaves
nothing, one that is lost to a failing socket leaves a gap in the sequences.
-/

set_option autoImplicit false

namespace DatagramStreams

variable {σ : Type} {sock : Socket σ} {now : Instant} {l : Link}

namespace Link

theorem ack_giveBack (l : Link) (p : Packet) (now : Instant) :
    ((l.attach p).2.giveBack (l.attach p).1 now).acks.ack = l.acks.ack := by
  unfold attach
  split
  · rfl
  · cases ha : l.acks.ack <;> simp [AckHolder.take, ha, giveBack, AckHolder.ack_restore]

theorem send_outcome (sock : Socket σ) (l : Link) (p : Packet) (now : Instant) (s : σ) :
    ∃ result l' s', l.send sock p now s = (result, l', s') ∧
      match result with
      | .ok true => l' = (l.attach p).2
      | .ok false => l'.acks.ack = l.acks.ack
      | .error e => e.kind ≠ .wouldBlock ∧ l'.acks.ack = l.acks.ack := by
  unfold send
  rcases hs : sock.send l.peer (loaded p (l.attach p).1) s with ⟨e | u, s'⟩
  · have hack := l.ack_giveBack p now
    by_cases hk : e.kind = .wouldBlock
    · exact ⟨.ok false, _, s', by simp only [hs, hk, if_true], hack⟩
    · exact ⟨.error e, _, s', by simp only [hs, hk, if_false], hk, hack⟩
  · exact ⟨.ok true, _, s', by simp only [hs], rfl⟩

end Link

namespace Outbound

/-- A payload that is taken goes behind all others that are still kept, in the window if it has left and in the
queue if it has not. -/
theorem submit_trace (sock : Socket σ) (o : Outbound) (l : Link) (p : Packet) (now : Instant) (s : σ) :
    ∃ result o' l' s', o.submit sock l p now s = (result, o', l', s') ∧
      match result with
      | .ok () => o'.sequence = o.sequence ∧
          o'.window.packets ++ o'.queue.toList = o.window.packets ++ o.queue.toList ++ [p]
      | .error e => o' = o ∧ l'.acks.ack = l.acks.ack ∧ ∃ e', e = .io e' ∧ e'.kind ≠ .wouldBlock := by
  unfold submit
  split
  · exact ⟨_, _, l, s, rfl, rfl, by simp [enqueue]⟩
  · rename_i hroom
    have hempty : o.queue.toList = [] := by
      rw [← Queue.isEmpty_iff]
      simp_all
    obtain ⟨result, l', s', hs, hl⟩ := l.send_outcome sock p now s
    simp only [hs]
    rcases result with e | _ | _
    · exact ⟨_, _, l', s', rfl, rfl, hl.2, e, rfl, hl.1⟩
    · exact ⟨_, _, l', s', rfl, rfl, by simp [enqueue]⟩
    · exact ⟨_, _, l', s', rfl, rfl, by simp [register, hempty]⟩

end Outbound

namespace ReliableStream

/-- A send that succeeds puts its payload behind all that are kept, under the sequence that was next. One that
fails takes nothing with it, neither a packet nor the ACK that waits; but only a payload that is refused gives
its sequence back. -/
theorem send_trace (sock : Socket σ) (r : ReliableStream) (l : Link) (payload : Octets) (now : Instant) (s : σ) :
    ∃ result r' l' s', r.send sock l payload now s = (result, r', l', s') ∧
      match result with
      | .ok () => Packet.payloadError? payload = none ∧ r'.outbound.sequence = Seq.next r.outbound.sequence ∧
          r'.outbound.window.packets ++ r'.outbound.queue.toList =
            r.outbound.window.packets ++ r.outbound.queue.toList ++
              [Packet.carrying true r.outbound.sequence payload]
      | .error (.packet e) => Packet.payloadError? payload = some e ∧ r' = r ∧ l' = l ∧ s' = s
      | .error (.io e) => e.kind ≠ .wouldBlock ∧ l'.acks.ack = l.acks.ack ∧
          r' = { r with outbound := { r.outbound with sequence := Seq.next r.outbound.sequence } }
      | .error _ => False := by
  have hdata := Packet.data_eq true r.outbound.sequence payload
  unfold send Outbound.send
  cases hx : Packet.payloadError? payload with
  | some e =>
    rw [hx] at hdata
    rw [hdata]
    exact ⟨.error (.packet e), r, l, s, rfl, rfl, rfl, rfl, rfl⟩
  | none =>
    rw [hx] at hdata
    rw [hdata]
    obtain ⟨result, o, l', s', hs, ho⟩ :=
      Outbound.submit_trace sock { r.outbound with sequence := Seq.next r.outbound.sequence } l
        (.carrying true r.outbound.sequence payload) now s
    simp only [hs]
    cases result with
    | ok u => exact ⟨.ok (), _, l', s', rfl, trivial, ho⟩
    | error e =>
      obtain ⟨rfl, hack, e', rfl, hk⟩ := ho
      exact ⟨.error (.io e'), _, l', s', rfl, hk, hack, rfl⟩

/-- The socket fails, and the sequence of the payload that is lost is not used again. -/
theorem failed_send_costs_sequence : ¬ ∀ (r : ReliableStream) (l : Link) (payload : Octets) (now : Instant)
    (s : Recorder) (e : ConnectionError), (r.send Recorder.socket l payload now s).1 = .error e →
      (r.send Recorder.socket l payload now s).2.1.outbound.sequence = r.outbound.sequence := by
  intro hall
  have h := hall (.new 0 7 {}) { peer := Recorder.address, acks := { delay := 0 } } [1] 0
    { plan := [some .connectionReset] } (.io (.injected .connectionReset)) rfl
  exact absurd h (by decide +kernel)

inductive Act where
  | send (payload : Octets)
  | receive (p : Packet)
  | poll
  | handOver
  | setSendTimeout (limit : Span)

def act (sock : Socket σ) (r : ReliableStream) (what : Act) (now : Instant) (l : Link) (s : σ) :
    ReliableStream :=
  match what with
  | .send payload => (r.send sock l payload now s).2.1
  | .receive p => (r.receive sock l p now s).2.1
  | .poll => (r.poll sock l now s).2.1
  | .handOver => r.takeDelivered.2
  | .setSendTimeout limit => r.setSendTimeout limit

theorem outbound_receive (sock : Socket σ) (r : ReliableStream) (l : Link) (p : Packet) (now : Instant) (s : σ) :
    (r.receive sock l p now s).2.1.outbound = (r.receiveAck p.ack now).2.outbound := by
  have hpayload (r : ReliableStream) (sequence : Seq) (payload : Octets) :
      (r.receivePayload sock l sequence payload now s).1.outbound = r.outbound := by
    unfold receivePayload
    split <;> rfl
  unfold receive
  rcases r.receiveAck p.ack now with ⟨e | u, r'⟩
  · rfl
  · simp only
    split
    · exact hpayload r' _ _
    · rfl

/-- A poll reports a dead peer before anything else, and nothing that it does later has this outcome. -/
theorem poll_eq_dead_iff (sock : Socket σ) (r : ReliableStream) (l : Link) (now : Instant) (s : σ) :
    (r.poll sock l now s).1 = .ok .dead ↔ r.outbound.isDead now = true := by
  unfold poll
  split
  · rename_i hdead
    simp [hdead]
  · rename_i hlive
    rcases r.outbound.drive sock l now s with ⟨e | u, o, l', s'⟩
    · simp [hlive]
    · simp [hlive]

/-- Every act has its instant, and finds the link and the socket in any state: others use them as well. -/
inductive Reached (sock : Socket σ) : ReliableStream → Prop
  | new (sequenceIn sequenceOut : Seq) (config : Settings) : Reached sock (.new sequenceIn sequenceOut config)
  | act {r : ReliableStream} (h : Reached sock r) (what : Act) (now : Instant) (l : Link) (s : σ) :
      Reached sock (r.act sock what now l s)

theorem Reached.unacked {r : ReliableStream} (h : Reached sock r) : r.outbound.Each (·.ack = none) := by
  have hany (now : Instant) : Link.KeepsEach (·.ack = none) sock now True fun _ _ => True :=
    fun p l s _ _ => ⟨_, _, _, rfl, .inr trivial, trivial⟩
  have hacks (now : Instant) : KeepsAck sock now fun _ _ _ => True :=
    ⟨fun _ _ _ _ => trivial, fun _ _ _ _ => trivial, fun _ _ _ _ => trivial⟩
  induction h with
  | new sequenceIn sequenceOut config =>
    intro p hp
    simp [ReliableStream.new, Outbound.new, SendWindow.packets, SendWindow.setFastRetransmit,
      SendWindow.new] at hp
  | act _ what now l s ih =>
    cases what with
    | send payload =>
      obtain ⟨_, o, _, _, hs, ho, -⟩ :=
        Outbound.send_keeps (l := l) (s := s) (hany now) (fun _ _ => rfl) ih trivial payload
      simpa only [ReliableStream.act, ReliableStream.send, hs] using ho
    | receive p =>
      obtain ⟨_, _, hs, ho⟩ := receiveAck_each ih p.ack now
      rw [ReliableStream.act, outbound_receive, hs]
      exact ho
    | poll =>
      obtain ⟨_, o, _, _, hs, ho, -⟩ :=
        poll_keeps (a := 0) (l := l) (s := s) (hany now) (hacks now) ih trivial
      simpa only [ReliableStream.act, hs] using ho
    | handOver => exact ih
    | setSendTimeout limit => exact ih

end ReliableStream

end DatagramStreams
