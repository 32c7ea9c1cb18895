import DatagramStreams.Proofs.Stream.Pair

/-! All that can happen to two endpoints of a reliable stream whose sockets take packets or would block.
Main statement: an ACK never removes a packet that the peer has not accepted, and no ACK of an honest
peer is a violation.
-/

set_option autoImplicit false

namespace DatagramStreams

def Mild (plan : List (Option IoKind)) : Prop := ∀ k, some k ∈ plan → k = .wouldBlock

/-- Joint states of two endpoints with mirrored sequences. The network may deliver whatever has left the
peer, in any order, more than once or never, as long as it is not too old. `tick` says how the clock of
an endpoint may move between two actions. -/
inductive Reached (tick : Instant → Instant → Prop) : Endpoint → Endpoint → Prop where
  | start (inn out : Seq) (config config' : Settings) (peer peer' : Address) :
      Reached tick (.start inn out config peer) (.start out inn config' peer')
  | swap {a b : Endpoint} (h : Reached tick a b) : Reached tick b a
  | send {a b : Endpoint} (h : Reached tick a b) (payload : Octets) {plan : List (Option IoKind)}
      {now : Instant} (hp : Mild plan) (ht : tick a.clock now) : Reached tick (a.send payload plan now).2 b
  | poll {a b : Endpoint} (h : Reached tick a b) {plan : List (Option IoKind)} {now : Instant}
      (hp : Mild plan) (ht : tick a.clock now) : Reached tick (a.poll plan now).2 b
  | carry {a b : Endpoint} (h : Reached tick a b) {p : Packet} (hr : p.reliable = false) (hf : p.Fits)
      (ha : p.ack = none) {plan : List (Option IoKind)} {now : Instant} (hp : Mild plan)
      (ht : tick a.clock now) : Reached tick (a.carry p plan now) b
  | handOver {a b : Endpoint} (h : Reached tick a b) : Reached tick a.handOver b
  | hear {a b : Endpoint} (h : Reached tick a b) {d : Departure} (hd : d ∈ b.departures) (hf : a.Fresh d)
      {plan : List (Option IoKind)} {now : Instant} (hp : Mild plan) (ht : tick a.clock now) :
      Reached tick (a.hear d plan now).2 b

theorem Paired.hear_eq {out inn : Seq} {a b : Endpoint} (h : Paired out inn a b) {d : Departure}
    (hd : d ∈ b.departures) (plan : List (Option IoKind)) (now : Instant) :
    a.hear d plan now = a.receive d.packet plan now := by
  simp only [Endpoint.hear, Packet.decode_encode_of_fits (h.right.honest d hd).fits]

theorem Paired.hear {out inn : Seq} {a b : Endpoint} (h : Paired out inn a b) (ha : a.Aligned out)
    {d : Departure} (hd : d ∈ b.departures) (hf : a.Fresh d) (plan : List (Option IoKind))
    (now : Instant) : (a.hear d plan now).1 = .ok () ∧ Paired out inn (a.hear d plan now).2 b ∧
      (a.hear d plan now).2.Aligned out := by
  rw [h.hear_eq hd]
  obtain ⟨n, -, hok, hh, hseq, hpaired⟩ := h.receive hd hf plan now
  exact ⟨hok, hpaired, by rw [Endpoint.Aligned, hseq, hh.taken]; exact ha⟩

theorem Reached.paired {tick : Instant → Instant → Prop} {a b : Endpoint} (h : Reached tick a b) :
    ∃ out inn, Paired out inn a b ∧ a.Aligned out ∧ b.Aligned inn := by
  induction h with
  | start inn out config config' peer peer' =>
    exact ⟨out, inn, .start inn out config config' peer peer', (Seq.after_zero out).symm,
      (Seq.after_zero inn).symm⟩
  | swap _ ih =>
    obtain ⟨out, inn, hp, ha, hb⟩ := ih
    exact ⟨inn, out, hp.symm, hb, ha⟩
  | @send a b _ payload plan now hmild _ ih =>
    obtain ⟨out, inn, hp, ha, hb⟩ := ih
    obtain ⟨hs, hg, -, hal | ⟨k, -, hne, hm⟩⟩ := Endpoint.send_sound hp.left ha payload plan now
    · exact ⟨out, inn, hp.grow hs hg, hal, hb⟩
    -- A mild plan has no failure that would use a sequence up.
    · exact absurd (hmild k hm) hne
  | @poll a b _ plan now _ _ ih =>
    obtain ⟨out, inn, hp, ha, hb⟩ := ih
    obtain ⟨hs, hg, -, hseq⟩ := Endpoint.poll_sound hp.left plan now
    have ht : (a.poll plan now).2.taken = a.taken := rfl
    exact ⟨out, inn, hp.grow hs hg, by rw [Endpoint.Aligned, hseq, ht]; exact ha, hb⟩
  | @carry a b _ p hr hf hn plan now _ _ ih =>
    obtain ⟨out, inn, hp, ha, hb⟩ := ih
    obtain ⟨hs, hg, -⟩ := Endpoint.carry_sound hp.left
      ⟨hr, hf, fun x hx => by simp [hn] at hx⟩ plan now
    exact ⟨out, inn, hp.grow hs hg, ha, hb⟩
  | handOver _ ih =>
    obtain ⟨out, inn, hp, ha, hb⟩ := ih
    obtain ⟨hs, hg⟩ := Endpoint.handOver_sound hp.left
    exact ⟨out, inn, hp.grow hs hg, ha, hb⟩
  | @hear a b _ d hd hf plan now _ _ ih =>
    obtain ⟨out, inn, hp, ha, hb⟩ := ih
    obtain ⟨-, hpaired, hal⟩ := hp.hear ha hd hf plan now
    exact ⟨out, inn, hpaired, hal, hb⟩

/-- What ACKs have removed from the window of one endpoint is a prefix of what the other has accepted,
the rest of what was taken is in flight or queued, and every packet of the other that is not too old is
heard without a violation. -/
theorem released_prefix_heard {tick : Instant → Instant → Prop} {a b : Endpoint} (h : Reached tick a b) :
    a.released <+: b.heard ∧
      a.taken = a.released ++ (Packet.payloads a.window.packets ++
        Packet.payloads a.stream.outbound.queue.toList) ∧
      ∀ d ∈ b.departures, a.Fresh d → ∀ (plan : List (Option IoKind)) (now : Instant),
        (a.hear d plan now).1 = .ok () := by
  obtain ⟨out, inn, hp, ha, -⟩ := h.paired
  refine ⟨?_, hp.left.taken_eq, fun d hd hf plan now => (hp.hear ha hd hf plan now).1⟩
  exact List.prefix_of_prefix_length_le hp.left.released hp.outward.heard hp.outward.released_le

/-- Two payloads whose sequences wrap, and one ACK for both. -/
theorem released_prefix_heard_wrapped :
    let a := (((Endpoint.start 7 65535 {} Recorder.address).send [1] [] 0).2.send [2] [] 0).2
    let b₁ := ((Endpoint.start 65535 7 {} Recorder.address).hear
      (a.depart (.carrying true 65535 [1])) [] 0).2
    let b₂ := (b₁.hear (a.depart (.carrying true 0 [2])) [] 0).2
    let b₃ := (b₂.poll [] Span.second).2
    let a₁ := (a.hear (b₃.depart (.ackOnly 1)) [] 0).2
    a₁.released = [[1], [2]] ∧ a₁.released <+: b₃.heard ∧
      (a₁.hear (b₃.depart (.ackOnly 1)) [] 0).1 = .ok () := by
  have hmild : Mild [] := by simp [Mild]
  have hstart : Reached (· ≤ ·) (.start 7 65535 {} Recorder.address) (.start 65535 7 {} Recorder.address) :=
    .start 7 65535 {} {} Recorder.address Recorder.address
  have hsent := (hstart.send [1] hmild (Nat.le_refl 0)).send [2] hmild (Nat.le_refl 0)
  have hfirst := hsent.swap.hear (.head _) (by unfold Endpoint.Fresh; decide) hmild (Nat.le_refl 0)
  have hsecond := hfirst.hear (.tail _ (.head _)) (by unfold Endpoint.Fresh; decide) hmild
    (Nat.le_refl 0)
  have hpolled := hsecond.poll hmild (show 0 ≤ Span.second by decide)
  have hacked := hpolled.swap.hear (.head _) (by unfold Endpoint.Fresh; decide) hmild (Nat.le_refl 0)
  obtain ⟨hpre, -, hhear⟩ := released_prefix_heard hacked
  exact ⟨rfl, hpre, hhear _ (.head _) (by unfold Endpoint.Fresh; decide) [] 0⟩

end DatagramStreams
