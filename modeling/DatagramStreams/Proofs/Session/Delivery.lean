import DatagramStreams.Proofs.Session.Party
import DatagramStreams.Proofs.Stream.Pair

/-! Two connections over a network that may lose, repeat, reorder and delay datagrams, on sockets that may
fail in any way.
Main statement: what the callbacks of one hand over is a prefix of what the sends of the other have
taken.
-/

set_option autoImplicit false

namespace DatagramStreams

namespace Party

/-- Joint states of two parties with mirrored sequences. The network may deliver whatever has left the
peer, in any order, more than once or never, as long as it is not too old. -/
inductive Linked : Party → Party → Prop where
  | establish (inn out : Seq) (peer peer' : Address) (config config' : Settings)
      (handler handler' : Handler) (ownsSocket ownsSocket' : Bool) :
      Linked (.establish peer inn out config handler ownsSocket)
        (.establish peer' out inn config' handler' ownsSocket')
  | swap {a b : Party} (h : Linked a b) : Linked b a
  | act {a b : Party} (h : Linked a b) (what : Act) (plan : List (Option IoKind)) (now : Instant) :
      Linked (a.act what plan now) b
  | deliver {a b : Party} (h : Linked a b) {d : Departure} (hd : d ∈ b.departures)
      (hf : a.endpoint.Fresh d) {q : Packet} (hq : Packet.decode d.packet.encode = .ok q)
      (source : Address) (plan : List (Option IoKind)) (now : Instant) :
      Linked (a.deliver source q plan now) b

theorem Linked.paired {a b : Party} (h : Linked a b) : ∃ out inn, a.Sound out inn ∧ b.Sound inn out ∧
    Paired out inn a.endpoint b.endpoint := by
  induction h with
  | establish inn out peer peer' config config' handler handler' ownsSocket ownsSocket' =>
    exact ⟨out, inn, sound_establish inn out peer config handler ownsSocket,
      sound_establish out inn peer' config' handler' ownsSocket', .start inn out config config' peer peer'⟩
  | swap _ ih =>
    obtain ⟨out, inn, ha, hb, hp⟩ := ih
    exact ⟨inn, out, hb, ha, hp.symm⟩
  | act _ what plan now ih =>
    obtain ⟨out, inn, ha, hb, hp⟩ := ih
    obtain ⟨hs, hg⟩ := ha.act what plan now
    exact ⟨out, inn, hs, hb, hp.grow hs.endpoint hg⟩
  | @deliver a b _ d hd hf q hq source plan now ih =>
    obtain ⟨out, inn, ha, hb, hp⟩ := ih
    obtain rfl : d.packet = q := by
      rw [Packet.decode_encode_of_fits (hp.right.honest d hd).fits] at hq
      exact Except.ok.inj hq
    obtain ⟨hs, hg | ⟨n, hn, hh⟩⟩ := ha.deliver source d.packet plan now
    · exact ⟨out, inn, hs, hb, hp.grow hs.endpoint hg⟩
    · exact ⟨out, inn, hs, hb, hp.hears hd hf hn hs.endpoint hh⟩

/-- No gap, no duplicate and no reordering, in either direction. -/
theorem Linked.reads_prefix_taken {a b : Party} (h : Linked a b) :
    a.conn.journal.reads <+: b.conn.journal.taken ∧ b.conn.journal.reads <+: a.conn.journal.taken := by
  obtain ⟨out, inn, -, -, hp⟩ := h.paired
  exact ⟨(List.prefix_append _ _).trans hp.inward.heard, (List.prefix_append _ _).trans hp.outward.heard⟩

/-- Two payloads whose sequences wrap, the first of them delivered twice. -/
theorem Linked.reads_prefix_taken_wrapped :
    let a := ((Party.establish Recorder.address 7 65535 {} (.ofScript {}) true).act (.sendReliable [1]) [] 0).act
      (.sendReliable [2]) [] 0
    let b := Party.establish Recorder.address 65535 7 {} (.ofScript {}) false
    let b₁ := (b.deliver Recorder.address (.carrying true 65535 [1]) [] 0).deliver Recorder.address
      (.carrying true 65535 [1]) [] 0
    let b₂ := (b₁.deliver Recorder.address (.carrying true 0 [2]) [] 0).act .poll [] 0
    b₂.conn.journal.reads = [[1], [2]] ∧ b₂.conn.journal.reads <+: a.conn.journal.taken := by
  have hsent := ((Linked.establish 7 65535 Recorder.address Recorder.address {} {} (.ofScript {})
    (.ofScript {}) true false).act (.sendReliable [1]) [] 0).act (.sendReliable [2]) [] 0
  have hfirst := hsent.swap.deliver (q := .carrying true 65535 [1]) (.head _)
    (by unfold Endpoint.Fresh; decide) rfl Recorder.address [] 0
  have hagain := hfirst.deliver (q := .carrying true 65535 [1]) (.head _)
    (by unfold Endpoint.Fresh; decide) rfl Recorder.address [] 0
  have hsecond := hagain.deliver (q := .carrying true 0 [2]) (.tail _ (.head _))
    (by unfold Endpoint.Fresh; decide) rfl Recorder.address [] 0
  exact ⟨rfl, (hsecond.act .poll [] 0).reads_prefix_taken.1⟩

end Party

end DatagramStreams
