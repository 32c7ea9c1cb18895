import DatagramStreams.Proofs.Stream.Sending

/-! What a reliable stream does with packets, whoever sent them. The packets that leave while a stream
receives are bare ACKs of its own place, and a poll lets numbers leave in order.
Main statements: `poll_emits`, `receiveAck_carries` and `receivePayload_emits`.
-/

set_option autoImplicit false

namespace DatagramStreams

def Packet.Minor (a : Seq) (p : Packet) : Prop := p.reliable = false ∧ p.Fits ∧ p.Acks a

theorem Packet.minor_ackOnly (a : Seq) : (ackOnly a).Minor a := ⟨rfl, fits_ackOnly a, acks_ackOnly a⟩

theorem Emits.of_minor {first a : Seq} {taken : List Octets} {b : Nat} (k : Nat) {ps : List Packet}
    (h : ∀ p ∈ ps, p.Minor a) : Emits first taken b a k ps k := by
  induction ps with
  | nil => exact .nil k
  | cons p rest ih =>
    obtain ⟨hr, hf, ha⟩ := h p List.mem_cons_self
    exact .other hr hf ha (ih fun q hq => h q (List.mem_cons_of_mem _ hq))

namespace Link

variable {l : Link} {a : Seq}

theorem sendQuietly_minor (h : l.acks.Offers a) {p : Packet} (hp : p.Minor a) (now : Instant)
    (r : Recorder) : ∃ l' r' new, l.sendQuietly Recorder.socket p now r = (l', r') ∧
      Handed now l r l' r' new ∧ ∀ q ∈ new, q.Minor a := by
  have hload : (loaded p (l.attach p).1).Minor a :=
    ⟨by cases (l.attach p).1 <;> exact hp.1, by cases (l.attach p).1 <;> exact hp.2.1,
      (attach_offers h p).2 hp.2.2⟩
  obtain ⟨r', ⟨hs, hh⟩ | ⟨l', ⟨hs, hh, -⟩ | ⟨k, hs, hh, -⟩⟩⟩ := l.send_cases p now r
  · exact ⟨_, r', _, by simp only [sendQuietly, hs], hh,
      fun q hq => List.mem_singleton.mp hq ▸ hload⟩
  · exact ⟨l', r', [], by simp only [sendQuietly, hs], hh, by simp⟩
  · exact ⟨l', r', [], by simp only [sendQuietly, hs], hh, by simp⟩

theorem handed_cleared (l : Link) (now : Instant) (r : Recorder) :
    Handed now l r { l with acks := l.acks.cleared } r [] :=
  ⟨by simp, fun _ h => h, fun _ hI h => (hI l {} h).1⟩

end Link

namespace ReliableStream

variable {out inn a : Seq} {b : Nat} {taken : List Octets} {l : Link}

theorem ackNow_minor (h : l.acks.Offers a) (now : Instant) (s : Recorder) : ∃ l' s' new,
    ackNow Recorder.socket l a now s = (l', s') ∧ Handed now l s l' s' new ∧ ∀ q ∈ new, q.Minor a := by
  have hc := l.handed_cleared now s
  obtain ⟨l', s', new, hs, hh, hm⟩ :=
    Link.sendQuietly_minor (hc.offers h) (Packet.minor_ackOnly a) now s
  exact ⟨l', s', new, hs, hc.trans hh, hm⟩

theorem flushAck_minor (h : l.acks.Offers a) (now : Instant) (s : Recorder) : ∃ l' s' new,
    flushAck Recorder.socket l now s = (l', s') ∧ Handed now l s l' s' new ∧ ∀ q ∈ new, q.Minor a := by
  unfold flushAck AckHolder.takeExpired
  split
  · rename_i x acks hx
    split at hx
    · obtain ⟨ht, rfl⟩ := Prod.mk.inj hx
      obtain rfl := h x ht
      exact ackNow_minor h now s
    · simp at hx
  · rename_i acks hx
    split at hx
    · obtain ⟨-, rfl⟩ := Prod.mk.inj hx
      exact ⟨_, s, [], rfl, l.handed_cleared now s, by simp⟩
    · obtain ⟨-, rfl⟩ := Prod.mk.inj hx
      exact ⟨_, s, [], rfl, .refl now l s, by simp⟩

theorem poll_emits {r : ReliableStream} (h : r.outbound.Carries out b taken) (ho : l.acks.Offers a)
    (now : Instant) (s : Recorder) : ∃ result r' l' s' new,
      r.poll Recorder.socket l now s = (result, r', l', s') ∧ r'.inbound = r.inbound ∧
        r'.outbound.Carries out b taken ∧ r'.outbound.sequence = r.outbound.sequence ∧
        Handed now l s l' s' new ∧
        Emits out taken b a (b + r.outbound.window.inFlight) new (b + r'.outbound.window.inFlight) := by
  unfold poll
  split
  · exact ⟨_, r, l, s, [], rfl, rfl, h, rfl, .refl now l s, .nil _⟩
  · obtain ⟨result, o, l₁, s₁, new, hd, hc, hs, hh, he⟩ := Outbound.drive_carries h ho now s
    simp only [hd]
    cases result with
    | error e => exact ⟨_, _, l₁, s₁, new, rfl, rfl, hc, hs, hh, he⟩
    | ok u =>
      obtain ⟨l₂, s₂, acks, hf, hh', hm⟩ := flushAck_minor (hh.offers ho) now s₁
      simp only [hf]
      exact ⟨_, _, l₂, s₂, _, rfl, rfl, hc, hs, hh.trans hh', he.append (.of_minor _ hm)⟩

def acknowledged (r : ReliableStream) (ack : Option Seq) (now : Instant) : Except ConnectionError Nat :=
  match ack with
  | none => .ok 0
  | some x => (r.outbound.window.acknowledge x now).1

theorem receiveAck_carries {r : ReliableStream} (h : r.outbound.Carries out b taken) (ack : Option Seq)
    (now : Instant) :
    (∃ e, r.acknowledged ack now = .error e ∧ r.receiveAck ack now = (.error e, r)) ∨
      ∃ o n, r.acknowledged ack now = .ok n ∧
        r.receiveAck ack now = (.ok (), { r with outbound := o }) ∧ o.Carries out (b + n) taken ∧
        o.sequence = r.outbound.sequence ∧ o.window.inFlight + n = r.outbound.window.inFlight := by
  cases ack with
  | none => exact .inr ⟨r.outbound, 0, rfl, rfl, h, rfl, rfl⟩
  | some x =>
    rcases hw : r.outbound.window.acknowledge x now with ⟨result, w⟩
    cases result with
    | error e =>
      obtain rfl := SendWindow.acknowledge_eq_error hw
      exact .inl ⟨e, by simp [acknowledged, hw],
        by simp [receiveAck, Outbound.acknowledge, hw, Except.map]⟩
    | ok n =>
      obtain ⟨-, hi, hh⟩ := SendWindow.Holds.acknowledge h hw
      exact .inr ⟨{ r.outbound with window := w }, n, by simp [acknowledged, hw],
        by simp [receiveAck, Outbound.acknowledge, hw, Except.map], hh, rfl, hi⟩

theorem receivePayload_emits {r : ReliableStream} (ho : l.acks.Offers r.inbound.sequence) (x : Seq)
    (payload : Octets) (now : Instant) (s : Recorder) : ∃ i l' s' new,
      r.receivePayload Recorder.socket l x payload now s = ({ r with inbound := i }, l', s') ∧
        i = (if x = r.inbound.sequence then r.inbound.accept payload else r.inbound) ∧
        l'.acks.Offers i.sequence ∧ s'.passed = s.passed ++ new ∧ ∀ q ∈ new, q.Minor i.sequence := by
  unfold receivePayload
  cases hc : r.inbound.classify x with
  | expected =>
    rw [Inbound.classify_eq_expected] at hc
    refine ⟨r.inbound.accept payload, _, s, [], rfl, by rw [if_pos hc], ?_, by simp, by simp⟩
    intro y hy
    simpa [owe] using hy.symm
  | ahead =>
    have hn : x ≠ r.inbound.sequence := Inbound.ne_of_classify (by simp [hc])
    obtain ⟨l', s', new, hs, hh, hm⟩ := ackNow_minor ho now s
    simp only [hs]
    exact ⟨r.inbound, l', s', new, rfl, by rw [if_neg hn], hh.offers ho, hh.passed, hm⟩
  | duplicate =>
    have hn : x ≠ r.inbound.sequence := Inbound.ne_of_classify (by simp [hc])
    refine ⟨r.inbound, _, s, [], rfl, by rw [if_neg hn], ?_, by simp, by simp⟩
    intro y hy
    simpa [owe] using hy.symm

def reading (i : Inbound) (p : Packet) : Inbound :=
  match p.reliable, p.payload with
  | true, some payload => if p.sequence = i.sequence then i.accept payload else i
  | _, _ => i

theorem reading_extends {i : Inbound} {first : Seq} {n : Nat} (h : i.sequence = first.after n) (p : Packet) :
    ∃ more, (reading i p).delivered.toList = i.delivered.toList ++ more ∧
      (reading i p).sequence = first.after (n + more.length) := by
  simp only [reading]
  split
  · split
    · refine ⟨[_], by rw [Inbound.delivered_accept, Queue.toList_push], ?_⟩
      rw [Inbound.sequence_accept, h, Seq.next_after, List.length_singleton]
    · exact ⟨[], (List.append_nil _).symm, h⟩
  · exact ⟨[], (List.append_nil _).symm, h⟩

/-- A packet ends with a violation that changes nothing, or releases payloads, is accepted when it is
the expected one, and sets off bare ACKs at most. -/
theorem receive_emits {r : ReliableStream} (h : r.outbound.Carries out b taken)
    (ho : l.acks.Offers r.inbound.sequence) (p : Packet) (now : Instant) (s : Recorder) :
    (∃ e, r.acknowledged p.ack now = .error e ∧
      r.receive Recorder.socket l p now s = (.error e, r, l, s)) ∨
    ∃ o n l' s' new, r.acknowledged p.ack now = .ok n ∧
      r.receive Recorder.socket l p now s = (.ok (), ⟨o, reading r.inbound p⟩, l', s') ∧
      o.Carries out (b + n) taken ∧ o.sequence = r.outbound.sequence ∧
      o.window.inFlight + n = r.outbound.window.inFlight ∧
      l'.acks.Offers (reading r.inbound p).sequence ∧ s'.passed = s.passed ++ new ∧
      ∀ q ∈ new, q.Minor (reading r.inbound p).sequence := by
  unfold receive
  rcases receiveAck_carries h p.ack now with ⟨e, ha, hr⟩ | ⟨o, n, ha, hr, hc, hs, hi⟩
  · exact .inl ⟨e, ha, by simp only [hr]⟩
  · refine .inr ?_
    simp only [hr]
    cases hrel : p.reliable with
    | false =>
      exact ⟨o, n, l, s, [], ha, by simp [reading, hrel], hc, hs, hi, by simpa [reading, hrel] using ho,
        by simp, by simp⟩
    | true =>
      cases hpay : p.payload with
      | none =>
        exact ⟨o, n, l, s, [], ha, by simp [reading, hpay], hc, hs, hi,
          by simpa [reading, hpay] using ho, by simp, by simp⟩
      | some payload =>
        obtain ⟨i, l', s', new, hp, hi', ho', hn, hm⟩ :=
          receivePayload_emits (r := { r with outbound := o }) ho p.sequence payload now s
        have hread : reading r.inbound p = i := by simp [reading, hrel, hpay, hi']
        rw [hread]
        exact ⟨o, n, l', s', new, ha, by simp only [hp], hc, hs, hi, ho', hn, hm⟩

end ReliableStream

end DatagramStreams
