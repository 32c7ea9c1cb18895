import DatagramStreams.Proofs.Stream.Acknowledgement

/-! How long the waiting ACK of a link has been waiting.
Main statements: it never began to wait in the future (`Reached.onTime`), and a packet that is not ahead
sets it (`receive_near`).
-/

set_option autoImplicit false

namespace DatagramStreams

def Link.WaitsBy (now : Instant) (l : Link) : Prop := ∀ s, l.acks.timer.started = some s → s ≤ now

namespace Link

variable {l : Link} {now now' : Instant}

theorem WaitsBy.mono (h : l.WaitsBy now) (ht : now ≤ now') : l.WaitsBy now' :=
  fun s hs => Nat.le_trans (h s hs) ht

theorem stable_waitsBy (now : Instant) : Stable now (WaitsBy now) := by
  intro l p h
  unfold attach
  split
  · exact ⟨h, h⟩
  · refine ⟨fun s hs => by simp [AckHolder.take, AckHolder.cleared, Timer.stopped] at hs, ?_⟩
    cases ha : l.acks.ack with
    | none => simp [AckHolder.take, ha, giveBack, WaitsBy, AckHolder.cleared, Timer.stopped]
    | some a => simp [AckHolder.take, ha, giveBack, WaitsBy, AckHolder.cleared, AckHolder.restore, Timer.startedAt]

theorem started_owe (l : Link) (a : Seq) (now : Instant) :
    ∃ s, (ReliableStream.owe l a now).acks.timer.started = some s ∧
      (s = now ∨ l.acks.timer.started = some s) := by
  simp only [ReliableStream.owe, AckHolder.set, Timer.ensureStarted, Timer.isActive]
  rcases hs : l.acks.timer with ⟨_ | s⟩
  · exact ⟨now, rfl, .inl rfl⟩
  · exact ⟨s, rfl, .inr rfl⟩

theorem WaitsBy.owe (h : l.WaitsBy now) (a : Seq) : (ReliableStream.owe l a now).WaitsBy now := by
  obtain ⟨s, hs, rfl | hold⟩ := l.started_owe a now
  · intro t ht
    rw [hs] at ht
    exact Nat.le_of_eq (Option.some.inj ht).symm
  · intro t ht
    rw [hs, ← hold] at ht
    exact h t ht

/-- Whatever ACK waits, its delay will have passed at `u`. -/
def DueBy (delay : Span) (u : Instant) (l : Link) : Prop :=
  l.acks.delay = delay ∧ ∀ s, l.acks.timer.started = some s → s + delay < u

theorem WaitsBy.dueBy {delay : Span} {u : Instant} (h : l.WaitsBy now) (hd : l.acks.delay = delay)
    (hu : now + delay < u) : l.DueBy delay u :=
  ⟨hd, fun s hs => Nat.lt_of_le_of_lt (Nat.add_le_add_right (h s hs) _) hu⟩

theorem DueBy.owe {delay : Span} {u : Instant} (h : l.DueBy delay u) (hu : now + delay < u) (a : Seq) :
    (ReliableStream.owe l a now).DueBy delay u ∧
      (ReliableStream.owe l a now).acks.timer.hasPassed u delay = true := by
  obtain ⟨s, hs, hcases⟩ := l.started_owe a now
  have hlt : s + delay < u := by
    rcases hcases with rfl | hold
    · exact hu
    · exact h.2 s hold
  refine ⟨⟨h.1, fun t ht => ?_⟩, ?_⟩
  · rw [hs] at ht
    exact Option.some.inj ht ▸ hlt
  · have helapsed : delay < u - s := Nat.lt_sub_of_add_lt (Nat.add_comm s delay ▸ hlt)
    simp only [Timer.hasPassed, hs]
    exact decide_eq_true helapsed

theorem sendQuietly_stable {I : Link → Prop} (hI : Stable now I) (h : I l) (p : Packet) (s : Recorder) :
    I (l.sendQuietly Recorder.socket p now s).1 := by
  obtain ⟨r', ⟨hs, hh⟩ | ⟨l', ⟨hs, hh, -⟩ | ⟨k, hs, hh, -⟩⟩⟩ := l.send_cases p now s
  all_goals
    rw [sendQuietly, hs]
    exact hh.stable I hI h

end Link

namespace ReliableStream

theorem receive_stable {now : Instant} {I : Link → Prop} (hI : Link.Stable now I)
    (ho : ∀ l a, I l → I (owe l a now)) {l : Link} (h : I l) (r : ReliableStream) (p : Packet)
    (s : Recorder) : I (r.receive Recorder.socket l p now s).2.2.1 := by
  have hpayload : ∀ (r : ReliableStream) (x : Seq) (payload : Octets),
      I (r.receivePayload Recorder.socket l x payload now s).2.1 := by
    intro r x payload
    unfold receivePayload
    split
    · exact ho l _ h
    · have hc := (l.handed_cleared now s).stable I hI h
      exact Link.sendQuietly_stable hI hc _ s
    · exact ho l _ h
  unfold receive
  split
  · exact h
  · split
    · exact hpayload _ _ _
    · exact h

theorem receive_near {l : Link} {r : ReliableStream} {p : Packet} {now : Instant} {s : Recorder}
    (hok : (r.receive Recorder.socket l p now s).1 = .ok ())
    (hnear : p.reliable = true → r.inbound.classify p.sequence ≠ .ahead) :
    (r.receive Recorder.socket l p now s).2.2.1 =
      if p.reliable && p.payload.isSome then
        owe l (r.receive Recorder.socket l p now s).2.1.inbound.sequence now
      else l := by
  have hinbound : (r.receiveAck p.ack now).2.inbound = r.inbound := by
    unfold receiveAck
    split <;> rfl
  unfold receive at hok ⊢
  rcases hr : r.receiveAck p.ack now with ⟨result, r₁⟩
  rw [hr] at hok hinbound
  cases result with
  | error e => simp at hok
  | ok u =>
    simp only
    cases hrel : p.reliable with
    | false => simp
    | true =>
      cases hpay : p.payload with
      | none => simp
      | some payload =>
        have hn := hnear hrel
        simp only [receivePayload]
        rw [← hinbound] at hn
        cases hc : r₁.inbound.classify p.sequence with
        | expected => simp
        | ahead => exact absurd hc hn
        | duplicate => simp

end ReliableStream

namespace Endpoint

def OnTime (e : Endpoint) : Prop := e.link.WaitsBy e.clock

theorem OnTime.of_stable {e : Endpoint} (h : e.OnTime) {now : Instant} (ht : e.clock ≤ now) {l : Link}
    (hl : ∀ I, Link.Stable now I → I e.link → I l) : l.WaitsBy now :=
  hl _ (Link.stable_waitsBy now) (h.mono ht)

end Endpoint

/-- A waiting ACK has been waiting since an instant that has passed, as long as clocks do not go back. -/
theorem Reached.onTime {a b : Endpoint} (h : Reached (· ≤ ·) a b) : a.OnTime ∧ b.OnTime := by
  induction h with
  | start => exact ⟨by simp [Endpoint.OnTime, Link.WaitsBy, Endpoint.start],
      by simp [Endpoint.OnTime, Link.WaitsBy, Endpoint.start]⟩
  | swap _ ih => exact ih.symm
  | @send a b hab payload plan now _ ht ih =>
    obtain ⟨out, inn, hp, ha, -⟩ := hab.paired
    exact ⟨ih.1.of_stable ht (Endpoint.send_sound hp.left ha payload plan now).2.2.1, ih.2⟩
  | @poll a b hab plan now _ ht ih =>
    obtain ⟨out, inn, hp, -⟩ := hab.paired
    exact ⟨ih.1.of_stable ht (Endpoint.poll_sound hp.left plan now).2.2.1, ih.2⟩
  | @carry a b hab p hr hf hn plan now _ ht ih =>
    obtain ⟨out, inn, hp, -⟩ := hab.paired
    exact ⟨ih.1.of_stable ht (Endpoint.carry_sound hp.left
      ⟨hr, hf, fun x hx => by simp [hn] at hx⟩ plan now).2.2, ih.2⟩
  | handOver _ ih => exact ih
  | @hear a b hab d hd hf plan now _ ht ih =>
    obtain ⟨out, inn, hp, -⟩ := hab.paired
    rw [hp.hear_eq hd]
    exact ⟨ReliableStream.receive_stable (Link.stable_waitsBy now) (fun l x hl => hl.owe x)
      (ih.1.mono ht) _ _ _, ih.2⟩

end DatagramStreams
