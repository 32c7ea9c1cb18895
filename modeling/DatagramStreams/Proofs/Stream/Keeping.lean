import DatagramStreams.Stream.Reliable
import DatagramStreams.Stream.Unreliable

/-! What sending keeps. A stream hands over packets of its window and its queue, new ones and bare ACKs.
Whatever each of these sends keeps of the link and its socket, the operations of both streams keep.
Main statements: `Outbound.send_keeps`, `ReliableStream.receive_keeps` and `ReliableStream.poll_keeps`.
-/

set_option autoImplicit false

namespace DatagramStreams

variable {σ : Type} {P : Packet → Prop} {sock : Socket σ} {now : Instant} {lossy : Prop}
  {I : Link → σ → Prop} {l : Link} {s : σ}

/-- What stays as it is when a packet with the property `P` is sent. Only a `lossy` socket does not take
it. -/
def Link.KeepsEach (P : Packet → Prop) (sock : Socket σ) (now : Instant) (lossy : Prop)
    (I : Link → σ → Prop) : Prop :=
  ∀ ⦃p l s⦄, P p → I l s →
    ∃ result l' s', l.send sock p now s = (result, l', s') ∧ (result = .ok true ∨ lossy) ∧ I l' s'

namespace Outbound

def Each (P : Packet → Prop) (o : Outbound) : Prop := ∀ p ∈ o.window.packets ++ o.queue.toList, P p

theorem resend_keeps (hI : Link.KeepsEach P sock now lossy I) {ps : List Packet} (hps : ∀ p ∈ ps, P p)
    (h : I l s) : ∃ result l' s',
      resend sock now ps l s = (result, l', s') ∧ (result = .ok () ∨ lossy) ∧ I l' s' := by
  induction ps generalizing l s with
  | nil => exact ⟨_, l, s, rfl, .inl rfl, h⟩
  | cons p rest ih =>
    obtain ⟨hp, hrest⟩ := List.forall_mem_cons.mp hps
    obtain ⟨result, l₁, s₁, hs, hok, h₁⟩ := hI hp h
    simp only [resend, hs]
    cases result with
    | error e => exact ⟨_, l₁, s₁, rfl, .inr (hok.resolve_left nofun), h₁⟩
    | ok sent => exact ih hrest h₁

theorem retransmit_keeps (hI : Link.KeepsEach P sock now lossy I) {o : Outbound} (ho : o.Each P)
    (h : I l s) : ∃ result o' l' s', o.retransmit sock l now s = (result, o', l', s') ∧
      (result = .ok () ∨ lossy) ∧ o'.Each P ∧ I l' s' := by
  have hw := o.window.packets_retransmitDue now
  unfold retransmit
  split <;> rename_i window hdue <;> rw [hdue] at hw
  · exact ⟨_, _, l, s, rfl, .inl rfl, fun p hp => ho p (hw ▸ hp), h⟩
  · have hps : ∀ p ∈ window.packets, P p := fun p hp => ho p (List.mem_append_left _ (hw ▸ hp))
    obtain ⟨result, l', s', hs, hok, h'⟩ := resend_keeps hI hps h
    simp only [hs]
    refine ⟨_, _, l', s', rfl, hok, fun p hp => ho p ?_, h'⟩
    rwa [SendWindow.packets_markResent, hw] at hp

theorem flush_keeps (hI : Link.KeepsEach P sock now lossy I) {ps : List Packet} {w : SendWindow}
    (hps : ∀ p ∈ w.packets ++ ps, P p) (h : I l s) : ∃ result queue w' l' s',
      flush sock now ps w l s = (result, queue, w', l', s') ∧ (result = .ok () ∨ lossy) ∧
        (∀ p ∈ w'.packets ++ queue, P p) ∧ I l' s' := by
  induction ps generalizing w l s with
  | nil => exact ⟨_, _, w, l, s, rfl, .inl rfl, hps, h⟩
  | cons p rest ih =>
    unfold flush
    split
    · exact ⟨_, _, w, l, s, rfl, .inl rfl, hps, h⟩
    · obtain ⟨result, l₁, s₁, hs, hok, h₁⟩ := hI (hps p (by simp)) h
      simp only [hs]
      rcases result with e | _ | _
      · exact ⟨_, _, w, l₁, s₁, rfl, .inr (hok.resolve_left nofun), hps, h₁⟩
      · exact ⟨_, _, w, l₁, s₁, rfl, .inl rfl, hps, h₁⟩
      · exact ih (w := w.register p now) (by simpa using hps) h₁

theorem drive_keeps (hI : Link.KeepsEach P sock now lossy I) {o : Outbound} (ho : o.Each P) (h : I l s) :
    ∃ result o' l' s', o.drive sock l now s = (result, o', l', s') ∧ (result = .ok () ∨ lossy) ∧
      o'.Each P ∧ I l' s' := by
  obtain ⟨result, o₁, l₁, s₁, hs, hok, ho₁, h₁⟩ := retransmit_keeps hI ho h
  simp only [drive, hs]
  cases result with
  | error e => exact ⟨_, o₁, l₁, s₁, rfl, hok, ho₁, h₁⟩
  | ok u =>
    obtain ⟨result, queue, w, l₂, s₂, hs, hok, hp, h₂⟩ := flush_keeps hI ho₁ h₁
    simp only [hs]
    exact ⟨_, _, l₂, s₂, rfl, hok, by simpa [Each] using hp, h₂⟩

theorem send_keeps (hI : Link.KeepsEach P sock now lossy I) (hnew : ∀ a b, P (.carrying true a b))
    {o : Outbound} (ho : o.Each P) (h : I l s) (payload : Octets) : ∃ result o' l' s',
      o.send sock l payload now s = (result, o', l', s') ∧ o'.Each P ∧ I l' s' := by
  have hdata := Packet.data_eq true o.sequence payload
  unfold send
  cases hfault : Packet.payloadError? payload with
  | some e =>
    simp only [hdata, hfault]
    exact ⟨_, o, l, s, rfl, ho, h⟩
  | none =>
    have hp := hnew o.sequence payload
    have hmore : ∀ q, q ∈ o.window.packets ∨ q ∈ o.queue.toList ∨ q = .carrying true o.sequence payload →
        P q := by
      rintro q (hq | hq | rfl)
      · exact ho q (List.mem_append_left _ hq)
      · exact ho q (List.mem_append_right _ hq)
      · exact hp
    simp only [hdata, hfault, submit]
    split
    · exact ⟨_, _, l, s, rfl, fun q hq => hmore q (by simpa [enqueue] using hq), h⟩
    · obtain ⟨result, l', s', hs, -, h'⟩ := hI hp h
      simp only [hs]
      rcases result with e | _ | _
      · exact ⟨_, _, l', s', rfl, ho, h'⟩
      · exact ⟨_, _, l', s', rfl, fun q hq => hmore q (by simpa [enqueue] using hq), h'⟩
      · refine ⟨_, _, l', s', rfl, fun q hq => hmore q ?_, h'⟩
        simp only [register, SendWindow.packets_register, List.append_assoc, List.mem_append,
          List.mem_singleton] at hq
        rcases hq with hq | hq | hq
        · exact .inl hq
        · exact .inr (.inr hq)
        · exact .inr (.inl hq)

theorem acknowledge_each {o : Outbound} (ho : o.Each P) (ack : Seq) (now : Instant) :
    (o.acknowledge ack now).2.Each P := by
  have hw := o.window.packets_acknowledge ack now
  rintro p hp
  simp only [acknowledge, hw, List.mem_append] at hp
  rcases hp with hp | hp
  · refine ho p (List.mem_append_left _ ?_)
    split at hp
    · exact List.mem_of_mem_drop hp
    · exact hp
  · exact ho p (List.mem_append_right _ hp)

end Outbound

theorem UnreliableStream.send_keeps (hI : Link.KeepsEach P sock now lossy I)
    (hnew : ∀ a b, P (.carrying false a b)) (h : I l s) (u : UnreliableStream) (payload : Octets) :
    ∃ result u' l' s', u.send sock l payload now s = (result, u', l', s') ∧ I l' s' := by
  unfold send
  rw [Packet.data_eq]
  cases Packet.payloadError? payload with
  | some e => exact ⟨_, u, l, s, rfl, h⟩
  | none =>
    obtain ⟨result, l', s', hs, -, h'⟩ := hI (hnew u.sequenceOut payload) h
    simp only [hs]
    cases result <;> exact ⟨_, _, l', s', rfl, h'⟩

namespace ReliableStream

theorem receiveAck_each {r : ReliableStream} (ho : r.outbound.Each P) (ack : Option Seq) (now : Instant) :
    ∃ result outbound, r.receiveAck ack now = (result, { r with outbound }) ∧ outbound.Each P := by
  cases ack with
  | none => exact ⟨_, r.outbound, rfl, ho⟩
  | some a => exact ⟨_, _, rfl, Outbound.acknowledge_each ho a now⟩

variable {K : Seq → Link → σ → Prop}

/-- What stays as it is when the ACK for everything up to `a` is put up to wait again, or is sent on its own,
at once or late. -/
structure KeepsAck (sock : Socket σ) (now : Instant) (K : Seq → Link → σ → Prop) : Prop where
  owe : ∀ ⦃a l s⦄, K a l s → K a (owe l a now) s
  ackNow : ∀ ⦃a l s⦄, K a l s → K a (ackNow sock l a now s).1 (ackNow sock l a now s).2
  flushAck : ∀ ⦃a l s⦄, K a l s → K a (flushAck sock l now s).1 (flushAck sock l now s).2

theorem keepsAck_of_send (hI : Link.KeepsEach P sock now lossy I) (hbare : ∀ a, P (.ackOnly a))
    (hacks : ∀ l acks s, I l s → I { l with acks } s) : KeepsAck sock now fun _ => I where
  owe := fun _ l s h => hacks l _ s h
  ackNow := by
    intro a l s h
    obtain ⟨_, l', s', hs, -, h'⟩ := hI (hbare a) (hacks l l.acks.cleared s h)
    simp only [ReliableStream.ackNow, Link.sendQuietly, hs]
    exact h'
  flushAck := by
    intro _ l s h
    unfold ReliableStream.flushAck
    rcases l.acks.takeExpired now with ⟨_ | a, acks⟩
    · exact hacks l acks s h
    · obtain ⟨_, l', s', hs, -, h'⟩ := hI (hbare a) (hacks l acks s h)
      simp only [Link.sendQuietly, hs]
      exact h'

/-- `K'` is what is known of `K` after a packet: nothing has moved, or a payload was accepted at `s` and the
ACK has moved on with the sequence. -/
structure MovesOn (now : Instant) (K K' : Seq → Link → σ → Prop) (s : σ) : Prop where
  stays : ∀ ⦃a l s'⦄, K a l s' → K' a l s'
  next : ∀ ⦃a l⦄, K a l s → K' (Seq.next a) (owe l (Seq.next a) now) s

theorem MovesOn.same (h : ∀ a l, K a l s → K (Seq.next a) (owe l (Seq.next a) now) s) :
    MovesOn now K K s :=
  ⟨fun _ _ _ hk => hk, h⟩

theorem receivePayload_keeps {K' : Seq → Link → σ → Prop} (hK : KeepsAck sock now K)
    (hnext : MovesOn now K K' s) {r : ReliableStream} (h : K r.inbound.sequence l s) (sequence : Seq)
    (payload : Octets) : ∃ inbound l' s',
      r.receivePayload sock l sequence payload now s = ({ r with inbound }, l', s') ∧
        K' inbound.sequence l' s' := by
  unfold receivePayload
  cases r.inbound.classify sequence with
  | expected => exact ⟨_, _, s, rfl, hnext.next h⟩
  | duplicate => exact ⟨r.inbound, _, s, rfl, hnext.stays (hK.owe h)⟩
  | ahead => exact ⟨r.inbound, _, _, rfl, hnext.stays (hK.ackNow h)⟩

theorem receive_keeps {K' : Seq → Link → σ → Prop} (hK : KeepsAck sock now K)
    (hnext : MovesOn now K K' s) {r : ReliableStream} (ho : r.outbound.Each P)
    (h : K r.inbound.sequence l s) (p : Packet) : ∃ result r' l' s',
      r.receive sock l p now s = (result, r', l', s') ∧ r'.outbound.Each P ∧
        (match result with | .ok () => K' | .error _ => K) r'.inbound.sequence l' s' := by
  obtain ⟨result, outbound, hs, ho'⟩ := receiveAck_each ho p.ack now
  simp only [receive, hs]
  cases result with
  | error e => exact ⟨_, _, l, s, rfl, ho', h⟩
  | ok u =>
    cases p.reliable with
    | false => exact ⟨_, _, l, s, rfl, ho', hnext.stays h⟩
    | true =>
      cases p.payload with
      | none => exact ⟨_, _, l, s, rfl, ho', hnext.stays h⟩
      | some payload =>
        obtain ⟨inbound, l', s', hs, h'⟩ :=
          receivePayload_keeps (r := { r with outbound }) hK hnext h p.sequence payload
        simp only [hs]
        exact ⟨_, _, l', s', rfl, ho', h'⟩

theorem poll_keeps {r : ReliableStream} {a : Seq} (hI : Link.KeepsEach P sock now lossy (K a))
    (hK : KeepsAck sock now K) (ho : r.outbound.Each P) (h : K a l s) : ∃ result outbound l' s',
      r.poll sock l now s = (result, { r with outbound }, l', s') ∧ outbound.Each P ∧ K a l' s' := by
  unfold poll
  split
  · exact ⟨_, r.outbound, l, s, rfl, ho, h⟩
  · obtain ⟨result, outbound, l₁, s₁, hs, -, ho₁, h₁⟩ := Outbound.drive_keeps hI ho h
    simp only [hs]
    cases result with
    | error e => exact ⟨_, outbound, l₁, s₁, rfl, ho₁, h₁⟩
    | ok u => exact ⟨_, outbound, _, _, rfl, ho₁, hK.flushAck h₁⟩

end ReliableStream

end DatagramStreams
