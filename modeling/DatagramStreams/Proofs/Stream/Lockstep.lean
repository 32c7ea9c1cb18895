import DatagramStreams.Stream.Reliable
import DatagramStreams.Stream.Unreliable

/-! Streams over two sockets that answer alike. All that a stream learns of its socket is what becomes of
the packets it sends to its peer, so two runs with the same answers go through the same states.
Main statements: `send_lockstep`, `receive_lockstep` and `poll_lockstep` of the reliable stream.
-/

set_option autoImplicit false

namespace DatagramStreams

variable {σ τ : Type} {sock : Socket σ} {sock' : Socket τ} {peer : Address} {owned : Bool}
  {R : σ → τ → Prop} {l : Link} {s : σ} {t : τ}

/-- From states that `R` relates, packets for `peer` meet the same fate on both sockets. Closing matters
to the owner of the socket only. -/
structure Socket.Alike (sock : Socket σ) (sock' : Socket τ) (peer : Address) (owned : Bool)
    (R : σ → τ → Prop) : Prop where
  send : ∀ p s t, R s t → (sock.send peer p s).1 = (sock'.send peer p t).1 ∧
    R (sock.send peer p s).2 (sock'.send peer p t).2
  close : owned = true → ∀ s t, R s t → R (sock.close s) (sock'.close t)

theorem Socket.alike_refl (sock : Socket σ) (peer : Address) (owned : Bool) :
    sock.Alike sock peer owned Eq where
  send := by
    rintro p s _ rfl
    exact ⟨rfl, rfl⟩
  close := by
    rintro - s _ rfl
    rfl

theorem Socket.alike_self {I : σ → Prop} (h : ∀ p s, I s → I (sock.send peer p s).2) :
    sock.Alike sock peer false fun s t => s = t ∧ I s where
  send := by
    rintro p s t ⟨rfl, hi⟩
    exact ⟨rfl, rfl, h p s hi⟩
  close h := by simp at h

namespace Link

theorem peer_attach (l : Link) (p : Packet) : (l.attach p).2.peer = l.peer := by
  unfold attach
  split <;> rfl

theorem peer_giveBack (l : Link) (taken : Option Seq) (now : Instant) :
    (l.giveBack taken now).peer = l.peer := by
  cases taken <;> rfl

theorem send_lockstep (h : sock.Alike sock' peer owned R) (hl : l.peer = peer) (hr : R s t) (p : Packet)
    (now : Instant) : ∃ result l' s' t', l.send sock p now s = (result, l', s') ∧
      l.send sock' p now t = (result, l', t') ∧ l'.peer = peer ∧ R s' t' := by
  have hp : (l.attach p).2.peer = peer := (l.peer_attach p).trans hl
  obtain ⟨hsame, hrel⟩ := h.send (loaded p (l.attach p).1) s t hr
  rcases hs : sock.send peer (loaded p (l.attach p).1) s with ⟨e | u, s'⟩ <;>
    rcases ht : sock'.send peer (loaded p (l.attach p).1) t with ⟨e' | u', t'⟩ <;>
    simp only [hs, ht, reduceCtorEq, Except.error.injEq] at hsame hrel
  · subst hsame
    exact ⟨if e.kind = .wouldBlock then .ok false else .error e,
      (l.attach p).2.giveBack (l.attach p).1 now, s', t', by simp only [send, hl, hs],
      by simp only [send, hl, ht], (peer_giveBack _ _ now).trans hp, hrel⟩
  · exact ⟨.ok true, (l.attach p).2, s', t', by simp only [send, hl, hs], by simp only [send, hl, ht],
      hp, hrel⟩

theorem sendQuietly_lockstep (h : sock.Alike sock' peer owned R) (hl : l.peer = peer) (hr : R s t)
    (p : Packet) (now : Instant) : ∃ l' s' t', l.sendQuietly sock p now s = (l', s') ∧
      l.sendQuietly sock' p now t = (l', t') ∧ l'.peer = peer ∧ R s' t' := by
  obtain ⟨result, l', s', t', hs, ht, hp, hr⟩ := send_lockstep h hl hr p now
  exact ⟨l', s', t', by rw [sendQuietly, hs], by rw [sendQuietly, ht], hp, hr⟩

end Link

namespace Outbound

theorem submit_lockstep (h : sock.Alike sock' peer owned R) (hl : l.peer = peer) (hr : R s t)
    (o : Outbound) (p : Packet) (now : Instant) : ∃ result o' l' s' t',
      submit sock o l p now s = (result, o', l', s') ∧ submit sock' o l p now t = (result, o', l', t') ∧
        l'.peer = peer ∧ R s' t' := by
  unfold submit
  split
  · exact ⟨_, _, l, s, t, rfl, rfl, hl, hr⟩
  · obtain ⟨result, l', s', t', hs, ht, hp, hr⟩ := Link.send_lockstep h hl hr p now
    simp only [hs, ht]
    rcases result with e | _ | _ <;> exact ⟨_, _, l', s', t', rfl, rfl, hp, hr⟩

theorem send_lockstep (h : sock.Alike sock' peer owned R) (hl : l.peer = peer) (hr : R s t)
    (o : Outbound) (payload : Octets) (now : Instant) : ∃ result o' l' s' t',
      o.send sock l payload now s = (result, o', l', s') ∧
        o.send sock' l payload now t = (result, o', l', t') ∧ l'.peer = peer ∧ R s' t' := by
  unfold send
  split
  · exact ⟨_, o, l, s, t, rfl, rfl, hl, hr⟩
  · exact submit_lockstep h hl hr _ _ now

theorem resend_lockstep (h : sock.Alike sock' peer owned R) (hl : l.peer = peer) (hr : R s t)
    (ps : List Packet) (now : Instant) : ∃ result l' s' t', resend sock now ps l s = (result, l', s') ∧
      resend sock' now ps l t = (result, l', t') ∧ l'.peer = peer ∧ R s' t' := by
  induction ps generalizing l s t with
  | nil => exact ⟨_, l, s, t, rfl, rfl, hl, hr⟩
  | cons p rest ih =>
    obtain ⟨result, l', s', t', hs, ht, hp, hr⟩ := Link.send_lockstep h hl hr p now
    simp only [resend, hs, ht]
    cases result with
    | error e => exact ⟨_, l', s', t', rfl, rfl, hp, hr⟩
    | ok sent => exact ih hp hr

theorem retransmit_lockstep (h : sock.Alike sock' peer owned R) (hl : l.peer = peer) (hr : R s t)
    (o : Outbound) (now : Instant) : ∃ result o' l' s' t',
      o.retransmit sock l now s = (result, o', l', s') ∧
        o.retransmit sock' l now t = (result, o', l', t') ∧ l'.peer = peer ∧ R s' t' := by
  unfold retransmit
  split
  · exact ⟨_, _, l, s, t, rfl, rfl, hl, hr⟩
  · rename_i window _
    obtain ⟨result, l', s', t', hs, ht, hp, hr⟩ := resend_lockstep h hl hr window.packets now
    simp only [hs, ht]
    exact ⟨_, _, l', s', t', rfl, rfl, hp, hr⟩

theorem flush_lockstep (h : sock.Alike sock' peer owned R) (hl : l.peer = peer) (hr : R s t)
    (ps : List Packet) (w : SendWindow) (now : Instant) : ∃ result queue w' l' s' t',
      flush sock now ps w l s = (result, queue, w', l', s') ∧
        flush sock' now ps w l t = (result, queue, w', l', t') ∧ l'.peer = peer ∧ R s' t' := by
  induction ps generalizing w l s t with
  | nil => exact ⟨_, _, w, l, s, t, rfl, rfl, hl, hr⟩
  | cons p rest ih =>
    unfold flush
    split
    · exact ⟨_, _, w, l, s, t, rfl, rfl, hl, hr⟩
    · obtain ⟨result, l', s', t', hs, ht, hp, hr⟩ := Link.send_lockstep h hl hr p now
      simp only [hs, ht]
      rcases result with e | _ | _
      · exact ⟨_, _, w, l', s', t', rfl, rfl, hp, hr⟩
      · exact ⟨_, _, w, l', s', t', rfl, rfl, hp, hr⟩
      · exact ih hp hr (w.register p now)

theorem drive_lockstep (h : sock.Alike sock' peer owned R) (hl : l.peer = peer) (hr : R s t)
    (o : Outbound) (now : Instant) : ∃ result o' l' s' t',
      o.drive sock l now s = (result, o', l', s') ∧ o.drive sock' l now t = (result, o', l', t') ∧
        l'.peer = peer ∧ R s' t' := by
  obtain ⟨result, o₁, l₁, s₁, t₁, hs, ht, hp, hr⟩ := retransmit_lockstep h hl hr o now
  simp only [drive, hs, ht]
  cases result with
  | error e => exact ⟨_, o₁, l₁, s₁, t₁, rfl, rfl, hp, hr⟩
  | ok u =>
    obtain ⟨result, queue, w, l₂, s₂, t₂, hs, ht, hp, hr⟩ :=
      flush_lockstep h hp hr o₁.queue.toList o₁.window now
    simp only [hs, ht]
    exact ⟨_, _, l₂, s₂, t₂, rfl, rfl, hp, hr⟩

end Outbound

theorem UnreliableStream.send_lockstep (h : sock.Alike sock' peer owned R) (hl : l.peer = peer)
    (hr : R s t) (u : UnreliableStream) (payload : Octets) (now : Instant) : ∃ result u' l' s' t',
      u.send sock l payload now s = (result, u', l', s') ∧
        u.send sock' l payload now t = (result, u', l', t') ∧ l'.peer = peer ∧ R s' t' := by
  unfold send
  split
  · exact ⟨_, u, l, s, t, rfl, rfl, hl, hr⟩
  · rename_i p _
    obtain ⟨result, l', s', t', hs, ht, hp, hr⟩ := Link.send_lockstep h hl hr p now
    simp only [hs, ht]
    cases result <;> exact ⟨_, _, l', s', t', rfl, rfl, hp, hr⟩

namespace ReliableStream

theorem send_lockstep (h : sock.Alike sock' peer owned R) (hl : l.peer = peer) (hr : R s t)
    (r : ReliableStream) (payload : Octets) (now : Instant) : ∃ result r' l' s' t',
      r.send sock l payload now s = (result, r', l', s') ∧
        r.send sock' l payload now t = (result, r', l', t') ∧ l'.peer = peer ∧ R s' t' := by
  obtain ⟨result, o, l', s', t', hs, ht, hp, hr⟩ :=
    Outbound.send_lockstep h hl hr r.outbound payload now
  simp only [send, hs, ht]
  exact ⟨_, _, l', s', t', rfl, rfl, hp, hr⟩

theorem receivePayload_lockstep (h : sock.Alike sock' peer owned R) (hl : l.peer = peer) (hr : R s t)
    (r : ReliableStream) (sequence : Seq) (payload : Octets) (now : Instant) : ∃ r' l' s' t',
      r.receivePayload sock l sequence payload now s = (r', l', s') ∧
        r.receivePayload sock' l sequence payload now t = (r', l', t') ∧ l'.peer = peer ∧ R s' t' := by
  unfold receivePayload
  split
  · exact ⟨_, _, s, t, rfl, rfl, hl, hr⟩
  · obtain ⟨l', s', t', hs, ht, hp, hr⟩ := Link.sendQuietly_lockstep
      (l := { l with acks := l.acks.cleared }) h hl hr (.ackOnly r.inbound.sequence) now
    simp only [ackNow, hs, ht]
    exact ⟨r, l', s', t', rfl, rfl, hp, hr⟩
  · exact ⟨r, _, s, t, rfl, rfl, hl, hr⟩

theorem receive_lockstep (h : sock.Alike sock' peer owned R) (hl : l.peer = peer) (hr : R s t)
    (r : ReliableStream) (p : Packet) (now : Instant) : ∃ result r' l' s' t',
      r.receive sock l p now s = (result, r', l', s') ∧ r.receive sock' l p now t = (result, r', l', t') ∧
        l'.peer = peer ∧ R s' t' := by
  unfold receive
  split
  · exact ⟨_, _, l, s, t, rfl, rfl, hl, hr⟩
  · split
    · rename_i r₁ _ _ _ payload _ _
      obtain ⟨r', l', s', t', hs, ht, hp, hr⟩ :=
        receivePayload_lockstep h hl hr r₁ p.sequence payload now
      simp only [hs, ht]
      exact ⟨_, r', l', s', t', rfl, rfl, hp, hr⟩
    · exact ⟨_, _, l, s, t, rfl, rfl, hl, hr⟩

theorem flushAck_lockstep (h : sock.Alike sock' peer owned R) (hl : l.peer = peer) (hr : R s t)
    (now : Instant) : ∃ l' s' t', flushAck sock l now s = (l', s') ∧ flushAck sock' l now t = (l', t') ∧
      l'.peer = peer ∧ R s' t' := by
  unfold flushAck
  split
  · rename_i a acks _
    exact Link.sendQuietly_lockstep (l := { l with acks }) h hl hr (.ackOnly a) now
  · exact ⟨_, s, t, rfl, rfl, hl, hr⟩

theorem poll_lockstep (h : sock.Alike sock' peer owned R) (hl : l.peer = peer) (hr : R s t)
    (r : ReliableStream) (now : Instant) : ∃ result r' l' s' t',
      r.poll sock l now s = (result, r', l', s') ∧ r.poll sock' l now t = (result, r', l', t') ∧
        l'.peer = peer ∧ R s' t' := by
  unfold poll
  split
  · exact ⟨_, r, l, s, t, rfl, rfl, hl, hr⟩
  · obtain ⟨result, o, l₁, s₁, t₁, hs, ht, hp, hr⟩ := Outbound.drive_lockstep h hl hr r.outbound now
    simp only [hs, ht]
    cases result with
    | error e => exact ⟨_, _, l₁, s₁, t₁, rfl, rfl, hp, hr⟩
    | ok u =>
      obtain ⟨l₂, s₂, t₂, hs, ht, hp, hr⟩ := flushAck_lockstep h hp hr now
      simp only [hs, ht]
      exact ⟨_, _, l₂, s₂, t₂, rfl, rfl, hp, hr⟩

end ReliableStream

end DatagramStreams
