import DatagramStreams.Proofs.Stream.Keeping
import DatagramStreams.Transport.Recorder

/-! Which ACK is owed to the peer, and whether it waits to be sent. A payload that is heard puts the ACK up,
every packet that leaves takes it along, and a packet that is refused gives it back. An ACK that is sent on
its own is not given back: refused, it is gone until the next payload arrives.
Main statement: `OwedAckLog.Reached.waiting_ack`, which says of every moment whether the ACK waits.
-/

set_option autoImplicit false

namespace DatagramStreams

structure Tally where
  ack : Seq
  /-- A payload has asked for an ACK, and no packet with this one has left since. -/
  owed : Bool := false
  /-- Since the ACK was last put up, the socket has refused it as a packet of its own. -/
  mislaid : Bool := false
  sends : Nat := 0
  deriving DecidableEq, Repr

namespace Tally

/-- The `n`-th send ends as `fate n` has it; one that succeeds has no failure to name. -/
def send (fate : Nat → Option IoKind) (p : Packet) (t : Tally) : Except IoError Unit × Tally :=
  match fate t.sends with
  | none => (.ok (), { t with sends := t.sends + 1, owed := t.owed && p.ack ≠ some t.ack })
  | some k =>
    (.error (.injected k),
      { t with sends := t.sends + 1, mislaid := t.mislaid || p = Packet.ackOnly t.ack })

def socket (fate : Nat → Option IoKind) : Socket Tally where
  localAddress _ := .ok Recorder.address
  send _ := send fate
  receive _ t := (.error .nothingQueued, t)
  readable _ := .pending
  stillReadable _ := .pending
  writable _ := .ready
  stillWritable _ := .ready
  close t := t

def hear (t : Tally) (i : Inbound) (sequence : Seq) : Tally :=
  match i.classify sequence with
  | .expected => { t with ack := Seq.next i.sequence, owed := true, mislaid := false }
  | .ahead => { t with owed := true }
  | .duplicate => { t with owed := true, mislaid := false }

end Tally

structure Packet.Plain (p : Packet) : Prop where
  ack : p.ack = none
  withAck : ∀ a, p.withAck a ≠ .ackOnly a

/-- An ACK waits exactly when it is owed and has not been mislaid, and its delay runs. -/
structure Link.Balanced (l : Link) (t : Tally) : Prop where
  pending : l.acks.ack = if t.owed && !t.mislaid then some t.ack else none
  timer : l.acks.timer.isActive = l.acks.ack.isSome

theorem Packet.plain_carrying (isReliable : Bool) (s : Seq) (payload : Octets) :
    (carrying isReliable s payload).Plain :=
  ⟨rfl, fun a h => by simpa [carrying, withAck, ackOnly] using congrArg Packet.payload h⟩

theorem Packet.plain_closeNotice : closeNotice.Plain :=
  ⟨rfl, fun a h => by simpa [closeNotice, withAck, ackOnly] using congrArg Packet.close h⟩

namespace Link

variable {l : Link} {t : Tally} {p : Packet}

theorem Balanced.cleared (h : l.acks.ack = none) (ht : l.acks.timer.isActive = false)
    (hdone : (t.owed && !t.mislaid) = false) : l.Balanced t :=
  ⟨by simp [h, hdone], by simp [h, ht]⟩

theorem Balanced.waiting (h : l.Balanced t) (hw : (t.owed && !t.mislaid) = true) :
    l.acks.ack = some t.ack := by
  rw [h.pending, hw, if_pos rfl]

theorem Balanced.idle (h : l.Balanced t) (hw : (t.owed && !t.mislaid) = false) : l.acks.ack = none := by
  rw [h.pending, hw, if_neg (by simp)]

theorem Balanced.waits_of_passed (h : l.Balanced t) {now : Instant}
    (hp : l.acks.timer.hasPassed now l.acks.delay = true) : (t.owed && !t.mislaid) = true := by
  have hack : l.acks.ack.isSome := h.timer ▸ Timer.isActive_of_hasPassed hp
  cases hw : t.owed && !t.mislaid with
  | true => rfl
  | false => simp [h.idle hw] at hack

theorem Balanced.send_taken (h : l.Balanced t) (hp : p.Plain) {fate : Nat → Option IoKind}
    (hfate : fate t.sends = none) (now : Instant) : l.send (Tally.socket fate) p now t =
      (.ok true, { l with acks := l.acks.cleared },
        { t with sends := t.sends + 1, owed := t.owed && t.mislaid }) := by
  have hack : p.hasAck = false := by simp [Packet.hasAck, hp.ack]
  cases hw : t.owed && !t.mislaid with
  | true =>
    have hpaid : (t.owed && t.mislaid) = false := by simp_all
    simp [Link.send, attach, hack, AckHolder.take, h.waiting hw, loaded, Tally.socket, Tally.send, hfate,
      Packet.withAck, hpaid]
  | false =>
    have hkept : (t.owed && t.mislaid) = t.owed := by cases ho : t.owed <;> simp_all
    simp [Link.send, attach, hack, AckHolder.take, h.idle hw, loaded, Tally.socket, Tally.send, hfate, hp.ack,
      hkept]

theorem Balanced.send_refused (h : l.Balanced t) (hp : p.Plain) {fate : Nat → Option IoKind} {k : IoKind}
    (hfate : fate t.sends = some k) (now : Instant) : ∃ result l',
      l.send (Tally.socket fate) p now t = (result, l', { t with sends := t.sends + 1 }) ∧
        l'.Balanced { t with sends := t.sends + 1 } := by
  have hack : p.hasAck = false := by simp [Packet.hasAck, hp.ack]
  cases hw : t.owed && !t.mislaid with
  | true =>
    have hother : decide (p.withAck t.ack = .ackOnly t.ack) = false := decide_eq_false (hp.withAck t.ack)
    refine ⟨_, { l with acks := { l.acks with timer := .startedAt now } }, Prod.ext rfl ?_,
      h.pending, by simp [h.waiting hw]⟩
    simp [Link.send, attach, hack, AckHolder.take, h.waiting hw, loaded, Tally.socket, Tally.send, hfate,
      hother, giveBack, AckHolder.restore, AckHolder.cleared]
  | false =>
    have hother : decide (p = .ackOnly t.ack) = false :=
      decide_eq_false fun he => by simp [he, Packet.ackOnly, Packet.hasAck] at hack
    refine ⟨_, { l with acks := l.acks.cleared }, Prod.ext rfl ?_, .cleared rfl rfl hw⟩
    simp [Link.send, attach, hack, AckHolder.take, h.idle hw, loaded, Tally.socket, Tally.send, hfate,
      hother, giveBack]

theorem Balanced.send_bare (h : l.acks.ack = none) (ht : l.acks.timer.isActive = false)
    (fate : Nat → Option IoKind) (now : Instant) (t : Tally) : ∃ l' t',
      l.sendQuietly (Tally.socket fate) (.ackOnly t.ack) now t = (l', t') ∧ l'.Balanced t' ∧
        t'.ack = t.ack := by
  cases hfate : fate t.sends with
  | none =>
    refine ⟨l, { t with sends := t.sends + 1, owed := false }, ?_, .cleared h ht rfl, rfl⟩
    simp [sendQuietly, Link.send, attach, Packet.hasAck, loaded, Tally.socket, Tally.send, hfate,
      Packet.ackOnly]
  | some k =>
    refine ⟨l, { t with sends := t.sends + 1, mislaid := true }, ?_, .cleared h ht (by simp), rfl⟩
    simp [sendQuietly, Link.send, attach, Packet.hasAck, loaded, Tally.socket, Tally.send, hfate,
      Packet.ackOnly, giveBack]

end Link

/-- The ACK has left, or its delay is over at `now` and nothing will refuse it. -/
structure Link.Due (fate : Nat → Option IoKind) (now : Instant) (l : Link) (t : Tally) : Prop where
  balanced : l.Balanced t
  present : t.mislaid = false
  passed : t.owed = true → l.acks.timer.hasPassed now l.acks.delay = true
  taken : ∀ n, t.sends ≤ n → fate n = none

def Link.Keeps {σ : Type} (sock : Socket σ) (now : Instant) (lossy : Prop) (I : Link → σ → Prop) : Prop :=
  ∀ ⦃p l s⦄, p.Plain → I l s →
    ∃ result l' s', l.send sock p now s = (result, l', s') ∧ (result = .ok true ∨ lossy) ∧ I l' s'

/-- Whatever becomes of a packet, the ACK that waited waits again afterwards, or has left. -/
theorem Link.keeps_balanced (fate : Nat → Option IoKind) (now : Instant) (a : Seq) :
    Link.Keeps (Tally.socket fate) now True fun l t => l.Balanced t ∧ t.ack = a := by
  rintro p l t hp ⟨h, ha⟩
  cases hfate : fate t.sends with
  | none =>
    refine ⟨_, _, _, h.send_taken hp hfate now, .inr trivial, .cleared rfl rfl ?_, ha⟩
    cases t.owed <;> simp
  | some k =>
    obtain ⟨result, l', hs, h'⟩ := h.send_refused hp hfate now
    exact ⟨result, l', _, hs, .inr trivial, h', ha⟩

theorem Link.keeps_due (fate : Nat → Option IoKind) (now : Instant) :
    Link.Keeps (Tally.socket fate) now False (Link.Due fate now) := by
  intro p l t hp h
  have hpaid : (t.owed && t.mislaid) = false := by simp [h.present]
  refine ⟨_, _, _, h.balanced.send_taken hp (h.taken _ (Nat.le_refl _)) now, .inl rfl,
    .cleared rfl rfl (by simp [hpaid]), h.present, ?_, fun n hn => h.taken n (Nat.le_of_succ_le hn)⟩
  simp [hpaid]

def Outbound.Plain (o : Outbound) : Prop := ∀ p ∈ o.window.packets ++ o.queue.toList, p.Plain

namespace ReliableStream

variable {r : ReliableStream} {l : Link} {t : Tally}

theorem receivePayload_balanced (l : Link) (ht : t.ack = r.inbound.sequence) (sequence : Seq)
    (payload : Octets) (fate : Nat → Option IoKind) (now : Instant) : ∃ inbound l' t',
      r.receivePayload (Tally.socket fate) l sequence payload now (t.hear r.inbound sequence) =
          ({ r with inbound }, l', t') ∧ l'.Balanced t' ∧ t'.ack = inbound.sequence := by
  unfold receivePayload Tally.hear
  cases r.inbound.classify sequence with
  | expected => exact ⟨_, _, _, rfl, ⟨rfl, by simp [owe, AckHolder.set]⟩, rfl⟩
  | duplicate => exact ⟨r.inbound, _, _, rfl, ⟨by simp [owe, ht], by simp [owe, AckHolder.set]⟩, ht⟩
  | ahead =>
    obtain ⟨l', t', hs, h', ha⟩ := Link.Balanced.send_bare (l := { l with acks := l.acks.cleared }) rfl rfl
      fate now { t with owed := true }
    rw [← ht]
    exact ⟨r.inbound, l', t', congrArg (Prod.mk r) hs, h', ha.trans ht⟩

theorem flushAck_balanced (h : l.Balanced t) (fate : Nat → Option IoKind) (now : Instant) : ∃ l' t',
    flushAck (Tally.socket fate) l now t = (l', t') ∧ l'.Balanced t' ∧ t'.ack = t.ack := by
  unfold flushAck AckHolder.takeExpired
  cases hpassed : l.acks.timer.hasPassed now l.acks.delay with
  | false => exact ⟨l, t, rfl, h, rfl⟩
  | true =>
    simp only [AckHolder.take, h.waiting (h.waits_of_passed hpassed), if_true]
    exact Link.Balanced.send_bare (l := { l with acks := l.acks.cleared }) rfl rfl fate now t

theorem poll_balanced (ho : r.outbound.Plain) (h : l.Balanced t) (fate : Nat → Option IoKind)
    (now : Instant) : ∃ result outbound l' t',
      r.poll (Tally.socket fate) l now t = (result, { r with outbound }, l', t') ∧ outbound.Plain ∧
        l'.Balanced t' ∧ t'.ack = t.ack := by
  unfold poll
  split
  · exact ⟨_, r.outbound, l, t, rfl, ho, h, rfl⟩
  · obtain ⟨result, outbound, l₁, t₁, hs, -, ho₁, h₁, ha₁⟩ :=
      Outbound.drive_keeps (Link.keeps_balanced fate now t.ack) ho ⟨h, rfl⟩
    simp only [hs]
    cases result with
    | error e => exact ⟨_, outbound, l₁, t₁, rfl, ho₁, h₁, ha₁⟩
    | ok u =>
      obtain ⟨l₂, t₂, hs, h₂, ha₂⟩ := flushAck_balanced h₁ fate now
      simp only [hs]
      exact ⟨_, outbound, l₂, t₂, rfl, ho₁, h₂, ha₂.trans ha₁⟩

theorem flushAck_due {fate : Nat → Option IoKind} {now : Instant} (h : l.Due fate now t) :
    (flushAck (Tally.socket fate) l now t).2.owed = false := by
  have hfate := h.taken _ (Nat.le_refl _)
  cases howed : t.owed with
  | false =>
    have hack := h.balanced.idle (by simp [howed])
    cases hp : l.acks.timer.hasPassed now l.acks.delay <;>
      simpa [flushAck, AckHolder.takeExpired, hp, AckHolder.take, hack] using howed
  | true =>
    have hack := h.balanced.waiting (by simp [howed, h.present])
    simp [flushAck, AckHolder.takeExpired, h.passed howed, AckHolder.take, hack, Link.sendQuietly, Link.send,
      Link.attach, Packet.hasAck, Packet.ackOnly, Link.loaded, Tally.socket, Tally.send, hfate]

theorem poll_due (ho : r.outbound.Plain) {fate : Nat → Option IoKind} {now : Instant}
    (h : l.Due fate now t) (hlive : r.outbound.isDead now = false) :
    (r.poll (Tally.socket fate) l now t).1 = .ok .alive ∧
      (r.poll (Tally.socket fate) l now t).2.2.2.owed = false := by
  obtain ⟨result, outbound, l₁, t₁, hs, hok, -, h₁⟩ := Outbound.drive_keeps (Link.keeps_due fate now) ho h
  obtain rfl := hok.resolve_right id
  simp only [poll, hlive, hs]
  exact ⟨rfl, flushAck_due h₁⟩

end ReliableStream

/-- Both streams of a connection on their link, and the tally of what the peer is owed. -/
structure OwedAckLog where
  stream : ReliableStream
  unreliable : UnreliableStream
  link : Link
  tally : Tally

namespace OwedAckLog

inductive Act where
  | send (payload : Octets)
  | sendUnreliable (payload : Octets)
  | notice
  | receive (p : Packet)
  | receiveUnreliable (p : Packet)
  | poll
  | handOver
  | setSendTimeout (limit : Span)

def start (inn out : Seq) (config : Settings) (peer : Address) : OwedAckLog where
  stream := .new inn out config
  unreliable := .new inn out
  link := { peer, acks := { delay := config.ackDelay } }
  tally := { ack := inn }

def hears (a : OwedAckLog) (p : Packet) (now : Instant) : Tally :=
  match (a.stream.receiveAck p.ack now).1 with
  | .ok () => if p.reliable && p.hasPayload then a.tally.hear a.stream.inbound p.sequence else a.tally
  | .error _ => a.tally

def act (fate : Nat → Option IoKind) (now : Instant) (a : OwedAckLog) : Act → OwedAckLog
  | .send payload =>
    let (_, stream, link, tally) := a.stream.send (Tally.socket fate) a.link payload now a.tally
    { a with stream, link, tally }
  | .sendUnreliable payload =>
    let (_, unreliable, link, tally) := a.unreliable.send (Tally.socket fate) a.link payload now a.tally
    { a with unreliable, link, tally }
  | .notice =>
    let (link, tally) := a.link.sendQuietly (Tally.socket fate) .closeNotice now a.tally
    { a with link, tally }
  | .receive p =>
    let (_, stream, link, tally) :=
      a.stream.receive (Tally.socket fate) a.link p now (a.hears p now)
    { a with stream, link, tally }
  | .receiveUnreliable p => { a with unreliable := a.unreliable.receive p }
  | .poll =>
    let (_, stream, link, tally) := a.stream.poll (Tally.socket fate) a.link now a.tally
    { a with stream, link, tally }
  | .handOver =>
    { a with stream := a.stream.takeDelivered.2, unreliable := a.unreliable.takeDelivered.2 }
  | .setSendTimeout limit => { a with stream := a.stream.setSendTimeout limit }

/-- Every act has its instant; nothing is assumed of their order. -/
inductive Reached (fate : Nat → Option IoKind) (inn out : Seq) (config : Settings) (peer : Address) :
    OwedAckLog → Prop
  | start : Reached fate inn out config peer (start inn out config peer)
  | act {a : OwedAckLog} (now : Instant) (what : Act) :
      Reached fate inn out config peer a → Reached fate inn out config peer (a.act fate now what)

structure Balanced (a : OwedAckLog) : Prop where
  plain : a.stream.outbound.Plain
  balanced : a.link.Balanced a.tally
  ack : a.tally.ack = a.stream.inbound.sequence

theorem balanced_start (inn out : Seq) (config : Settings) (peer : Address) :
    (start inn out config peer).Balanced where
  plain := by
    intro p hp
    simp [start, ReliableStream.new, Outbound.new, SendWindow.packets, SendWindow.setFastRetransmit,
      SendWindow.new] at hp
  balanced := .cleared rfl rfl rfl
  ack := rfl

theorem Balanced.receive {a : OwedAckLog} (h : a.Balanced) (p : Packet) (fate : Nat → Option IoKind)
    (now : Instant) : (a.act fate now (.receive p)).Balanced := by
  obtain ⟨result, outbound, hs, ho⟩ := ReliableStream.receiveAck_each h.plain p.ack now
  simp only [OwedAckLog.act, ReliableStream.receive, hears, hs]
  cases result with
  | error e => exact ⟨ho, h.balanced, h.ack⟩
  | ok u =>
    cases hr : p.reliable with
    | false => exact ⟨ho, h.balanced, h.ack⟩
    | true =>
      cases hp : p.payload with
      | none =>
        simp only [Packet.hasPayload, hp]
        exact ⟨ho, h.balanced, h.ack⟩
      | some payload =>
        obtain ⟨inbound, l, t, hs, hl, ha⟩ := ReliableStream.receivePayload_balanced
          (r := { a.stream with outbound }) a.link h.ack p.sequence payload fate now
        simp only [Packet.hasPayload, hp, Option.isSome_some, Bool.and_self, if_true, hs]
        exact ⟨ho, hl, ha⟩

theorem Balanced.act {a : OwedAckLog} (h : a.Balanced) (fate : Nat → Option IoKind) (now : Instant)
    (what : Act) : (a.act fate now what).Balanced := by
  cases what with
  | receive p => exact h.receive p fate now
  | send payload =>
    obtain ⟨_, o, l, t, hs, ho, hl, ha⟩ :=
      Outbound.send_keeps (Link.keeps_balanced fate now _) (Packet.plain_carrying true) h.plain ⟨h.balanced, h.ack⟩
        payload
    simp only [OwedAckLog.act, ReliableStream.send, hs]
    exact ⟨ho, hl, ha⟩
  | sendUnreliable payload =>
    obtain ⟨_, u, l, t, hs, hl, ha⟩ :=
      UnreliableStream.send_keeps (Link.keeps_balanced fate now _) (Packet.plain_carrying false)
        ⟨h.balanced, h.ack⟩ a.unreliable payload
    simp only [OwedAckLog.act, hs]
    exact ⟨h.plain, hl, ha⟩
  | notice =>
    obtain ⟨_, l, t, hs, -, hl, ha⟩ :=
      Link.keeps_balanced fate now _ Packet.plain_closeNotice ⟨h.balanced, h.ack⟩
    simp only [OwedAckLog.act, Link.sendQuietly, hs]
    exact ⟨h.plain, hl, ha⟩
  | poll =>
    obtain ⟨_, o, l, t, hs, ho, hl, ha⟩ := ReliableStream.poll_balanced h.plain h.balanced fate now
    simp only [OwedAckLog.act, hs]
    exact ⟨ho, hl, ha.trans h.ack⟩
  | receiveUnreliable p => exact ⟨h.plain, h.balanced, h.ack⟩
  | handOver => exact ⟨h.plain, h.balanced, h.ack⟩
  | setSendTimeout limit => exact ⟨h.plain, h.balanced, h.ack⟩

theorem Reached.balanced {fate : Nat → Option IoKind} {inn out : Seq} {config : Settings} {peer : Address}
    {a : OwedAckLog} (h : Reached fate inn out config peer a) : a.Balanced := by
  induction h with
  | start => exact balanced_start inn out config peer
  | act now what _ ih => exact ih.act fate now what

/-- The ACK waits, its delay running, as long as it is owed and has not been refused as a packet of its
own. Nothing else loses it: not a packet of either stream that is refused, not a failure halfway through
a round of retransmissions. Once its delay is over, a poll hands it to a socket that takes packets. -/
theorem Reached.waiting_ack {fate : Nat → Option IoKind} {inn out : Seq} {config : Settings} {peer : Address}
    {a : OwedAckLog} (h : Reached fate inn out config peer a) :
    a.link.acks.ack =
        (if a.tally.owed && !a.tally.mislaid then some a.stream.inbound.sequence else none) ∧
      a.link.acks.timer.isActive = a.link.acks.ack.isSome ∧
      ∀ now, a.link.acks.timer.hasPassed now a.link.acks.delay = true →
        a.stream.outbound.isDead now = false → (∀ n, a.tally.sends ≤ n → fate n = none) →
        (a.act fate now .poll).tally.owed = false := by
  obtain ⟨hplain, hsettled, hack⟩ := h.balanced
  have hpending := hsettled.pending
  rw [hack] at hpending
  refine ⟨hpending, hsettled.timer, fun now hpassed hlive htaken => ?_⟩
  have hpresent : a.tally.mislaid = false := by
    simpa using (Bool.and_eq_true_iff.mp (hsettled.waits_of_passed hpassed)).2
  exact (ReliableStream.poll_due hplain ⟨hsettled, hpresent, fun _ => hpassed, htaken⟩ hlive).2

def firstRefused : Nat → Option IoKind
  | 0 => some .wouldBlock
  | _ => none

theorem Reached.waiting_ack_refused_payload : ∃ a, Reached firstRefused 100 0 {} Recorder.address a ∧
    a.stream.outbound.queue.size = 1 ∧ a.link.acks.ack = some 101 ∧
      (a.act firstRefused 60000000 .poll).tally.owed = false := by
  have h : Reached firstRefused 100 0 {} Recorder.address _ :=
    .act 1 (.send [7]) (.act 0 (.receive (.carrying true 100 [1])) .start)
  obtain ⟨hack, -, hpoll⟩ := h.waiting_ack
  refine ⟨_, h, by decide +kernel, hack.trans (by decide +kernel),
    hpoll 60000000 (by decide +kernel) (by decide +kernel) ?_⟩
  rintro (_ | n) hn
  · exact absurd hn (by decide +kernel)
  · rfl

/-- The delay of an ACK is over, the socket would block, and the ACK is forgotten. -/
theorem Reached.owed_ack_lost : ¬ ∀ fate inn out config peer a, Reached fate inn out config peer a →
    a.tally.owed = true → a.link.acks.ack = some a.stream.inbound.sequence := by
  intro hall
  have h : Reached firstRefused 100 0 {} Recorder.address _ :=
    .act 51000000 .poll (.act 0 (.receive (.carrying true 100 [1])) .start)
  exact absurd (hall _ _ _ _ _ _ h (by decide +kernel)) (by decide +kernel)

end OwedAckLog

end DatagramStreams
