import DatagramStreams.Proofs.Session.Closing

/-! ACKs that a connection emits. The holder has the ACK for everything accepted so far or none at all, packets
that are kept have none, and so whatever leaves with an ACK leaves with the current one: a packet of its own, a
payload, a retransmission or the notice, and whether or not the ACK was given back before.
Main statement: `ClosingLog.Reached.acks_current`.
-/

set_option autoImplicit false

namespace DatagramStreams

def AckHolder.Current (a : Seq) (h : AckHolder) : Prop :=
  h.ack = none ∧ h.timer.isActive = false ∨ h.ack = some a ∧ h.timer.isActive = true

namespace AckHolder

variable {a : Seq} {h : AckHolder}

theorem Current.offers (hc : h.Current a) : h.Offers a := by
  intro x hx
  rcases hc with ⟨hack, -⟩ | ⟨hack, -⟩ <;> rw [hack] at hx
  · cases hx
  · exact (Option.some.inj hx).symm

theorem current_cleared (a : Seq) (h : AckHolder) : h.cleared.Current a := .inl ⟨rfl, rfl⟩

theorem current_set (h : AckHolder) (a : Seq) (now : Instant) : (h.set a now).Current a :=
  .inr ⟨rfl, Timer.isActive_ensureStarted _ _⟩

theorem Current.takeExpired (hc : h.Current a) (now : Instant) : (h.takeExpired now).2.Current a := by
  unfold AckHolder.takeExpired
  split
  · exact current_cleared a h
  · exact hc

end AckHolder

variable {σ : Type} {sock : Socket σ} {now : Instant} {a : Seq} {l : Link} {w : Watched σ}

namespace Link

theorem attach_current (h : l.acks.Current a) (p : Packet) : (l.attach p).2.acks.Current a := by
  unfold attach
  split
  · exact h
  · exact AckHolder.current_cleared a l.acks

/-- The holder was emptied for the packet, so that what it gives back finds no newer ACK there. -/
theorem giveBack_current (h : l.acks.Current a) (p : Packet) (now : Instant) :
    ((l.attach p).2.giveBack (l.attach p).1 now).acks.Current a := by
  unfold attach
  split
  · exact h
  · rcases h with ⟨hack, -⟩ | ⟨hack, -⟩
    · simp only [AckHolder.take, hack]
      exact AckHolder.current_cleared a l.acks
    · simp only [AckHolder.take, hack]
      exact .inr ⟨rfl, rfl⟩

theorem send_current (h : l.acks.Current a) (sock : Socket σ) (p : Packet) (now : Instant) (s : σ) :
    (l.send sock p now s).2.1.acks.Current a := by
  unfold send
  rcases hs : sock.send l.peer (loaded p (l.attach p).1) s with ⟨e | u, s'⟩ <;> simp only [hs]
  · exact giveBack_current h p now
  · exact attach_current h p

end Link

/-- What a turn has offered to the socket since `before`, when it began with the sequence `start` and is at
`a` by now. -/
structure Emitting (before : List (Address × Packet)) (start a : Seq) (l : Link) (w : Watched σ) : Prop where
  acks : l.acks.Current a
  attempts : ∃ new, w.attempts = before ++ new ∧ (∀ x ∈ new, x.2.Acks start) ∧ (new = [] ∨ a = start)

variable {before : List (Address × Packet)} {start : Seq} {p : Packet}

theorem Emitting.send (h : Emitting before start start l w) (sock : Socket σ) (hp : p.Acks start)
    (now : Instant) : ∃ result l' w', l.send sock.watched p now w = (result, l', w') ∧
      Emitting before start start l' w' := by
  obtain ⟨new, hw, hnew, -⟩ := h.attempts
  obtain ⟨result, l', w', hs, -, hattempts⟩ := l.send_watched sock p now w
  have hacks := Link.send_current h.acks sock.watched p now w
  rw [hs] at hacks
  refine ⟨result, l', w', hs, hacks, new ++ [(l.peer, Link.loaded p (l.attach p).1)], ?_, ?_, .inr rfl⟩
  · rw [hattempts, hw, List.append_assoc]
  · intro x hx
    rcases List.mem_append.mp hx with hx | hx
    · exact hnew x hx
    · rw [List.mem_singleton.mp hx]
      exact (Link.attach_offers h.acks.offers p).2 hp

theorem Emitting.hold (h : Emitting before start a l w) {acks : AckHolder} (ha : acks.Current a) :
    Emitting before start a { l with acks } w :=
  ⟨ha, h.attempts⟩

theorem Emitting.release (h : Emitting before start a l w) (sock : Socket σ) (owned : Bool) :
    Emitting before start a l (if owned then sock.watched.close w else w) :=
  ⟨h.acks, by rw [Socket.attempts_release]; exact h.attempts⟩

theorem Emitting.sendQuietly (h : Emitting before start start l w) (sock : Socket σ) (hp : p.Acks start)
    (now : Instant) : Emitting before start start (l.sendQuietly sock.watched p now w).1
      (l.sendQuietly sock.watched p now w).2 := by
  obtain ⟨result, l', w', hs, h'⟩ := h.send sock hp now
  simp only [Link.sendQuietly, hs]
  exact h'

open ReliableStream (KeepsAck MovesOn)

theorem keepsAck_emitting (sock : Socket σ) (now : Instant) (before : List (Address × Packet))
    (start : Seq) : KeepsAck sock.watched now fun a l (w : Watched σ) =>
      a = start ∧ Emitting before start a l w where
  owe := by
    rintro a l w ⟨ha, h⟩
    exact ⟨ha, h.hold (AckHolder.current_set l.acks a now)⟩
  ackNow := by
    rintro a l w ⟨rfl, h⟩
    exact ⟨rfl, (h.hold (AckHolder.current_cleared a l.acks)).sendQuietly sock (Packet.acks_ackOnly a) now⟩
  flushAck := by
    rintro a l w ⟨rfl, h⟩
    have hacks := h.acks.takeExpired now
    have hoffers : ∀ x, (l.acks.takeExpired now).1 = some x → x = a := fun x hx =>
      h.acks.offers x (AckHolder.takeExpired_fst_eq_some.mp hx).2
    unfold ReliableStream.flushAck
    rcases hx : l.acks.takeExpired now with ⟨_ | x, acks⟩ <;> rw [hx] at hacks hoffers
    · exact ⟨rfl, h.hold hacks⟩
    · rw [hoffers x rfl]
      exact ⟨rfl, (h.hold hacks).sendQuietly sock (Packet.acks_ackOnly a) now⟩

theorem Packet.acks_of_none (hp : p.ack = none) (a : Seq) : p.Acks a := by
  simp [Acks, hp]

namespace Connection

theorem custody_emitting (sock : Socket σ) (now : Instant) (owned : Bool)
    (before : List (Address × Packet)) (start : Seq) : Custody sock.watched now owned (·.ack = none)
      (fun a l w => a = start ∧ Emitting before start a l w) (fun _ => Emitting before start) where
  fresh _ _ _ := rfl
  send := by
    rintro a p l w hp ⟨rfl, h⟩
    obtain ⟨result, l', w', hs, h'⟩ := h.send sock (Packet.acks_of_none hp a) now
    exact ⟨result, l', w', hs, .inr trivial, rfl, h'⟩
  acks := keepsAck_emitting sock now before start
  close := by
    rintro a l w ⟨rfl, h⟩
    exact (h.sendQuietly sock (Packet.acks_of_none rfl a) now).release sock owned
  closedByPeer := by
    rintro a l w ⟨-, h⟩
    exact h.release sock owned

theorem movesOn_emitting (now : Instant) (start : Seq) (w : Watched σ) :
    MovesOn now (fun a l w' => a = start ∧ Emitting w.attempts start a l w')
      (Emitting w.attempts start) w where
  stays := fun _ _ _ h => h.2
  next := by
    rintro a l ⟨-, h⟩
    refine ⟨AckHolder.current_set l.acks _ now, [], ?_, by simp, .inl rfl⟩
    rw [List.append_nil]

/-- The ACK that waits is the current one, and no packet has been kept together with an ACK. -/
structure AcksCurrent (c : Connection) : Prop where
  holder : c.link.acks.Current c.reliable.inbound.sequence
  kept : c.reliable.outbound.Each (·.ack = none)

theorem AcksCurrent.guarded {c : Connection} (h : c.AcksCurrent) (w : Watched σ) :
    Guarded c.ownsSocket (·.ack = none)
      (fun a l w' => a = c.reliable.inbound.sequence ∧
        Emitting w.attempts c.reliable.inbound.sequence a l w')
      (Emitting w.attempts c.reliable.inbound.sequence) c w := by
  have hstart : Emitting w.attempts c.reliable.inbound.sequence c.reliable.inbound.sequence c.link w :=
    ⟨h.holder, [], (List.append_nil _).symm, by simp, .inr rfl⟩
  exact ⟨rfl, h.kept, fun _ => ⟨rfl, hstart⟩, fun _ => hstart⟩

theorem AcksCurrent.turn {c : Connection} (h : c.AcksCurrent) (sock : Socket σ) (turn : Turn)
    (now : Instant) (w : Watched σ) :
    let (c', w') := turn.run sock.watched now c w
    c'.AcksCurrent ∧
      Emitting w.attempts c.reliable.inbound.sequence c'.reliable.inbound.sequence c'.link w' := by
  have hrun := turn.run_guarded
    (custody_emitting sock now c.ownsSocket w.attempts c.reliable.inbound.sequence)
    (movesOn_emitting now c.reliable.inbound.sequence w) (h.guarded w)
  exact ⟨⟨hrun.always.acks, hrun.each⟩, hrun.always⟩

end Connection

namespace ClosingLog

open Connection (Turn)

theorem Reached.holds_current {a : ClosingLog} (h : Reached sock a) : a.conn.AcksCurrent := by
  induction h with
  | establish peer sequenceIn sequenceOut config handler ownsSocket =>
    refine ⟨.inl ⟨rfl, rfl⟩, fun p hp => ?_⟩
    simp [Connection.establish, ReliableStream.new, Outbound.new, SendWindow.packets,
      SendWindow.setFastRetransmit, SendWindow.new] at hp
  | @turn a _ turn now s ih => exact (ih.turn sock turn now ⟨s, a.attempts⟩).1

/-- At any moment of a run the holder has the ACK for everything accepted so far, its delay running, or none.
No packet in flight or in the queue has an ACK. Whatever a turn offers to the socket has the current ACK or
none, taken by the socket or not, and the ACK does not move on in a turn that offers anything. -/
theorem Reached.acks_current {a : ClosingLog} (h : Reached sock a) : let sequence := a.conn.reliable.inbound.sequence
    (a.conn.link.acks.ack = none ∧ a.conn.link.acks.timer.isActive = false ∨
      a.conn.link.acks.ack = some sequence ∧ a.conn.link.acks.timer.isActive = true) ∧
    (∀ p ∈ a.conn.reliable.outbound.window.packets ++ a.conn.reliable.outbound.queue.toList,
      p.ack = none) ∧
    ∀ (turn : Turn) (now : Instant) (s : σ), let a' := a.turn sock turn now s
      a'.conn = (turn.run sock now a.conn s).1 ∧
      ∃ new, a'.attempts = a.attempts ++ new ∧
        (∀ target p x, (target, p) ∈ new → p.ack = some x → x = sequence) ∧
        (new = [] ∨ a'.conn.reliable.inbound.sequence = sequence) := by
  have hcurrent := h.holds_current
  refine ⟨hcurrent.holder, hcurrent.kept, fun turn now s => ⟨a.turn_conn sock turn now s, ?_⟩⟩
  obtain ⟨-, -, new, hattempts, hacks, hsequence⟩ := hcurrent.turn sock turn now ⟨s, a.attempts⟩
  exact ⟨new, hattempts, fun target p x hx => hacks (target, p) hx x, hsequence⟩

/-- A payload is accepted and its ACK refused together with a packet. The packet waits without the ACK, another
payload is accepted meanwhile, and the packet leaves with the newer ACK. -/
theorem Reached.acks_current_after_refusal :
    let a₀ : ClosingLog := { conn := .establish Recorder.address 7 0 {} (.ofScript {}) true }
    let a₁ := a₀.turn Recorder.socket (.arrival Recorder.address (.carrying true 7 [1])) 0 {}
    let a₂ := a₁.turn Recorder.socket (.use (.sendReliable [5])) 1 (.playing [some .wouldBlock])
    let a₃ := a₂.turn Recorder.socket (.arrival Recorder.address (.carrying true 8 [2])) 2 {}
    let a₄ := a₃.turn Recorder.socket (.use .poll) 3 {}
    a₂.conn.link.acks.ack = some 8 ∧ a₃.conn.link.acks.ack = some 9 ∧ a₄.conn.link.acks.ack = none ∧
      a₃.conn.reliable.outbound.queue.toList = [.carrying true 0 [5]] ∧
      a₄.attempts = [(Recorder.address, (Packet.carrying true 0 [5]).withAck 8),
        (Recorder.address, (Packet.carrying true 0 [5]).withAck 9)] ∧
      ∀ p ∈ a₄.conn.reliable.outbound.window.packets ++ a₄.conn.reliable.outbound.queue.toList,
        p.ack = none := by
  intro a₀ a₁ a₂ a₃ a₄
  have h₀ : Reached Recorder.socket a₀ := .establish Recorder.address 7 0 {} (.ofScript {}) true
  have h₁ : Reached Recorder.socket a₁ := h₀.turn _ 0 {}
  have h₂ : Reached Recorder.socket a₂ := h₁.turn _ 1 (.playing [some .wouldBlock])
  have h₃ : Reached Recorder.socket a₃ := h₂.turn _ 2 {}
  have h₄ : Reached Recorder.socket a₄ := h₃.turn _ 3 {}
  obtain ⟨-, hkept, -⟩ := h₄.acks_current
  exact ⟨by decide +kernel, by decide +kernel, by decide +kernel, by decide +kernel, by decide +kernel, hkept⟩

end ClosingLog

end DatagramStreams
