import DatagramStreams.Proofs.Session.Turns
import DatagramStreams.Proofs.Stream.Keeping

/-! What the turns of a connection keep. As long as the connection is open its streams keep whatever each of
their sends keeps; when it leaves, it sends a notice of its own or was told by the peer, and gives the socket
back if that is its own. Nothing happens after that.
Main statement: `Turn.run_guarded`.
-/

set_option autoImplicit false

namespace DatagramStreams.Connection

open ReliableStream (KeepsAck MovesOn)

variable {σ : Type}

inductive Cause where
  /-- The application, a violation, a silent peer, or a failing socket. -/
  | itself
  | peer
  deriving DecidableEq

def Turn.cause : Turn → Cause
  | .use _ => .itself
  | .arrival _ p => if p.close then .peer else .itself

/-- What keeps `K`, of the next ACK, the link and its socket, while a connection is open, and has `L` hold when
it leaves. Its streams have to do with packets of kind `P` only. -/
structure Custody (sock : Socket σ) (now : Instant) (owned : Bool) (P : Packet → Prop)
    (K : Seq → Link → σ → Prop) (L : Cause → Seq → Link → σ → Prop) : Prop where
  fresh : ∀ reliable sequence payload, P (.carrying reliable sequence payload)
  send : ∀ a, Link.KeepsEach P sock now True (K a)
  acks : KeepsAck sock now K
  close : ∀ ⦃a l s⦄, K a l s → let (l', s') := l.sendQuietly sock .closeNotice now s
    L .itself a l' (if owned then sock.close s' else s')
  closedByPeer : ∀ ⦃a l s⦄, K a l s → L .peer a l (if owned then sock.close s else s)

/-- `K` holds of the open connection, `L` of one that has left. -/
structure Guarded (owned : Bool) (P : Packet → Prop) (K L : Seq → Link → σ → Prop) (c : Connection)
    (s : σ) : Prop where
  ownsSocket : c.ownsSocket = owned
  each : c.reliable.outbound.Each P
  opened : c.state = .opened → K c.reliable.inbound.sequence c.link s
  left : c.state ≠ .opened → L c.reliable.inbound.sequence c.link s

variable {sock : Socket σ} {now : Instant} {owned : Bool} {P : Packet → Prop} {K : Seq → Link → σ → Prop}
  {L : Cause → Seq → Link → σ → Prop} {c : Connection} {s : σ}

theorem Guarded.record {K L : Seq → Link → σ → Prop} (h : Guarded owned P K L c s) (what : Happening) :
    Guarded owned P K L (c.record what) s :=
  ⟨h.ownsSocket, h.each, h.opened, h.left⟩

theorem Guarded.mono {K K' L : Seq → Link → σ → Prop} (hK : ∀ ⦃a l s⦄, K a l s → K' a l s)
    (h : Guarded owned P K L c s) : Guarded owned P K' L c s :=
  ⟨h.ownsSocket, h.each, fun ho => hK (h.opened ho), h.left⟩

theorem Guarded.always {K : Seq → Link → σ → Prop} (h : Guarded owned P K K c s) :
    K c.reliable.inbound.sequence c.link s := by
  by_cases hstate : c.state = .opened
  · exact h.opened hstate
  · exact h.left hstate

theorem Guarded.still {K L : Seq → Link → σ → Prop} (hstate : c.state = .opened)
    (howns : c.ownsSocket = owned) (heach : c.reliable.outbound.Each P)
    (h : K c.reliable.inbound.sequence c.link s) : Guarded owned P K L c s :=
  ⟨howns, heach, fun _ => h, fun hl => absurd hstate hl⟩

section

variable (h : Custody sock now owned P K L)

include h

theorem close_guarded (hc : Guarded owned P K (L .itself) c s) :
    Guarded owned P K (L .itself) (c.close sock now s).1 (c.close sock now s).2 := by
  unfold close
  split
  · rename_i hstate
    have hleft := h.close (hc.opened hstate)
    refine ⟨hc.ownsSocket, hc.each, nofun, fun _ => ?_⟩
    simpa only [releaseSocket, hc.ownsSocket] using hleft
  · exact hc

theorem closedByPeer_guarded (hc : Guarded owned P K (L .peer) c s) :
    Guarded owned P K (L .peer) (c.closedByPeer sock s).1 (c.closedByPeer sock s).2 := by
  unfold closedByPeer
  split
  · rename_i hstate
    have hleft := h.closedByPeer (hc.opened hstate)
    refine ⟨hc.ownsSocket, hc.each, nofun, fun _ => ?_⟩
    simpa only [releaseSocket, hc.ownsSocket] using hleft
  · exact hc

theorem closeIfFatal_guarded (hc : Guarded owned P K (L .itself) c s)
    (result : Except ConnectionError Unit) : Guarded owned P K (L .itself)
      (c.closeIfFatal sock result now s).2.1 (c.closeIfFatal sock result now s).2.2 := by
  cases result with
  | ok u => exact hc
  | error e =>
    simp only [closeIfFatal]
    split
    · exact close_guarded h hc
    · exact hc

theorem sendReliable_guarded (hc : Guarded owned P K (L .itself) c s) (payload : Octets) :
    Guarded owned P K (L .itself) (c.sendReliable sock payload now s).2.1
      (c.sendReliable sock payload now s).2.2 := by
  by_cases hstate : c.state = .opened
  · obtain ⟨result, o, l, s', hs, ho, hk⟩ :=
      Outbound.send_keeps (h.send _) (h.fresh true) hc.each (hc.opened hstate) payload
    have hopen : c.isOpen = true := decide_eq_true hstate
    have hc' : Guarded owned P K (L .itself) { c with
        reliable := { c.reliable with outbound := o }
        link := l
        journal := c.journal.noteSend payload result } s' := .still hstate hc.ownsSocket ho hk
    simp only [sendReliable, hopen, ReliableStream.send, hs, Bool.not_true, Bool.false_eq_true, if_false]
    exact closeIfFatal_guarded h hc' result
  · rw [sendReliable_of_not_opened hstate]
    exact hc

theorem sendUnreliable_guarded (hc : Guarded owned P K (L .itself) c s) (payload : Octets) :
    Guarded owned P K (L .itself) (c.sendUnreliable sock payload now s).2.1
      (c.sendUnreliable sock payload now s).2.2 := by
  by_cases hstate : c.state = .opened
  · obtain ⟨result, u, l, s', hs, hk⟩ :=
      UnreliableStream.send_keeps (h.send _) (h.fresh false) (hc.opened hstate) c.unreliable payload
    have hopen : c.isOpen = true := decide_eq_true hstate
    have hc' : Guarded owned P K (L .itself) { c with unreliable := u, link := l } s' :=
      .still hstate hc.ownsSocket hc.each hk
    simp only [sendUnreliable, hopen, hs, Bool.not_true, Bool.false_eq_true, if_false]
    exact closeIfFatal_guarded h hc' result
  · rw [sendUnreliable_of_not_opened hstate]
    exact hc

theorem perform_guarded (hc : Guarded owned P K (L .itself) c s) (action : Action) :
    Guarded owned P K (L .itself) (c.perform sock now s action).1 (c.perform sock now s action).2 := by
  cases action with
  | sendReliable payload => exact (sendReliable_guarded h hc payload).record _
  | sendUnreliable payload => exact (sendUnreliable_guarded h hc payload).record _
  | close => exact (close_guarded h hc).record _
  | askState => exact hc.record _

theorem performAll_guarded (hc : Guarded owned P K (L .itself) c s) (actions : List Action) :
    Guarded owned P K (L .itself) (performAll sock now actions c s).1
      (performAll sock now actions c s).2 := by
  induction actions generalizing c s with
  | nil => exact hc
  | cons action rest ih => exact ih (perform_guarded h hc action)

theorem notify_guarded (hc : Guarded owned P K (L .itself) c s) (call : Callback) :
    Guarded owned P K (L .itself) (c.notify sock now call s).1 (c.notify sock now call s).2 :=
  performAll_guarded h (hc.record _) _

theorem notifyAll_guarded (hc : Guarded owned P K (L .itself) c s) (calls : List Callback) :
    Guarded owned P K (L .itself) (notifyAll sock now calls c s).1 (notifyAll sock now calls c s).2 := by
  induction calls generalizing c s with
  | nil => exact hc
  | cons call rest ih => exact ih (notify_guarded h hc call)

theorem announce_guarded (hc : Guarded owned P K (L .itself) c s) :
    Guarded owned P K (L .itself) (c.announce sock now s).1 (c.announce sock now s).2 := by
  unfold announce
  split
  · exact hc
  · have hc' : Guarded owned P K (L .itself) { c with announced := true } s :=
      ⟨hc.ownsSocket, hc.each, hc.opened, hc.left⟩
    exact notify_guarded h hc' .opened

theorem dispatch_guarded (hc : Guarded owned P K (L .itself) c s) :
    Guarded owned P K (L .itself) (c.dispatch sock now s).1 (c.dispatch sock now s).2 := by
  have hc' : Guarded owned P K (L .itself) c.emptied s := ⟨hc.ownsSocket, hc.each, hc.opened, hc.left⟩
  exact notifyAll_guarded h hc' _

theorem finishClose_guarded (hc : Guarded owned P K (L .itself) c s) :
    Guarded owned P K (L .itself) (c.finishClose sock now s).1 (c.finishClose sock now s).2 := by
  unfold finishClose
  split
  · rename_i hstate
    have hc' : Guarded owned P K (L .itself) { c with state := .closed } s :=
      ⟨hc.ownsSocket, hc.each, nofun, fun _ => hc.left (by simp [hstate])⟩
    exact notify_guarded h hc' .closed
  · exact hc

theorem pollStream_guarded (hc : Guarded owned P K (L .itself) c s) (hstate : c.state = .opened) :
    Guarded owned P K (L .itself) (c.pollStream sock now s).1 (c.pollStream sock now s).2 := by
  obtain ⟨health, o, l, s', hs, ho, hk⟩ :=
    ReliableStream.poll_keeps (h.send _) h.acks hc.each (hc.opened hstate)
  have hc' : Guarded owned P K (L .itself)
      { c with reliable := { c.reliable with outbound := o }, link := l } s' :=
    .still hstate hc.ownsSocket ho hk
  simp only [pollStream, hs]
  split
  · exact hc'
  · exact close_guarded h hc'

theorem poll_guarded (hc : Guarded owned P K (L .itself) c s) :
    Guarded owned P K (L .itself) (c.poll sock now s).2.1 (c.poll sock now s).2.2 := by
  have ha := announce_guarded h hc
  unfold poll
  split
  · exact hc
  · exact finishClose_guarded h ha
  · have hd := dispatch_guarded h ha
    simp only
    split
    · rename_i hopen
      exact pollStream_guarded h hd (of_decide_eq_true hopen)
    · exact hd

omit h in
theorem receiveUnreliable_guarded {K L : Seq → Link → σ → Prop} (hc : Guarded owned P K L c s)
    (p : Packet) : Guarded owned P K L (c.receiveUnreliable p) s := by
  unfold receiveUnreliable
  split
  · exact ⟨hc.ownsSocket, hc.each, hc.opened, hc.left⟩
  · exact hc

variable {K' : Seq → Link → σ → Prop} (hnext : MovesOn now K K' s)

include hnext

theorem receiveData_guarded (hc : Guarded owned P K (L .itself) c s) (hstate : c.state = .opened)
    (p : Packet) : Guarded owned P K' (L .itself)
      (c.receiveData sock p now s).2.1 (c.receiveData sock p now s).2.2 := by
  unfold receiveData
  split
  · obtain ⟨result, r, l, s', hs, ho, hk⟩ :=
      ReliableStream.receive_keeps h.acks hnext hc.each (hc.opened hstate) p
    simp only [hs]
    cases result with
    | ok u =>
      have hc' : Guarded owned P K' (L .itself) { c with reliable := r, link := l } s' :=
        .still hstate hc.ownsSocket ho hk
      exact receiveUnreliable_guarded hc' p
    | error e =>
      have hc' : Guarded owned P K (L .itself) { c with reliable := r, link := l } s' :=
        .still hstate hc.ownsSocket ho hk
      exact (close_guarded h hc').mono hnext.stays
  · exact (receiveUnreliable_guarded hc p).mono hnext.stays

theorem receive_guarded (source : Address) (p : Packet)
    (hc : Guarded owned P K (L (Turn.cause (.arrival source p))) c s) :
    Guarded owned P K' (L (Turn.cause (.arrival source p))) (c.receive sock source p now s).2.1
      (c.receive sock source p now s).2.2 := by
  by_cases hdeaf : (!c.isOpen || source ≠ c.peer || p.connectRequest) = true
  · rw [receive, if_pos hdeaf]
    exact hc.mono hnext.stays
  · have hstate : c.state = .opened := by
      simp only [Bool.not_eq_true, Bool.or_eq_false_iff, Bool.not_eq_false'] at hdeaf
      exact of_decide_eq_true hdeaf.1.1
    rw [receive, if_neg hdeaf]
    simp only [Turn.cause] at hc ⊢
    cases hclose : p.close with
    | true =>
      rw [hclose] at hc
      exact (closedByPeer_guarded h hc).mono hnext.stays
    | false =>
      rw [hclose] at hc
      exact receiveData_guarded h hnext hc hstate p

/-- A turn accepts a payload, if any, before it does anything to the socket. -/
theorem Turn.run_guarded (turn : Turn) (hc : Guarded owned P K (L turn.cause) c s) :
    Guarded owned P K' (L turn.cause) (turn.run sock now c s).1 (turn.run sock now c s).2 := by
  cases turn with
  | arrival source p => exact receive_guarded h hnext source p hc
  | use what =>
    have hc' : Guarded owned P K (L .itself) (what.run sock now c s).1 (what.run sock now c s).2 := by
      cases what with
      | sendReliable payload => exact sendReliable_guarded h hc payload
      | sendUnreliable payload => exact sendUnreliable_guarded h hc payload
      | setSendTimeout limit => exact ⟨hc.ownsSocket, hc.each, hc.opened, hc.left⟩
      | poll => exact poll_guarded h hc
      | close => exact close_guarded h hc
    exact hc'.mono hnext.stays

end

end DatagramStreams.Connection
