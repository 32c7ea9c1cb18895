import DatagramStreams.Proofs.Session.Keeping

/-! How a connection leaves the open state, and what it still sends. An observer notes every packet that is
offered to the socket, and what made the state leave. A connection that closes for a reason of its own offers
one notice, and this is the last packet it offers.
Main statement: `ClosingLog.closing_final`.
-/

set_option autoImplicit false

namespace DatagramStreams

/-- A socket's state and all that was offered to it, whatever became of it, oldest first. -/
structure Watched (σ : Type) where
  inner : σ
  attempts : List (Address × Packet) := []

def Socket.watched {σ : Type} (sock : Socket σ) : Socket (Watched σ) :=
  { sock.within Watched.inner fun w inner => { w with inner } with
    send := fun target p w =>
      let (result, inner) := sock.send target p w.inner
      (result, { inner, attempts := w.attempts ++ [(target, p)] }) }

theorem Socket.alike_watched {σ : Type} (sock : Socket σ) (peer : Address) (owned : Bool) :
    sock.watched.Alike sock peer owned fun w s => w.inner = s where
  send := by
    rintro p w _ rfl
    exact ⟨rfl, rfl⟩
  close := by
    rintro - w _ rfl
    rfl

theorem Socket.attempts_release {σ : Type} (sock : Socket σ) (owned : Bool) (w : Watched σ) :
    (if owned then sock.watched.close w else w).attempts = w.attempts := by
  split <;> rfl

def Unclosed (attempts : List (Address × Packet)) : Prop := ∀ x ∈ attempts, x.2.close = false

theorem Unclosed.append {attempts : List (Address × Packet)} (h : Unclosed attempts) {target : Address}
    {p : Packet} (hp : p.close = false) : Unclosed (attempts ++ [(target, p)]) := by
  intro x hx
  rcases List.mem_append.mp hx with hx | hx
  · exact h x hx
  · rw [List.mem_singleton.mp hx]
    exact hp

variable {σ : Type} {sock : Socket σ} {now : Instant} {peer : Address} {w : Watched σ}

namespace Link

theorem close_loaded (p : Packet) (taken : Option Seq) : (loaded p taken).close = p.close := by
  cases taken <;> rfl

theorem send_watched (sock : Socket σ) (l : Link) (p : Packet) (now : Instant) (w : Watched σ) :
    ∃ result l' w', l.send sock.watched p now w = (result, l', w') ∧ l'.peer = l.peer ∧
      w'.attempts = w.attempts ++ [(l.peer, loaded p (l.attach p).1)] := by
  unfold send
  rcases hs : sock.send l.peer (loaded p (l.attach p).1) w.inner with ⟨e | u, s⟩
  · simp only [Socket.watched, hs]
    exact ⟨_, _, _, rfl, (peer_giveBack _ _ now).trans (l.peer_attach p), rfl⟩
  · simp only [Socket.watched, hs]
    exact ⟨_, _, _, rfl, l.peer_attach p, rfl⟩

theorem keeps_unclosed (sock : Socket σ) (now : Instant) (peer : Address) :
    KeepsEach (·.close = false) sock.watched now True fun l w => l.peer = peer ∧ Unclosed w.attempts := by
  rintro p l w hp ⟨hpeer, hw⟩
  obtain ⟨result, l', w', hs, hl, hattempts⟩ := l.send_watched sock p now w
  refine ⟨result, l', w', hs, .inr trivial, hl.trans hpeer, ?_⟩
  rw [hattempts]
  exact hw.append ((close_loaded p _).trans hp)

end Link

namespace Connection

def Cause.Accounts (peer : Address) (attempts : List (Address × Packet)) : Cause → Prop
  | .itself => ∃ before notice, attempts = before ++ [(peer, notice)] ∧ notice.close = true ∧ Unclosed before
  | .peer => Unclosed attempts

theorem custody_unclosed (sock : Socket σ) (now : Instant) (owned : Bool) (peer : Address) :
    Custody sock.watched now owned (·.close = false)
      (fun _ l w => l.peer = peer ∧ Unclosed w.attempts)
      (fun cause _ _ w => cause.Accounts peer w.attempts) where
  fresh _ _ _ := rfl
  send _ := Link.keeps_unclosed sock now peer
  acks := ReliableStream.keepsAck_of_send (Link.keeps_unclosed sock now peer) (fun _ => rfl)
    fun _ _ _ h => h
  close := by
    rintro a l w ⟨hpeer, hw⟩
    obtain ⟨result, l', w', hs, -, hattempts⟩ := l.send_watched sock Packet.closeNotice now w
    simp only [Link.sendQuietly, hs]
    rw [Socket.attempts_release, hattempts, hpeer]
    exact ⟨w.attempts, _, rfl, Link.close_loaded _ _, hw⟩
  closedByPeer := by
    rintro a l w ⟨-, hw⟩
    rw [Socket.attempts_release]
    exact hw

end Connection

structure ClosingLog where
  conn : Connection
  attempts : List (Address × Packet) := []
  cause : Option Connection.Cause := none

namespace ClosingLog

open Connection (Turn Cause)

def turn (sock : Socket σ) (a : ClosingLog) (turn : Turn) (now : Instant) (s : σ) : ClosingLog :=
  let (conn, w) := turn.run sock.watched now a.conn ⟨s, a.attempts⟩
  { conn
    attempts := w.attempts
    cause := if a.conn.isOpen && !conn.isOpen then some turn.cause else a.cause }

inductive Reached (sock : Socket σ) : ClosingLog → Prop
  | establish (peer : Address) (sequenceIn sequenceOut : Seq) (config : Settings) (handler : Handler)
      (ownsSocket : Bool) :
      Reached sock { conn := .establish peer sequenceIn sequenceOut config handler ownsSocket }
  | turn {a : ClosingLog} (h : Reached sock a) (turn : Turn) (now : Instant) (s : σ) :
      Reached sock (a.turn sock turn now s)

def Sound (a : ClosingLog) : Prop :=
  match a.cause with
  | none => a.conn.state = .opened ∧ a.conn.reliable.outbound.Each (·.close = false) ∧ Unclosed a.attempts
  | some cause => a.conn.state ≠ .opened ∧ cause.Accounts a.conn.peer a.attempts

theorem Sound.turn {a : ClosingLog} (h : a.Sound) (turn : Turn) (now : Instant) (s : σ) :
    (a.turn sock turn now s).Sound := by
  unfold Sound at h
  have hpeer := (turn.run_bound a.conn sock.watched now ⟨s, a.attempts⟩).peer
  cases hcause : a.cause with
  | none =>
    rw [hcause] at h
    obtain ⟨hstate, heach, hw⟩ := h
    have hrun := Connection.Turn.run_guarded
      (Connection.custody_unclosed sock now a.conn.ownsSocket a.conn.peer) (.same fun _ _ h => h) turn
      (.still (s := ⟨s, a.attempts⟩) hstate rfl heach ⟨rfl, hw⟩)
    have hopen : a.conn.isOpen = true := decide_eq_true hstate
    by_cases hstate' : (turn.run sock.watched now a.conn ⟨s, a.attempts⟩).1.state = .opened
    · simp only [Sound, ClosingLog.turn, Connection.isOpen, hstate', hcause, decide_true, Bool.not_true,
        Bool.and_false, Bool.false_eq_true, if_false]
      exact ⟨trivial, hrun.each, (hrun.opened hstate').2⟩
    · simp only [Sound, ClosingLog.turn, hopen, Connection.isOpen_eq_false hstate', Bool.not_false,
        Bool.and_self, if_true]
      exact ⟨hstate', by rw [hpeer]; exact hrun.left hstate'⟩
  | some cause =>
    rw [hcause] at h
    obtain ⟨hstate, haccounts⟩ := h
    obtain ⟨hstate', hw⟩ := turn.run_of_not_opened hstate sock.watched now ⟨s, a.attempts⟩
    simp only [Sound, ClosingLog.turn, Connection.isOpen_eq_false hstate, hcause, Bool.false_and,
      Bool.false_eq_true, if_false, hw, hpeer]
    exact ⟨hstate', haccounts⟩

theorem Reached.sound {a : ClosingLog} (h : Reached sock a) : a.Sound := by
  induction h with
  | establish peer sequenceIn sequenceOut config handler ownsSocket =>
    refine ⟨rfl, fun p hp => ?_, fun x hx => by simp at hx⟩
    simp [Connection.establish, ReliableStream.new, Outbound.new, SendWindow.packets,
      SendWindow.setFastRetransmit, SendWindow.new] at hp
  | turn _ turn now s ih => exact ih.turn turn now s

theorem turn_conn (sock : Socket σ) (a : ClosingLog) (turn : Turn) (now : Instant) (s : σ) :
    (a.turn sock turn now s).conn = (turn.run sock now a.conn s).1 :=
  (turn.run_lockstep (sock.alike_watched _ _) ⟨rfl, rfl⟩ rfl now).same

structure ClosesOnce (sock : Socket σ) (a : ClosingLog) : Prop where
  stages : ∀ (turn : Turn) (now : Instant) (s : σ), let state := (turn.run sock now a.conn s).1.state
    state = a.conn.state ∨ a.conn.state = .opened ∧ state = .closing ∨
      a.conn.state = .closing ∧ state = .closed
  unseen : ∀ (turn : Turn) (now : Instant) (s : σ),
    (a.turn sock turn now s).conn = (turn.run sock now a.conn s).1
  opened : a.conn.state = .opened → a.cause = none ∧ Unclosed a.attempts
  /-- Of its own accord a connection leaves with one notice behind all else, at the peer's notice with none. -/
  left : a.conn.state ≠ .opened →
    a.cause = some .peer ∧ Unclosed a.attempts ∨
    a.cause = some .itself ∧ ∃ before notice, a.attempts = before ++ [(a.conn.peer, notice)] ∧
      notice.close = true ∧ Unclosed before
  /-- From then on nothing is offered to the socket, sends fail and packets change nothing. -/
  quiet : a.conn.state ≠ .opened → ∀ (turn : Turn) (now : Instant) (s : σ),
    (a.turn sock turn now s).attempts = a.attempts
  refuses : a.conn.state ≠ .opened → ∀ (payload : Octets) (now : Instant) (s : σ),
    a.conn.sendReliable sock payload now s = (.error .closed, a.conn, s) ∧
      a.conn.sendUnreliable sock payload now s = (.error .closed, a.conn, s)
  deaf : a.conn.state ≠ .opened → ∀ (source : Address) (p : Packet) (now : Instant) (s : σ),
    a.conn.receive sock source p now s = (.ok (), a.conn, s)
  served : ∀ (source : Address) (p : Packet) (now : Instant) (s : σ),
    Server.receiveFrom sock source p now a.conn s = (a.conn.receive sock source p now s).2

theorem Reached.closesOnce {a : ClosingLog} (h : Reached sock a) : a.ClosesOnce sock := by
  have hs := h.sound
  unfold Sound at hs
  refine ⟨fun turn now s => turn.run_state a.conn sock now s, a.turn_conn sock, fun ho => ?_,
    fun hl => ?_, fun hl turn now s => ?_, fun hl payload now s => ?_, fun hl source p now s => ?_,
    fun source p now s => Server.receiveFrom_eq source p now a.conn s⟩
  · cases hcause : a.cause with
    | some cause => exact absurd ho (by rw [hcause] at hs; exact hs.1)
    | none =>
      rw [hcause] at hs
      exact ⟨rfl, hs.2.2⟩
  · cases hcause : a.cause with
    | none => exact absurd (by rw [hcause] at hs; exact hs.1) hl
    | some cause =>
      rw [hcause] at hs
      cases cause with
      | peer => exact .inl ⟨rfl, hs.2⟩
      | itself => exact .inr ⟨rfl, hs.2⟩
  · exact congrArg Watched.attempts (turn.run_of_not_opened hl sock.watched now ⟨s, a.attempts⟩).2
  · exact ⟨Connection.sendReliable_of_not_opened hl payload, Connection.sendUnreliable_of_not_opened hl payload⟩
  · exact Connection.receive_of_not_opened hl source p

/-- A connection closes once and for all, with at most one notice, and stays quiet afterwards. That holds
of what its handler asks for as well, whichever callback the handler is in. -/
theorem closing_final (sock : Socket σ) :
    (∀ a, Reached sock a → a.ClosesOnce sock) ∧
    ∀ (c : Connection) (now : Instant) (s : σ), c.state ≠ .opened →
      (∀ payload, c.perform sock now s (.sendReliable payload) =
        (c.record (.sentReliable (.error .closed)), s)) ∧
      (∀ payload, c.perform sock now s (.sendUnreliable payload) =
        (c.record (.sentUnreliable (.error .closed)), s)) ∧
      c.perform sock now s .close = (c.record .askedToClose, s) := by
  refine ⟨fun a h => h.closesOnce, fun c now s hl => ⟨fun payload => ?_, fun payload => ?_, ?_⟩⟩
  · simp only [Connection.perform, Connection.sendReliable_of_not_opened hl]
  · simp only [Connection.perform, Connection.sendUnreliable_of_not_opened hl]
  · simp only [Connection.perform, Connection.close_of_not_opened hl]

/-- The handler sends, closes and tries to send again in the first callback. One payload and one notice are
offered, and neither a poll nor the peer's own notice leads to more. -/
theorem closing_final_handler :
    let handler : Handler :=
      .ofScript { opened := [.sendReliable (some [1]), .close, .sendReliable (some [2])] }
    let a₀ : ClosingLog := { conn := .establish Recorder.address 7 0 {} handler true }
    let a₁ := a₀.turn Recorder.socket (.use .poll) 0 {}
    let a₂ := (a₁.turn Recorder.socket (.use .poll) 0 {}).turn Recorder.socket
      (.arrival Recorder.address .closeNotice) 0 {}
    a₁.ClosesOnce Recorder.socket ∧ a₂.ClosesOnce Recorder.socket ∧ a₁.cause = some .itself ∧
      a₁.attempts = [(Recorder.address, .carrying true 0 [1]), (Recorder.address, .closeNotice)] ∧
      a₂.attempts = a₁.attempts ∧ a₁.conn.state = .closing ∧ a₂.conn.state = .closed := by
  intro handler a₀ a₁ a₂
  have h₀ : Reached Recorder.socket a₀ := .establish Recorder.address 7 0 {} handler true
  have h₁ : Reached Recorder.socket a₁ := h₀.turn (.use .poll) 0 {}
  have h₂ : Reached Recorder.socket a₂ :=
    (h₁.turn (.use .poll) 0 {}).turn (.arrival Recorder.address .closeNotice) 0 {}
  obtain ⟨hrun, -⟩ := closing_final Recorder.socket
  exact ⟨hrun a₁ h₁, hrun a₂ h₂, by decide +kernel, by decide +kernel, by decide +kernel, by decide +kernel,
    by decide +kernel⟩

end ClosingLog

end DatagramStreams
