import DatagramStreams.Proofs.Session.Lockstep

/-! A connection that is no longer open. Its handler may still ask for sends, but none of them reaches the
socket, and once it is closed nothing changes it.
Main statements: `poll_of_closing`, the last callback closes for good, and the `_of_closed` laws of what a
server does with a client.
-/

set_option autoImplicit false

namespace DatagramStreams

namespace Connection

variable {σ : Type} {sock : Socket σ} {c : Connection} {now : Instant} {s : σ}

theorem isOpen_eq_false (h : c.state ≠ .opened) : c.isOpen = false := decide_eq_false h

theorem close_of_not_opened (h : c.state ≠ .opened) : c.close sock now s = (c, s) := by
  unfold close
  split
  · exact absurd ‹_› h
  · rfl

theorem sendReliable_of_not_opened (h : c.state ≠ .opened) (payload : Octets) :
    c.sendReliable sock payload now s = (.error .closed, c, s) := by
  simp [sendReliable, isOpen_eq_false h]

theorem sendUnreliable_of_not_opened (h : c.state ≠ .opened) (payload : Octets) :
    c.sendUnreliable sock payload now s = (.error .closed, c, s) := by
  simp [sendUnreliable, isOpen_eq_false h]

theorem receive_of_not_opened (h : c.state ≠ .opened) (source : Address) (p : Packet) :
    c.receive sock source p now s = (.ok (), c, s) := by
  simp [receive, isOpen_eq_false h]

theorem poll_of_closed (h : c.state = .closed) : c.poll sock now s = (.error .closed, c, s) := by
  simp [poll, h]

variable (sock now s) in
theorem perform_of_not_opened (h : c.state ≠ .opened) (action : Action) :
    (c.perform sock now s action).1.state = c.state ∧ (c.perform sock now s action).2 = s := by
  cases action with
  | sendReliable payload => simp [perform, sendReliable_of_not_opened h, record]
  | sendUnreliable payload => simp [perform, sendUnreliable_of_not_opened h, record]
  | close => simp [perform, close_of_not_opened h, record]
  | askState => exact ⟨rfl, rfl⟩

theorem performAll_of_not_opened (h : c.state ≠ .opened) (actions : List Action) :
    (performAll sock now actions c s).1.state = c.state ∧ (performAll sock now actions c s).2 = s := by
  induction actions generalizing c s with
  | nil => exact ⟨rfl, rfl⟩
  | cons action rest ih =>
    obtain ⟨hstate, hs⟩ := perform_of_not_opened sock now s h action
    obtain ⟨hstate', hs'⟩ := ih (c := (c.perform sock now s action).1)
      (s := (c.perform sock now s action).2) (hstate ▸ h)
    exact ⟨hstate'.trans hstate, hs'.trans hs⟩

theorem notify_of_not_opened (h : c.state ≠ .opened) (call : Callback) :
    (c.notify sock now call s).1.state = c.state ∧ (c.notify sock now call s).2 = s :=
  performAll_of_not_opened (c := c.record (.callback call)) h _

variable (sock now s) in
theorem announce_of_not_opened (h : c.state ≠ .opened) :
    (c.announce sock now s).1.state = c.state ∧ (c.announce sock now s).2 = s := by
  unfold announce
  split
  · exact ⟨rfl, rfl⟩
  · exact notify_of_not_opened (c := { c with announced := true }) h .opened

variable (sock now s) in
theorem finishClose_of_closing (h : c.state = .closing) :
    (c.finishClose sock now s).1.state = .closed ∧ (c.finishClose sock now s).2 = s := by
  simp only [finishClose, h]
  exact notify_of_not_opened (c := { c with state := .closed }) (by simp) .closed

theorem poll_of_closing (h : c.state = .closing) :
    (c.poll sock now s).2.1.state = .closed ∧ (c.poll sock now s).2.2 = s := by
  obtain ⟨hstate, hs⟩ := announce_of_not_opened (c := c) sock now s (by simp [h])
  obtain ⟨hclosed, hs'⟩ := finishClose_of_closing sock now (c.announce sock now s).2
    (hstate.trans h)
  simp only [poll, h]
  exact ⟨hclosed, hs'.trans hs⟩

theorem state_close_ne (sock : Socket σ) (c : Connection) (now : Instant) (s : σ) :
    (c.close sock now s).1.state ≠ .opened := by
  unfold close
  split
  · simp
  · assumption

theorem Use.run_of_closed (h : c.state = .closed) (what : Use) :
    (what.run sock now c s).1.state = .closed ∧ (what.run sock now c s).2 = s := by
  have hne : c.state ≠ .opened := by simp [h]
  cases what with
  | sendReliable payload => simp [run, sendReliable_of_not_opened hne, h]
  | sendUnreliable payload => simp [run, sendUnreliable_of_not_opened hne, h]
  | setSendTimeout limit => exact ⟨h, rfl⟩
  | poll => simp [run, poll_of_closed h, h]
  | close => simp [run, close_of_not_opened hne, h]

end Connection

namespace Server

variable {σ : Type} {sock : Socket σ} {c : Connection} {now : Instant} {s : σ}

theorem receiveFrom_of_closed (h : c.state = .closed) (source : Address) (p : Packet) :
    receiveFrom sock source p now c s = (c, s) := by
  simp [receiveFrom, Connection.receive_of_not_opened (by simp [h] : c.state ≠ .opened)]

theorem pollOne_of_closed (h : c.state = .closed) : pollOne sock now c s = (c, s) := by
  simp [pollOne, Connection.poll_of_closed h]

theorem state_dismiss (c : Connection) (now : Instant) (s : σ) :
    (dismiss sock now c s).1.state = .closed := by
  have hne := Connection.state_close_ne sock c now s
  simp only [dismiss]
  generalize c.close sock now s = x at hne ⊢
  cases hx : x.1.state with
  | opened => exact absurd hx hne
  | closing => exact (Connection.poll_of_closing hx).1
  | closed => rw [Connection.poll_of_closed hx]; exact hx

theorem dismiss_of_closed (h : c.state = .closed) : dismiss sock now c s = (c, s) := by
  simp [dismiss, Connection.close_of_not_opened (by simp [h] : c.state ≠ .opened),
    Connection.poll_of_closed h]

end Server

end DatagramStreams
