import DatagramStreams.Proofs.Network.Tenure
import DatagramStreams.Proofs.Session.Keeping

/-! What a connection does to the network that its socket is on. It sends while it is open; one with a socket
of its own closes that when it leaves the open state, and one that shares a socket leaves it alone.
Main statements: `Turn.run_occupies` and `Turn.run_same`.
-/

set_option autoImplicit false

namespace DatagramStreams

open Network (Same)

namespace Link

variable {own : SocketId} {now : Instant} {net₀ net : Network}

theorem send_same (own : SocketId) (now : Instant) (l : Link) (p : Packet) (h : Same net₀ net) : ∃ result l' net',
    l.send (Network.socket own) p now net = (result, l', net') ∧ Same net₀ net' := by
  have hs := Network.send_same net own l.peer (loaded p (l.attach p).1).encode true
  unfold send
  rcases hr : (Network.socket own).send l.peer (loaded p (l.attach p).1) net with ⟨e | u, net'⟩ <;>
    simp only [Network.socket] at hr <;> rw [hr] at hs <;> simp only [Network.socket, hr]
  · exact ⟨_, _, _, rfl, h.trans hs⟩
  · exact ⟨_, _, _, rfl, h.trans hs⟩

theorem keepsEach_same (own : SocketId) (now : Instant) (net₀ : Network) :
    KeepsEach (fun _ => True) (Network.socket own) now True fun _ net => Same net₀ net := by
  rintro p l net - h
  obtain ⟨result, l', net', hs, h'⟩ := send_same own now l p h
  exact ⟨result, l', net', hs, .inr trivial, h'⟩

end Link

namespace Connection

variable {own : SocketId} {c c₁ c₂ : Connection} {net net₁ net₂ : Network}

theorem custody_network (own : SocketId) (now : Instant) (owned : Bool) (net₀ : Network) :
    Custody (Network.socket own) now owned (fun _ => True) (fun _ _ net => Same net₀ net)
      (fun _ _ _ net => ∃ net₁, Same net₀ net₁ ∧ net = if owned then net₁.close own else net₁) where
  fresh _ _ _ := trivial
  send _ := Link.keepsEach_same own now net₀
  acks := ReliableStream.keepsAck_of_send (Link.keepsEach_same own now net₀) (fun _ => trivial)
    fun _ _ _ h => h
  close := by
    intro a l net h
    obtain ⟨result, l', net', hs, h'⟩ := Link.send_same own now l Packet.closeNotice h
    simp only [Link.sendQuietly, hs]
    exact ⟨net', h', rfl⟩
  closedByPeer := fun _ _ net h => ⟨net, h, rfl⟩

theorem Turn.run_network (turn : Turn) (own : SocketId) (now : Instant) (c : Connection) (net : Network)
    (ho : c.state = .opened) :
    ((turn.run (Network.socket own) now c net).1.state = .opened →
      Same net (turn.run (Network.socket own) now c net).2) ∧
    ((turn.run (Network.socket own) now c net).1.state ≠ .opened → ∃ net₁, Same net net₁ ∧
      (turn.run (Network.socket own) now c net).2 = if c.ownsSocket then net₁.close own else net₁) := by
  have hc : Guarded c.ownsSocket (fun _ => True) (fun _ _ net' => Same net net')
      (fun _ _ net' => ∃ net₁, Same net net₁ ∧ net' = if c.ownsSocket then net₁.close own else net₁) c net :=
    .still ho rfl (fun _ _ => trivial) (.refl net)
  have hrun := turn.run_guarded (custody_network own now c.ownsSocket net) (.same fun _ _ h => h) hc
  exact ⟨hrun.opened, hrun.left⟩

theorem Turn.run_same (turn : Turn) (own : SocketId) (now : Instant) (c : Connection) (net : Network)
    (hs : c.ownsSocket = false) : Same net (turn.run (Network.socket own) now c net).2 := by
  by_cases ho : c.state = .opened
  · obtain ⟨hstay, hleave⟩ := turn.run_network own now c net ho
    by_cases ho' : (turn.run (Network.socket own) now c net).1.state = .opened
    · exact hstay ho'
    · obtain ⟨net₁, hsame, heq⟩ := hleave ho'
      rw [heq, hs]
      exact hsame
  · rw [(turn.run_of_not_opened ho (Network.socket own) now net).2]
    exact .refl net

/-- How a connection deals with a socket of its own: it closes the socket when it leaves, and only then. -/
inductive Occupies (own : SocketId) (c : Connection) (net : Network) (c' : Connection) : Network → Prop
  | stays {net' : Network} (hs : Same net net') (ho : c.state = .opened) (ho' : c'.state = .opened) :
      Occupies own c net c' net'
  | leaves {net' : Network} (hs : Same net net') (ho : c.state = .opened) (hl : c'.state ≠ .opened) :
      Occupies own c net c' (net'.close own)
  | gone (hl : c.state ≠ .opened) (hl' : c'.state ≠ .opened) : Occupies own c net c' net

theorem Occupies.refl (own : SocketId) (c : Connection) (net : Network) : Occupies own c net c net := by
  by_cases ho : c.state = .opened
  · exact .stays (.refl net) ho ho
  · exact .gone ho ho

theorem Occupies.trans (h₁ : Occupies own c net c₁ net₁) (h₂ : Occupies own c₁ net₁ c₂ net₂) :
    Occupies own c net c₂ net₂ := by
  cases h₁ with
  | stays hs ho ho' =>
    cases h₂ with
    | stays hs' _ ho'' => exact .stays (hs.trans hs') ho ho''
    | leaves hs' _ hl => exact .leaves (hs.trans hs') ho hl
    | gone hl _ => exact absurd ho' hl
  | leaves hs ho hl =>
    cases h₂ with
    | stays _ ho' _ => exact absurd ho' hl
    | leaves _ ho' _ => exact absurd ho' hl
    | gone _ hl' => exact .leaves hs ho hl'
  | gone hl hl' =>
    cases h₂ with
    | stays _ ho' _ => exact absurd ho' hl'
    | leaves _ ho' _ => exact absurd ho' hl'
    | gone _ hl'' => exact .gone hl hl''

theorem Turn.run_occupies (turn : Turn) (own : SocketId) (now : Instant) (c : Connection) (net : Network)
    (hs : c.ownsSocket = true) : Occupies own c net (turn.run (Network.socket own) now c net).1
      (turn.run (Network.socket own) now c net).2 := by
  by_cases ho : c.state = .opened
  · obtain ⟨hstay, hleave⟩ := turn.run_network own now c net ho
    by_cases ho' : (turn.run (Network.socket own) now c net).1.state = .opened
    · exact .stays (hstay ho') ho ho'
    · obtain ⟨net₁, hsame, heq⟩ := hleave ho'
      rw [heq, hs]
      exact .leaves hsame ho ho'
  · obtain ⟨hl, heq⟩ := turn.run_of_not_opened ho (Network.socket own) now net
    rw [heq]
    exact .gone ho hl

end Connection

namespace Network

variable {own : SocketId} {c c' : Connection} {net net' : Network} {held : SocketId → Prop} {a : Address}

open Connection (Occupies)

theorem Tenured.occupies (h : net.Tenured held) (ho : Occupies own c net c' net') : net'.Tenured held := by
  cases ho with
  | stays hs _ _ => exact h.same hs
  | leaves hs _ _ => exact (h.same hs).close own
  | gone _ _ => exact h

theorem owner?_of_occupies (ho : Occupies own c net c' net') {x : SocketId}
    (h : net'.registry.owner? a = some x) : net.registry.owner? a = some x := by
  cases ho with
  | stays hs _ _ => rwa [hs.registry] at h
  | leaves hs _ _ =>
    have hbefore := owner?_of_close h
    rwa [hs.registry] at hbefore
  | gone _ _ => exact h

theorem badge_occupies (ho : Occupies own c net c' net') (hb : net.badge own = some (a, !c.isOpen)) :
    net'.badge own = some (a, !c'.isOpen) := by
  unfold Connection.isOpen at *
  cases ho with
  | stays hs hopen hopen' =>
    simp only [hopen, hopen', hs.badge] at hb ⊢
    exact hb
  | leaves hs hopen hl =>
    rw [badge_close_self ((hs.badge own).trans hb)]
    simp [hl]
  | gone hl hl' =>
    simp only [hl, hl', decide_false] at hb ⊢
    exact hb

theorem badge_occupies_ne (ho : Occupies own c net c' net') {x : SocketId} (hx : x ≠ own) :
    net'.badge x = net.badge x := by
  cases ho with
  | stays hs _ _ => exact hs.badge x
  | leaves hs _ _ => exact (badge_close_ne _ hx).trans (hs.badge x)
  | gone _ _ => rfl

end Network

end DatagramStreams
