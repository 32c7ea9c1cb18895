import DatagramStreams.Proofs.Network.Mail
import DatagramStreams.Transport.Reader

/-! A reader of one socket of a network, on which anything may go on meanwhile. Neither malformed or oversized
datagrams nor transient failures nor the receiver's own failures end it or cost it a datagram.
Main statements: `Keeps.turn`, for one turn of the reader, `arrived_deliver` and `Reached.faithful`.
-/

set_option autoImplicit false

namespace DatagramStreams

open Network (Outside Legible Fed)

def Datagram.call? (d : Datagram) : Option (Address × Packet) :=
  (Packet.decode? d.octets).map fun p => (d.source, p)

theorem Datagram.call?_of_long {d : Datagram} (h : Packet.maxLength < d.octets.length) : d.call? = none := by
  simp only [call?, Packet.decode?, Packet.decode, if_pos h]
  rfl

theorem Datagram.call?_eq_some {d : Datagram} {source : Address} {p : Packet} (h : d.call? = some (source, p)) :
    d.source = source ∧ d.octets.length ≤ Packet.maxLength ∧ Packet.decode d.octets = .ok p := by
  obtain ⟨p', hdecode, he⟩ := Option.map_eq_some_iff.mp h
  obtain ⟨rfl, rfl⟩ := Prod.mk.inj he
  have hok : Packet.decode d.octets = .ok p' := by
    unfold Packet.decode? at hdecode
    cases hd : Packet.decode d.octets <;> simp [hd, Except.toOption] at hdecode
    rw [hdecode]
  refine ⟨rfl, Nat.le_of_not_lt fun hlong => ?_, hok⟩
  rw [call?_of_long hlong] at h
  cases h

/-- A network with a reader of one of its sockets. All that has arrived for the socket is kept in order, and so
are the calls of the receiver. -/
structure Intake where
  net : Network
  loop : Reader := {}
  arrived : List Datagram := []
  calls : List (Address × Packet) := []

namespace Intake

abbrev Response := Address → Packet → Intake → Except ConnectionError Unit × List Outside

def Response.Around (own : SocketId) (factory : Nat) (respond : Response) : Prop :=
  ∀ source p t, ∀ x ∈ (respond source p t).2, x.Around own factory

variable {own : SocketId} {factory : Nat} {respond : Response} {t : Intake} {seen : List Datagram}

def act (own : SocketId) (t : Intake) (x : Outside) : Intake :=
  let net := x.run t.net
  { t with net, arrived := t.arrived ++ (net.mail own).drop (t.net.mail own).length }

def socket (own : SocketId) : Socket Intake := (Network.socket own).within Intake.net fun t net => { t with net }

def receiver (own : SocketId) (respond : Response) : Reader.Receiver Intake where
  isThere _ := true
  take source p t :=
    let (result, acts) := respond source p t
    (result, acts.foldl (act own) { t with calls := t.calls ++ [(source, p)] })

def turn (own : SocketId) (respond : Response) (t : Intake) : Intake :=
  let (loop, t) := t.loop.step (socket own) (receiver own respond) t
  { t with loop }

def turns (own : SocketId) (respond : Response) : Nat → Intake → Intake
  | 0, t => t
  | n + 1, t => (t.turn own respond).turns own respond n

def failures (factory : Nat) (t : Intake) : Nat := (t.net.mode factory).receiveErrors.length

/-- How many turns may pass, at most, before the next datagram is read. -/
def rank (factory : Nat) (t : Intake) : Nat :=
  t.failures factory + if t.loop.phase = .draining then 0 else 1

structure Keeps (own : SocketId) (factory : Nat) (seen : List Datagram) (t : Intake) : Prop where
  legible : t.net.Legible own factory
  notStopped : t.loop.stopped = false
  running : t.loop.phase ≠ .ended
  arrived : t.arrived = seen ++ t.net.mail own
  calls : t.calls = seen.filterMap Datagram.call?

theorem Keeps.act (h : Keeps own factory seen t) {x : Outside} (hlegible : (x.run t.net).Legible own factory)
    (hmail : t.net.mail own <+: (x.run t.net).mail own) : Keeps own factory seen (t.act own x) where
  legible := hlegible
  notStopped := h.notStopped
  running := h.running
  arrived := by
    rw [Intake.act, h.arrived, List.append_assoc, ← List.prefix_iff_eq_append.mp hmail]
    simp
  calls := h.calls

theorem Keeps.acts {acts : List Outside} (h : Keeps own factory seen t) (hacts : ∀ x ∈ acts, x.Around own factory) :
    Keeps own factory seen (acts.foldl (Intake.act own) t) ∧ t.arrived <+: (acts.foldl (Intake.act own) t).arrived ∧
      (acts.foldl (Intake.act own) t).failures factory ≤ t.failures factory ∧
      (acts.foldl (Intake.act own) t).loop = t.loop := by
  induction acts generalizing t with
  | nil => exact ⟨h, List.prefix_refl _, Nat.le_refl _, rfl⟩
  | cons x acts ih =>
    have hfed := h.legible.around (hacts x List.mem_cons_self)
    obtain ⟨hkeeps, harrived, hfailures, hloop⟩ :=
      ih (h.act hfed.legible hfed.mail) fun y hy => hacts y (List.mem_cons_of_mem _ hy)
    exact ⟨hkeeps, (List.prefix_append _ _).trans harrived, Nat.le_trans hfailures hfed.failures, hloop⟩

theorem Keeps.enter (h : Keeps own factory seen t) {phase : Reader.Phase} (hphase : phase ≠ .ended) :
    Keeps own factory seen { t with loop := t.loop.enter phase } :=
  ⟨h.legible, h.notStopped, hphase, h.arrived, h.calls⟩

/-- The datagram that is read is the oldest that has not been, and the receiver is told of it in full or not at
all. -/
theorem Keeps.read {d : Datagram} {net : Network} (h : Keeps own factory seen t) (hlegible : net.Legible own factory)
    (hmail : t.net.mail own = d :: net.mail own) :
    Keeps own factory (seen ++ [d]) { t with net, calls := t.calls ++ d.call?.toList } where
  legible := hlegible
  notStopped := h.notStopped
  running := h.running
  arrived := by simp [h.arrived, hmail]
  calls := by cases hd : d.call? <;> simp [h.calls, List.filterMap_append, hd]

structure Leads (own : SocketId) (factory : Nat) (t t' : Intake) (seen seen' : List Datagram) : Prop where
  keeps : Keeps own factory seen' t'
  onward : seen <+: seen'
  arrived : t.arrived <+: t'.arrived
  nearer : t.net.mail own ≠ [] → t'.rank factory + seen.length + 1 ≤ t.rank factory + seen'.length

theorem Keeps.await (h : Keeps own factory seen t) (hphase : t.loop.phase ≠ .draining) :
    Leads own factory t
      { t with loop := t.loop.await (if t.net.mail own = [] then .pending else .ready) } seen seen := by
  by_cases hmail : t.net.mail own = []
  · simp only [Reader.await, h.notStopped, hmail, if_true, Bool.false_eq_true, if_false]
    exact ⟨h.enter (by decide), List.prefix_refl _, List.prefix_refl _, fun hne => absurd hmail hne⟩
  · simp only [Reader.await, h.notStopped, hmail, Bool.false_eq_true, if_false]
    refine ⟨h.enter (by decide), List.prefix_refl _, List.prefix_refl _, fun _ => ?_⟩
    simp only [rank, failures, Reader.enter, hphase, if_true, if_false]
    omega

theorem withLoop {loop : Reader} (h : t.loop = loop) : { t with loop } = t := by
  subst h
  rfl

theorem Keeps.drain (h : Keeps own factory seen t) (hphase : t.loop.phase = .draining)
    (hrespond : respond.Around own factory) :
    ∃ seen', Leads own factory t (t.turn own respond) seen seen' := by
  simp only [turn, Reader.step, hphase, Reader.drain, socket, Socket.within, Network.socket]
  -- A read fails in passing, finds nothing more, or takes the first of the mail.
  rcases h.legible.receive_cases Socket.bufferLength with
    ⟨kind, net', hreceive, htransient, hlegible, hmail, hfailures⟩ | ⟨hreceive, hmail⟩ |
    ⟨d, net', hreceive, hlegible, hmail, hmode⟩ <;> simp only [hreceive]
  · have hkind : kind ≠ .wouldBlock := by
      rintro rfl
      cases htransient
    simp only [IoError.kind, hkind, htransient, if_true, if_false]
    refine ⟨seen, ⟨hlegible, h.notStopped, h.running, h.arrived.trans (by rw [hmail]), h.calls⟩, List.prefix_refl _,
      List.prefix_refl _, fun _ => ?_⟩
    simp only [rank, failures]
    omega
  · exact ⟨seen, h.enter (by decide), List.prefix_refl _, List.prefix_refl _, fun hne => absurd hmail hne⟩
  · have hread := h.read hlegible hmail
    simp only [receiver, if_true, Packet.decode?_take_bufferLength]
    cases hdecode : Packet.decode? d.octets with
    | none =>
      simp only [Datagram.call?, hdecode, Option.map_none, Option.toList_none, List.append_nil] at hread
      refine ⟨seen ++ [d], hread, List.prefix_append _ _, List.prefix_refl _, fun _ => ?_⟩
      simp only [rank, failures, hmode, hphase, List.length_append, List.length_singleton]
      omega
    | some p =>
      simp only [Datagram.call?, hdecode, Option.map_some, Option.toList_some] at hread
      obtain ⟨hkeeps, harrived, hfailures, hloop⟩ := hread.acts (hrespond d.source p _)
      refine ⟨seen ++ [d], ?_⟩
      rw [withLoop hloop]
      refine ⟨hkeeps, List.prefix_append _ _, harrived, fun _ => ?_⟩
      simp only [failures, hmode] at hfailures
      simp only [rank, failures, hloop, List.length_append, List.length_singleton]
      omega

theorem Keeps.turn (h : Keeps own factory seen t) (hrespond : respond.Around own factory) :
    ∃ seen', Leads own factory t (t.turn own respond) seen seen' := by
  cases hphase : t.loop.phase with
  | idle =>
    have hleads := h.await (by simp [hphase])
    rw [← h.legible.readable] at hleads
    refine ⟨seen, ?_⟩
    simpa only [Intake.turn, Reader.step, hphase, socket, Socket.within, Network.socket] using hleads
  | waiting =>
    have hleads := h.await (by simp [hphase])
    rw [← h.legible.stillReadable] at hleads
    refine ⟨seen, ?_⟩
    simpa only [Intake.turn, Reader.step, hphase, socket, Socket.within, Network.socket] using hleads
  | draining => exact h.drain hphase hrespond
  | ended => exact absurd hphase h.running

theorem Keeps.catchesUp (h : Keeps own factory seen t) (hrespond : respond.Around own factory)
    {goal : List Datagram} (hgoal : goal <+: t.arrived) {n : Nat}
    (hn : goal.length ≤ seen.length ∨ goal.length + t.rank factory ≤ seen.length + n) :
    ∃ seen', Keeps own factory seen' (t.turns own respond n) ∧ goal <+: seen' := by
  -- What has been read stays read, and until all of `goal` has been every turn brings it nearer.
  induction n generalizing t seen with
  | zero =>
    refine ⟨seen, h, List.prefix_of_prefix_length_le hgoal ?_ (by omega)⟩
    rw [h.arrived]
    exact List.prefix_append _ _
  | succ n ih =>
    obtain ⟨seen', hleads⟩ := h.turn hrespond
    refine ih hleads.keeps (hgoal.trans hleads.arrived) ?_
    by_cases hle : goal.length ≤ seen.length
    · exact .inl (Nat.le_trans hle hleads.onward.length_le)
    · have hmail : t.net.mail own ≠ [] := by
        intro hmail
        have hlength := hgoal.length_le
        rw [h.arrived, hmail, List.append_nil] at hlength
        exact hle hlength
      have hnearer := hleads.nearer hmail
      omega

/-- All that can happen while the reader is not stopped, its receiver exists and its socket stays open: anything
on the network around it, transient failures of its reads, and turns of its own. -/
inductive Reached (own : SocketId) (factory : Nat) (respond : Response) : Intake → Prop
  | start {net : Network} (h : net.Legible own factory) : Reached own factory respond { net, arrived := net.mail own }
  | act {t : Intake} {x : Outside} (h : Reached own factory respond t) (hx : x.Around own factory) :
      Reached own factory respond (t.act own x)
  | fail {t : Intake} {mode : SocketMode} (h : Reached own factory respond t) (hmode : mode.Harmless) :
      Reached own factory respond (t.act own (.setMode factory mode))
  | turn {t : Intake} (h : Reached own factory respond t) : Reached own factory respond (t.turn own respond)

theorem Reached.keeps (h : Reached own factory respond t) (hrespond : respond.Around own factory) :
    ∃ seen, Keeps own factory seen t := by
  induction h with
  | start h => exact ⟨[], h, rfl, nofun, rfl, rfl⟩
  | act _ hx ih =>
    obtain ⟨seen, hkeeps⟩ := ih
    have hfed := hkeeps.legible.around hx
    exact ⟨seen, hkeeps.act hfed.legible hfed.mail⟩
  | @fail t mode _ hmode ih =>
    obtain ⟨seen, hkeeps⟩ := ih
    refine ⟨seen, hkeeps.act ⟨hkeeps.legible.socket, ?_⟩ (List.prefix_refl _)⟩
    rw [Outside.run, Network.mode_setMode]
    split
    · exact hmode
    · exact hkeeps.legible.harmless
  | turn _ ih =>
    obtain ⟨seen, hkeeps⟩ := ih
    obtain ⟨seen', hleads⟩ := hkeeps.turn hrespond
    exact ⟨seen', hleads.keeps⟩

theorem arrived_deliver (h : t.net.Legible own factory) (d : Datagram) (target : Address) :
    (t.act own (.deliver d target)).arrived =
      t.arrived ++ if t.net.registry.owner? target = some own then [d] else [] := by
  obtain ⟨k, hk, -⟩ := h.socket
  simp only [act, Outside.run]
  split
  · rename_i ho
    rw [Network.mail_deliver_self hk ho, List.drop_left]
  · rename_i ho
    rw [Network.mail_deliver_ne ho, List.drop_length]

structure Faithful (own : SocketId) (factory : Nat) (respond : Response) (t : Intake) : Prop where
  arrives : ∀ d target, (t.act own (.deliver d target)).arrived =
    t.arrived ++ if t.net.registry.owner? target = some own then [d] else []
  running : t.loop.hasEnded = false
  told : ∃ seen, t.arrived = seen ++ t.net.mail own ∧ t.calls = seen.filterMap Datagram.call?
  /-- No packet is read from a part of a datagram. -/
  whole : ∀ source p, (source, p) ∈ t.calls → ∃ d ∈ t.arrived, d.source = source ∧
    d.octets.length ≤ Packet.maxLength ∧ Packet.decode d.octets = .ok p
  caughtUp : ∀ n, (t.net.mail own).length + t.failures factory + 1 ≤ n →
    t.arrived.filterMap Datagram.call? <+: (t.turns own respond n).calls

/-- Whatever arrives while the reader runs, and whatever the receiver answers and does, the receiver is called for
exactly those datagrams that are packets as a whole, in order and once each, and nothing that may come keeps the
reader from what comes next. -/
theorem Reached.faithful (h : Reached own factory respond t) (hrespond : respond.Around own factory) :
    Faithful own factory respond t := by
  obtain ⟨seen, hkeeps⟩ := h.keeps hrespond
  refine ⟨arrived_deliver hkeeps.legible, ?_, ⟨seen, hkeeps.arrived, hkeeps.calls⟩, fun source p hp => ?_,
    fun n hn => ?_⟩
  · simpa [Reader.hasEnded] using hkeeps.running
  · rw [hkeeps.calls] at hp
    obtain ⟨d, hd, hcall⟩ := List.mem_filterMap.mp hp
    refine ⟨d, ?_, Datagram.call?_eq_some hcall⟩
    rw [hkeeps.arrived]
    exact List.mem_append_left _ hd
  · have hlength : t.arrived.length = seen.length + (t.net.mail own).length := by
      rw [hkeeps.arrived, List.length_append]
    have hrank : t.rank factory ≤ t.failures factory + 1 := by
      unfold rank
      split <;> omega
    obtain ⟨seen', hkeeps', hgoal⟩ :=
      hkeeps.catchesUp hrespond (List.prefix_refl t.arrived) (n := n) (by omega)
    rw [hkeeps'.calls]
    exact hgoal.filterMap _

/-- Behind two failed reads come a datagram that is no packet, one that is too long, and an ACK, of which the
receiver wants to know nothing but which it sends back. -/
theorem Reached.faithful_oversized :
    let source : Address := { ip := Ip.v4Loopback, port := 7001 }
    let target : Address := { ip := Ip.v4Loopback, port := 7000 }
    let respond : Response := fun source p _ => (.error .closed, [.send 0 source p.encode true])
    let octets : List Octets := [[1], List.replicate 9000 171, (Packet.ackOnly 5).encode]
    let failing : Intake := ({ net := ((Network.addFactory {} {}).2.bind 0 target).2 } : Intake).act 0
      (.setMode 0 { receiveErrors := [.connectionReset, .interrupted] })
    let t := octets.foldl (fun t b => t.act 0 (.deliver ⟨source, b⟩ target)) failing
    Reached 0 0 respond t ∧ respond.Around 0 0 ∧
      t.arrived = octets.map (⟨source, ·⟩) ∧ [(source, Packet.ackOnly 5)] <+: (t.turns 0 respond 6).calls := by
  intro source target respond octets failing t
  have hopen : Legible 0 0 ((Network.addFactory {} {}).2.bind 0 target).2 :=
    ⟨⟨_, rfl, rfl, rfl⟩, ⟨rfl, by decide⟩⟩
  have hrun : Reached 0 0 respond t :=
    ((((Reached.start hopen).fail ⟨rfl, by decide⟩).act (x := .deliver ..) trivial).act (x := .deliver ..) trivial).act
      (x := .deliver ..) trivial
  have hrespond : respond.Around 0 0 := by simp [respond, Response.Around, Outside.Around]
  have hfailing : Legible 0 0 failing.net := ⟨⟨_, rfl, rfl, rfl⟩, ⟨rfl, by decide⟩⟩
  have hshort := (hfailing.deliver ⟨source, [1]⟩ target).legible
  have hlong := (hshort.deliver ⟨source, List.replicate 9000 171⟩ target).legible
  have harrived : t.arrived = octets.map (⟨source, ·⟩) :=
    (arrived_deliver hlong _ _).trans (congrArg (· ++ _) ((arrived_deliver hshort _ _).trans
      (congrArg (· ++ _) (arrived_deliver hfailing _ _))))
  refine ⟨hrun, hrespond, harrived, ?_⟩
  have hcaught := (hrun.faithful hrespond).caughtUp 6 (by decide)
  have hnone : Datagram.call? ⟨source, List.replicate 9000 171⟩ = none :=
    Datagram.call?_of_long (by rw [List.length_replicate]; decide)
  rwa [harrived, List.map_cons, List.map_cons, List.map_cons, List.map_nil,
    List.filterMap_cons_none (by decide), List.filterMap_cons_none hnone,
    List.filterMap_cons_some (b := (source, Packet.ackOnly 5)) (by decide), List.filterMap_nil] at hcaught

end Intake

end DatagramStreams
