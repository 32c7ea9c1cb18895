import DatagramStreams.Proofs.Network.Seat

/-! Mailboxes. What is delivered to an address goes behind all that waits in the mailbox of whoever holds the
address, and into no other. A read takes what is in front, and only closing a socket throws mail away.
Main statements: `mail_deliver_self`, `mail_deliver_ne`, `mail_send_ne`, `Legible.receive_cases` and `Legible.around`.
-/

set_option autoImplicit false

namespace DatagramStreams

structure SocketMode.Harmless (mode : SocketMode) : Prop where
  readable : mode.readable = none
  transient : ∀ kind ∈ mode.receiveErrors, kind.isTransient = true

namespace Network

variable {net net' net'' : Network} {own id : SocketId} {target : Address} {d : Datagram} {k : NetSocket}
  {factory : Nat}

def mail (net : Network) (id : SocketId) : List Datagram :=
  match net.sockets[id]? with
  | some k => k.queue.toList
  | none => []

theorem mail_of_some (hk : net.sockets[id]? = some k) : net.mail id = k.queue.toList := by
  simp only [mail, hk]

theorem mail_congr (h : net'.sockets[id]? = net.sockets[id]?) : net'.mail id = net.mail id := by
  simp only [mail, h]

theorem mail_deliver_self (hk : net.sockets[id]? = some k) (ho : net.registry.owner? target = some id)
    (d : Datagram) : (net.deliver d target).mail id = net.mail id ++ [d] := by
  simp [deliver, ho, signal, mail, Array.getElem?_modify, hk]

theorem getElem?_deliver_ne (ho : net.registry.owner? target ≠ some id) (d : Datagram) :
    (net.deliver d target).sockets[id]? = net.sockets[id]? := by
  unfold deliver
  split
  · rename_i x hx
    have hne : x ≠ id := fun he => ho (he ▸ hx)
    simp [signal, Array.getElem?_modify, hne]
  · rfl

theorem mail_deliver_ne (ho : net.registry.owner? target ≠ some id) (d : Datagram) :
    (net.deliver d target).mail id = net.mail id :=
  mail_congr (getElem?_deliver_ne ho d)

theorem mail_send_ne (ho : net.registry.owner? target ≠ some own) (id : SocketId) (b : Octets)
    (mayHold : Bool) : (net.send id target b mayHold).2.mail own = net.mail own := by
  have hcarried : Carried target fun net' => net'.registry = net.registry ∧ net'.mail own = net.mail own :=
    { deliver := fun {net'} d ⟨hregistry, hmail⟩ => by
        refine ⟨(deliver_same net' d target).registry.trans hregistry, ?_⟩
        rw [mail_deliver_ne (hregistry ▸ ho), hmail]
      notes := fun _ _ hregistry hsockets _ h =>
        ⟨hregistry.trans h.1, (mail_congr (by rw [hsockets])).trans h.2⟩ }
  exact (hcarried.send id b mayHold ⟨rfl, rfl⟩).2

theorem mode_setMode (net : Network) (f : Nat) (mode : SocketMode) (n : Nat) :
    (net.setMode f mode).mode n = if f = n ∧ n < net.factories.size then mode else net.mode n := by
  simp only [setMode, Network.mode, Array.getElem?_modify]
  by_cases hf : f = n
  · by_cases hn : n < net.factories.size <;> simp [hf, hn]
  · simp [hf]

theorem lt_of_failures {f : Nat} (h : (net.mode f).receiveErrors ≠ []) : f < net.factories.size := by
  by_cases hf : f < net.factories.size
  · exact hf
  · simp [mode, Array.getElem?_eq_none (Nat.le_of_not_lt hf)] at h

theorem mode_addFactory (net : Network) (plan : FaultPlan) (n : Nat) :
    (net.addFactory plan).2.mode n = net.mode n := by
  simp only [addFactory, mode, Array.getElem?_push]
  by_cases hn : n = net.factories.size <;> simp [hn]

theorem mode_deliver (net : Network) (d : Datagram) (target : Address) (n : Nat) :
    (net.deliver d target).mode n = net.mode n := by
  unfold deliver
  split <;> rfl

/-- The socket is open, and its factory does nothing that would end a reader. -/
structure Legible (own : SocketId) (factory : Nat) (net : Network) : Prop where
  socket : ∃ k, net.sockets[own]? = some k ∧ k.factory = factory ∧ k.closed = false
  harmless : (net.mode factory).Harmless

theorem Legible.stillReadable (h : Legible own factory net) :
    net.stillReadable own = if net.mail own = [] then .pending else .ready := by
  obtain ⟨k, hk, -, hopen⟩ := h.socket
  simp only [Network.stillReadable, hk, hopen, mail, Queue.isEmpty_iff]
  rfl

theorem Legible.readable (h : Legible own factory net) :
    net.readable own = if net.mail own = [] then .pending else .ready := by
  obtain ⟨k, hk, rfl, -⟩ := h.socket
  rw [← h.stillReadable]
  simp only [Network.readable, hk, h.harmless.readable]

/-- From `net` to `net'` the socket remains open, keeps its mail and is told of no more failures. -/
structure Fed (own : SocketId) (factory : Nat) (net net' : Network) : Prop where
  legible : Legible own factory net'
  mail : net.mail own <+: net'.mail own
  failures : (net'.mode factory).receiveErrors.length ≤ (net.mode factory).receiveErrors.length

theorem Fed.trans (h : Fed own factory net net') (h' : Fed own factory net' net'') :
    Fed own factory net net'' :=
  ⟨h'.legible, h.mail.trans h'.mail, Nat.le_trans h'.failures h.failures⟩

theorem Legible.keep (h : Legible own factory net) (hsocket : net'.sockets[own]? = net.sockets[own]?)
    (hmode : net'.mode factory = net.mode factory) : Fed own factory net net' where
  legible := ⟨hsocket ▸ h.socket, hmode ▸ h.harmless⟩
  mail := ⟨[], by rw [mail_congr hsocket, List.append_nil]⟩
  failures := Nat.le_of_eq (by rw [hmode])

theorem Legible.deliver (h : Legible own factory net) (d : Datagram) (target : Address) :
    Fed own factory net (net.deliver d target) := by
  have hmode := mode_deliver net d target factory
  by_cases ho : net.registry.owner? target = some own
  · obtain ⟨k, hk, hfactory, hopen⟩ := h.socket
    refine ⟨⟨⟨{ k with queue := k.queue.push d }, ?_, hfactory, hopen⟩, hmode ▸ h.harmless⟩, ?_, ?_⟩
    · simp [Network.deliver, ho, signal, Array.getElem?_modify, hk]
    · rw [mail_deliver_self hk ho]
      exact List.prefix_append _ _
    · exact Nat.le_of_eq (by rw [hmode])
  · exact h.keep (getElem?_deliver_ne ho d) hmode

theorem Legible.send (h : Legible own factory net) (id : SocketId) (target : Address) (b : Octets)
    (mayHold : Bool) : Fed own factory net (net.send id target b mayHold).2 := by
  have hcarried : Carried target (Fed own factory net) :=
    { deliver := fun d hfed => hfed.trans (hfed.legible.deliver d target)
      notes := fun _ _ _ hsockets hmode hfed => hfed.trans (hfed.legible.keep (by rw [hsockets]) (hmode factory)) }
  exact hcarried.send id b mayHold (h.keep rfl rfl)

/-- Sockets of one factory share its failures, so a read of one may take a failure from another. -/
theorem Legible.dropFailure (h : Legible own factory net) {f : Nat} {kind : IoKind} {rest : List IoKind}
    (herrors : (net.mode f).receiveErrors = kind :: rest) :
    Fed own factory net (net.setMode f { net.mode f with receiveErrors := rest }) := by
  have hmode := mode_setMode net f { net.mode f with receiveErrors := rest } factory
  split at hmode
  · rename_i hf
    obtain ⟨rfl, -⟩ := hf
    have htransient := h.harmless.transient
    rw [herrors] at htransient
    refine ⟨⟨h.socket, ?_⟩, List.prefix_refl _, ?_⟩
    · rw [hmode]
      exact ⟨h.harmless.readable, fun kind hkind => htransient kind (List.mem_cons_of_mem _ hkind)⟩
    · rw [hmode, herrors]
      exact Nat.le_succ _
  · exact h.keep rfl hmode

theorem Legible.receive_cases (h : Legible own factory net) (limit : Nat) :
    (∃ kind net', net.receive own limit = (.error (.injected kind), net') ∧ kind.isTransient = true ∧
      Legible own factory net' ∧ net'.mail own = net.mail own ∧
      (net'.mode factory).receiveErrors.length + 1 = (net.mode factory).receiveErrors.length) ∨
    (net.receive own limit = (.error .nothingQueued, net) ∧ net.mail own = []) ∨
    ∃ d net', net.receive own limit = (.ok (d.source, d.octets.take limit), net') ∧ Legible own factory net' ∧
      net.mail own = d :: net'.mail own ∧ net'.mode factory = net.mode factory := by
  obtain ⟨k, hk, rfl, hopen⟩ := h.socket
  simp only [receive, hk]
  cases herrors : (net.mode k.factory).receiveErrors with
  | cons kind rest =>
    refine .inl ⟨kind, _, rfl, h.harmless.transient kind (by simp [herrors]), (h.dropFailure herrors).legible,
      rfl, ?_⟩
    rw [mode_setMode, if_pos ⟨rfl, lt_of_failures (by simp [herrors])⟩, List.length_cons]
  | nil =>
    have hread : ¬ k.closed = true := by simp [hopen]
    simp only [takeMail, if_neg hread]
    cases hpop : k.queue.pop? with
    | none => exact .inr (.inl ⟨rfl, (mail_of_some hk).trans (Queue.pop?_eq_none_iff.mp hpop)⟩)
    | some popped =>
      obtain ⟨d, queue⟩ := popped
      have hself : (net.sockets.set! own { k with queue })[own]? = some { k with queue } := by
        simp [(Array.getElem?_eq_some_iff.mp hk).1]
      refine .inr (.inr ⟨d, _, rfl, ⟨⟨_, hself, rfl, hopen⟩, h.harmless⟩, ?_, rfl⟩)
      rw [mail_of_some hk, mail_of_some hself]
      exact Queue.toList_of_pop? hpop

theorem Legible.receive_ne (h : Legible own factory net) (hid : id ≠ own) (limit : Nat) :
    Fed own factory net (net.receive id limit).2 := by
  unfold receive
  split
  · exact h.keep rfl rfl
  · simp only
    split
    · rename_i herrors
      exact h.dropFailure herrors
    · unfold takeMail
      split
      · exact h.keep rfl rfl
      · split
        · exact h.keep rfl rfl
        · refine h.keep ?_ rfl
          rw [Array.set!_eq_setIfInBounds, Array.getElem?_setIfInBounds_ne hid]

/-- Others neither close the socket, nor give it up, nor read it, nor change how its factory fails. -/
def Outside.Around (own : SocketId) (factory : Nat) : Outside → Prop
  | .close id | .drop id | .receive id _ => id ≠ own
  | .setMode f _ => f ≠ factory
  | _ => True

instance (own : SocketId) (factory : Nat) : (x : Outside) → Decidable (x.Around own factory)
  | .close id | .drop id | .receive id _ => inferInstanceAs (Decidable (id ≠ own))
  | .setMode f _ => inferInstanceAs (Decidable (f ≠ factory))
  | .bind .. | .send .. | .deliver .. | .addFactory _ | .takeSignals => .isTrue trivial

theorem Legible.around (h : Legible own factory net) {x : Outside} (hx : x.Around own factory) :
    Fed own factory net (x.run net) := by
  cases x with
  | bind f a =>
    obtain ⟨k, hk, -⟩ := h.socket
    have hlt : own < net.sockets.size := (Array.getElem?_eq_some_iff.mp hk).1
    simp only [Outside.run, Network.bind]
    split
    · refine h.keep ?_ rfl
      rw [Array.getElem?_push_lt hlt, Array.getElem?_eq_getElem hlt]
    · exact h.keep rfl rfl
  | close id =>
    simp only [Outside.run, Network.close]
    split
    · split
      · exact h.keep rfl rfl
      · refine h.keep ?_ rfl
        simp [signal, Array.getElem?_modify, show id ≠ own from hx]
    · exact h.keep rfl rfl
  | drop id =>
    simp only [Outside.run, Network.drop]
    split <;> exact h.keep rfl rfl
  | send id target b mayHold => exact h.send id target b mayHold
  | receive id limit => exact h.receive_ne hx limit
  | deliver d target => exact h.deliver d target
  | setMode f mode =>
    refine h.keep rfl ?_
    exact (mode_setMode net f mode factory).trans (if_neg fun he => hx he.1)
  | addFactory plan => exact h.keep rfl (mode_addFactory net plan factory)
  | takeSignals => exact h.keep rfl rfl

end Network

end DatagramStreams
