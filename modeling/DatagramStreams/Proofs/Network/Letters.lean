import DatagramStreams.Proofs.Network.Fate
import DatagramStreams.Proofs.Network.Mail
import DatagramStreams.Proofs.Network.Tenure

/-! What a network takes in and gives out. A send that is not refused makes a letter, which knows its place among all
that its factory has sent; copies of it are delivered at once or held back, a delivery goes behind all other mail
of its recipient, and a read takes what is in front.
Main statements: `Tenured.exchanges`, `Tenured.heldBack_run` and `Booked.run`.
-/

set_option autoImplicit false

namespace DatagramStreams

/-- A datagram that a factory has taken for sending. -/
structure Letter extends Held where
  factory : Nat
  /-- How many datagrams the factory had sent before. -/
  position : Nat
  sentAt : Instant
  /-- Whether it is sent where a task could release it later. -/
  mayHold : Bool
  fate : Fate
  deriving DecidableEq, Repr

namespace Letter

def copies (l : Letter) : Nat :=
  match l.fate with
  | .lost => 0
  | .delivered copies _ => copies

def isLate (l : Letter) : Bool :=
  match l.fate with
  | .lost => false
  | .delivered _ held => held && l.mayHold

def prompt (l : Letter) : List Letter := if l.isLate then [] else List.replicate l.copies l

def late (l : Letter) : List Letter := if l.isLate then List.replicate l.copies l else []

end Letter

structure Delivery where
  /-- None for a datagram that comes from no socket. -/
  letter : Option Letter
  datagram : Datagram
  /-- When the delivery was first attended to: earlier than its instant for a copy that was held back. -/
  begun : Instant
  instant : Instant
  recipient : Option SocketId
  deriving DecidableEq, Repr

structure Reading where
  socket : SocketId
  limit : Nat
  datagram : Datagram
  got : Address × Octets
  deriving DecidableEq, Repr

def arrivals (id : SocketId) (l : List Delivery) : List Datagram :=
  (l.filter fun d => d.recipient = some id).map Delivery.datagram

def readings (id : SocketId) (l : List Reading) : List Datagram :=
  (l.filter fun r => r.socket = id).map Reading.datagram

@[simp] theorem arrivals_nil (id : SocketId) : arrivals id [] = [] := rfl

@[simp] theorem readings_nil (id : SocketId) : readings id [] = [] := rfl

@[simp] theorem arrivals_append (id : SocketId) (l l' : List Delivery) :
    arrivals id (l ++ l') = arrivals id l ++ arrivals id l' := by
  simp [arrivals]

@[simp] theorem readings_append (id : SocketId) (l l' : List Reading) :
    readings id (l ++ l') = readings id l ++ readings id l' := by
  simp [readings]

namespace Network

variable {net net' net'' : Network} {held : SocketId → Prop} {now : Instant} {id : SocketId} {target : Address}
  {d : Datagram} {b : Octets} {mayHold : Bool} {l : Letter}

def faults? (net : Network) (factory : Nat) : Option FaultModel := net.factories[factory]?.map Factory.faults

def heldBack (net : Network) : List Held :=
  net.signals.reverse.filterMap fun
    | .held h => some h
    | _ => none

def handOver (net : Network) (begun now : Instant) (letter : Option Letter) (d : Datagram) (target : Address) :
    Delivery :=
  ⟨letter, d, begun, now, net.registry.owner? target⟩

def letter? (net : Network) (now : Instant) (id : SocketId) (target : Address) (b : Octets) (mayHold : Bool) :
    Option Letter :=
  match net.sockets[id]? with
  | none => none
  | some k =>
    match net.sendFailure? k, net.faults? k.factory with
    | none, some m =>
      some
        { datagram := ⟨k.address, b⟩
          target
          delay := m.plan.delay
          factory := k.factory
          position := m.sent
          sentAt := now
          mayHold
          fate := (m.decide b).1 }
    | _, _ => none

def Shut (net : Network) (id : SocketId) : Prop := ∃ a, net.badge id = some (a, true)

theorem shut_congr (h : net'.badge id = net.badge id) : net'.Shut id ↔ net.Shut id := by
  simp only [Shut, h]

/-- From `net` to `net'` these datagrams come in behind the mail of each socket, and those are read. What waits on
a socket that closes is lost, and nothing is read there. -/
structure Exchanges (net net' : Network) (arrived read : SocketId → List Datagram) : Prop where
  of_open : ∀ id, ¬ net'.Shut id → ¬ net.Shut id ∧ net.mail id ++ arrived id = read id ++ net'.mail id
  of_shut : ∀ id, net'.Shut id → read id = []

/-- From `net` to `net'` sockets and addresses stay as they are; mail comes in, and datagrams are held back. -/
structure Brings (net net' : Network) (arrived : SocketId → List Datagram) (held : List Held) : Prop where
  same : Same net net'
  mail : ∀ id, net'.mail id = net.mail id ++ arrived id
  heldBack : net'.heldBack = net.heldBack ++ held

/-! ### Letting a datagram go -/

theorem Brings.refl (net : Network) : Brings net net (fun _ => []) [] :=
  ⟨.refl net, fun _ => (List.append_nil _).symm, (List.append_nil _).symm⟩

theorem Brings.trans {arrived arrived' : SocketId → List Datagram} {h h' : List Held}
    (h₁ : Brings net net' arrived h) (h₂ : Brings net' net'' arrived' h') :
    Brings net net'' (fun id => arrived id ++ arrived' id) (h ++ h') where
  same := h₁.same.trans h₂.same
  mail id := by rw [h₂.mail, h₁.mail, List.append_assoc]
  heldBack := by rw [h₂.heldBack, h₁.heldBack, List.append_assoc]

theorem exchanges_of_same (hs : Same net net') {arrived : SocketId → List Datagram}
    (hmail : ∀ id, net'.mail id = net.mail id ++ arrived id) : Exchanges net net' arrived fun _ => [] where
  of_open id hopen := ⟨fun hshut => hopen ((shut_congr (hs.badge id)).mpr hshut), (hmail id).symm⟩
  of_shut _ _ := rfl

theorem Brings.exchanges {arrived : SocketId → List Datagram} {h : List Held} (hb : Brings net net' arrived h) :
    Exchanges net net' arrived fun _ => [] :=
  exchanges_of_same hb.same hb.mail

theorem brings_notes (hregistry : net'.registry = net.registry) (hsockets : net'.sockets = net.sockets)
    (hsignals : net'.signals = net.signals) : Brings net net' (fun _ => []) [] where
  same := ⟨hregistry, fun id => by rw [badge, hsockets, badge]⟩
  mail id := (mail_congr (by rw [hsockets])).trans (List.append_nil _).symm
  heldBack := by rw [heldBack, hsignals, List.append_nil, heldBack]

theorem heldBack_signal (net : Network) (x : Signal) : (net.signal x).heldBack = net.heldBack ++
    match x with
    | .held h => [h]
    | _ => [] := by
  cases x <;> simp [heldBack, signal]

theorem Tenured.brings_deliver (ht : net.Tenured held) (begun now : Instant) (letter : Option Letter)
    (d : Datagram) (target : Address) :
    Brings net (net.deliver d target) (fun id => arrivals id [net.handOver begun now letter d target]) [] := by
  refine ⟨deliver_same net d target, fun id => ?_, ?_⟩
  · by_cases ho : net.registry.owner? target = some id
    · obtain ⟨k, hk, -⟩ := exists_of_badge (ht.sound ho)
      simp [mail_deliver_self hk ho, arrivals, handOver, ho]
    · simp [mail_deliver_ne ho, arrivals, handOver, ho]
  · unfold deliver
    split
    · exact heldBack_signal _ _
    · exact (List.append_nil _).symm

theorem Tenured.brings_copies (ht : net.Tenured held) (now : Instant) (letter : Option Letter) (h : Held)
    (copies : Nat) :
    Brings net (net.launchCopies h false copies)
      (fun id => arrivals id (List.replicate copies (net.handOver now now letter h.datagram h.target))) [] := by
  induction copies generalizing net with
  | zero => exact .refl net
  | succ n ih =>
    have hfirst := ht.brings_deliver now now letter h.datagram h.target
    have hrest := ih (ht.same hfirst.same)
    have hsame : (net.deliver h.datagram h.target).handOver now now letter h.datagram h.target =
        net.handOver now now letter h.datagram h.target := by
      rw [handOver, hfirst.same.registry, handOver]
    have hboth := hfirst.trans hrest
    simp only [hsame, ← arrivals_append] at hboth
    exact hboth

theorem brings_held (net : Network) (h : Held) (copies : Nat) :
    Brings net (net.launchCopies h true copies) (fun _ => []) (List.replicate copies h) := by
  induction copies generalizing net with
  | zero => exact .refl net
  | succ n ih =>
    have hfirst : Brings net (net.signal (.held h)) (fun _ => []) [h] :=
      ⟨⟨rfl, fun _ => rfl⟩, fun _ => (List.append_nil _).symm, heldBack_signal net _⟩
    exact hfirst.trans (ih _)

/-! ### Sending -/

theorem factories_deliver (net : Network) (d : Datagram) (target : Address) :
    (net.deliver d target).factories = net.factories := by
  unfold deliver
  split <;> rfl

theorem factories_launchCopies (net : Network) (h : Held) (held : Bool) (copies : Nat) :
    (net.launchCopies h held copies).factories = net.factories := by
  induction copies generalizing net with
  | zero => rfl
  | succ n ih =>
    rw [launchCopies, ih, launch]
    cases held with
    | true => rfl
    | false => exact factories_deliver net _ _

theorem faults?_congr (h : net'.factories = net.factories) (f : Nat) : net'.faults? f = net.faults? f := by
  rw [faults?, h, faults?]

theorem faults?_set {factory : Nat} {f : Factory} (hf : net.factories[factory]? = some f) (faults : FaultModel)
    (n : Nat) : { net with factories := net.factories.set! factory { f with faults } }.faults? n =
      if factory = n then some faults else net.faults? n := by
  have hlt := (Array.getElem?_eq_some_iff.mp hf).1
  simp only [faults?, Array.set!_eq_setIfInBounds, Array.getElem?_setIfInBounds]
  by_cases hn : factory = n
  · subst hn
    simp [hlt]
  · simp [hn]

def handOverAll (net : Network) (now : Instant) (letters : List Letter) : List Delivery :=
  (letters.flatMap Letter.prompt).map fun l => net.handOver now now (some l) l.datagram l.target

theorem send_of_none (h : net.letter? now id target b mayHold = none) :
    Brings net (net.send id target b mayHold).2 (fun _ => []) [] ∧
      ∀ f, (net.send id target b mayHold).2.faults? f = net.faults? f := by
  simp only [letter?] at h
  simp only [send]
  cases hk : net.sockets[id]? with
  | none => exact ⟨.refl net, fun _ => rfl⟩
  | some k =>
    simp only [hk] at h ⊢
    cases hfailure : net.sendFailure? k with
    | some e => exact ⟨brings_notes rfl rfl rfl, fun _ => rfl⟩
    | none =>
      cases hf : net.factories[k.factory]? with
      | none =>
        simp only [transmit, hf]
        exact ⟨brings_notes rfl rfl rfl, fun _ => rfl⟩
      | some f => simp [hfailure, faults?, hf] at h

theorem Tenured.brings_transmit (ht : net.Tenured held) (now : Instant) (l : Letter) {f : Factory}
    (hf : net.factories[l.factory]? = some f) (hdelay : l.delay = f.faults.plan.delay)
    (hfate : l.fate = (f.faults.decide l.datagram.octets).1) :
    Brings net (net.transmit l.factory l.datagram l.target l.mayHold)
      (fun id => arrivals id (net.handOverAll now [l])) (l.late.map Letter.toHeld) := by
  have hnotes (faults : FaultModel) :
      Brings net { net with factories := net.factories.set! l.factory { f with faults } } (fun _ => []) [] :=
    brings_notes rfl rfl rfl
  have hprompt : net.handOverAll now [l] =
      l.prompt.map fun l => net.handOver now now (some l) l.datagram l.target := by
    simp [handOverAll]
  rw [hprompt]
  simp only [transmit, hf, ← hdelay]
  cases hdecided : (f.faults.decide l.datagram.octets).1 with
  | lost =>
    rw [hdecided] at hfate
    simpa [Letter.prompt, Letter.late, Letter.isLate, Letter.copies, hfate] using hnotes _
  | delivered copies late =>
    rw [hdecided] at hfate
    cases hlate : late && l.mayHold with
    | true =>
      simp only [Letter.prompt, Letter.late, Letter.isLate, Letter.copies, hfate, hlate, if_true, List.map_nil,
        List.map_replicate]
      exact (hnotes _).trans (brings_held _ _ _)
    | false =>
      simp only [Letter.prompt, Letter.late, Letter.isLate, Letter.copies, hfate, hlate, if_false,
        Bool.false_eq_true, List.map_nil, List.map_replicate]
      exact (hnotes _).trans ((ht.same (hnotes _).same).brings_copies now (some l) l.toHeld copies)

theorem faults?_transmit {f : Factory} {factory : Nat} (hf : net.factories[factory]? = some f) (d : Datagram)
    (target : Address) (mayHold : Bool) (n : Nat) : (net.transmit factory d target mayHold).faults? n =
      if factory = n then some (f.faults.decide d.octets).2 else net.faults? n := by
  rw [← faults?_set hf]
  simp only [transmit, hf]
  split
  · rfl
  · exact faults?_congr (factories_launchCopies _ _ _ _) n

theorem Tenured.send_of_some (ht : net.Tenured held) (h : net.letter? now id target b mayHold = some l) :
    (net.send id target b mayHold).1 = .ok () ∧
      Brings net (net.send id target b mayHold).2 (fun id => arrivals id (net.handOverAll now [l]))
        (l.late.map Letter.toHeld) ∧
      ∃ m, net.faults? l.factory = some m ∧ l.position = m.sent ∧ l.delay = m.plan.delay ∧
        l.fate = (m.decide l.datagram.octets).1 ∧
        ∀ f, (net.send id target b mayHold).2.faults? f =
          if l.factory = f then some (m.decide l.datagram.octets).2 else net.faults? f := by
  simp only [letter?] at h
  cases hk : net.sockets[id]? with
  | none => simp [hk] at h
  | some k =>
    cases hf : net.factories[k.factory]? with
    | none => simp [hk, faults?, hf] at h
    | some f =>
      cases hfailure : net.sendFailure? k with
      | some e => simp [hk, hfailure] at h
      | none =>
        simp only [hk, hfailure, faults?, hf, Option.map_some, Option.some.injEq] at h
        subst h
        simp only [send, hk, hfailure, Option.map_none]
        have hnotes (transmissions : List Transmission) :
            Brings net { net with transmissions } (fun _ => []) [] :=
          brings_notes rfl rfl rfl
        have hnoted (transmissions : List Transmission) :
            { net with transmissions }.factories[k.factory]? = some f := hf
        -- The note of the transmission comes first, then the copies.
        refine ⟨trivial, ?_, f.faults, by simp [faults?, hf], rfl, rfl, rfl, fun n => ?_⟩
        · have hsame := ht.same (hnotes (⟨k.address, target, b, none⟩ :: net.transmissions)).same
          exact (hnotes _).trans
            (hsame.brings_transmit now ⟨⟨⟨k.address, b⟩, target, _⟩, _, _, now, _, _⟩ (hnoted _) rfl rfl)
        · exact faults?_transmit (hnoted _) ⟨k.address, b⟩ target mayHold n

/-! ### Receiving -/

theorem not_shut_of_open {k : NetSocket} (hk : net.sockets[id]? = some k) (hopen : ¬ k.closed = true) :
    ¬ net.Shut id := by
  rintro ⟨a, hb⟩
  simp [badge, hk, hopen] at hb

theorem receive_cases (net : Network) (id : SocketId) (limit : Nat) :
    (∃ e net', net.receive id limit = (.error e, net') ∧ Brings net net' (fun _ => []) []) ∨
      ∃ d net', net.receive id limit = (.ok (d.source, d.octets.take limit), net') ∧ Same net net' ∧
        ¬ net.Shut id ∧ net.mail id = d :: net'.mail id ∧ ∀ x, x ≠ id → net'.mail x = net.mail x := by
  have hsame := receive_same net id limit
  simp only [receive] at hsame ⊢
  cases hk : net.sockets[id]? with
  | none => exact .inl ⟨_, _, rfl, .refl net⟩
  | some k =>
    simp only [hk] at hsame ⊢
    cases herrors : (net.mode k.factory).receiveErrors with
    | cons kind rest => exact .inl ⟨_, _, rfl, brings_notes rfl rfl rfl⟩
    | nil =>
      simp only [herrors, takeMail] at hsame ⊢
      by_cases hclosed : k.closed = true
      · simp only [if_pos hclosed]
        exact .inl ⟨_, _, rfl, .refl net⟩
      · simp only [if_neg hclosed] at hsame ⊢
        cases hpop : k.queue.pop? with
        | none => exact .inl ⟨_, _, rfl, .refl net⟩
        | some popped =>
          obtain ⟨d, queue⟩ := popped
          simp only [hpop] at hsame ⊢
          have hself : (net.sockets.set! id { k with queue })[id]? = some { k with queue } := by
            simp [(Array.getElem?_eq_some_iff.mp hk).1]
          refine .inr ⟨d, _, rfl, hsame, not_shut_of_open hk hclosed, ?_, fun x hx => ?_⟩
          · rw [mail_of_some hk, mail_of_some hself]
            exact Queue.toList_of_pop? hpop
          · refine mail_congr ?_
            rw [Array.set!_eq_setIfInBounds, Array.getElem?_setIfInBounds_ne (Ne.symm hx)]

/-! ### Acts -/

namespace Outside

def posted (net : Network) (now : Instant) : Outside → List Letter
  | .send id target b mayHold => (net.letter? now id target b mayHold).toList
  | _ => []

def delivered (net : Network) (now : Instant) : Outside → List Delivery
  | .deliver d target => [net.handOver now now none d target]
  | x => net.handOverAll now (x.posted net now)

def read (net : Network) : Outside → List Reading
  | .receive id limit =>
    match (net.receive id limit).1, net.mail id with
    | .ok got, d :: _ => [⟨id, limit, d, got⟩]
    | _, _ => []
  | _ => []

def takesSignals : Outside → Bool
  | .takeSignals => true
  | _ => false

end Outside

theorem mail_bind (net : Network) (factory : Nat) (a : Address) (id : SocketId) :
    (net.bind factory a).2.mail id = net.mail id := by
  simp only [bind]
  split
  · simp only [mail, Array.getElem?_push]
    by_cases hid : id = net.sockets.size <;> simp [hid]
  · rfl

theorem sockets_close_ne (net : Network) {x : SocketId} (h : x ≠ id) :
    (net.close id).sockets[x]? = net.sockets[x]? := by
  unfold close
  split
  · split
    · rfl
    · simp [signal, Array.getElem?_modify, Ne.symm h]
  · rfl

theorem mail_drop (net : Network) (id x : SocketId) : (net.drop id).mail x = net.mail x := by
  unfold drop
  split <;> rfl

theorem exchanges_bind (net : Network) (factory : Nat) (a : Address) :
    Exchanges net (net.bind factory a).2 (fun _ => []) fun _ => [] where
  of_open id hopen := by
    refine ⟨fun ⟨x, hshut⟩ => hopen ?_, by simp [mail_bind]⟩
    rcases net.bind_cases factory a with ⟨b, net', hb, -, -, -, -, hnone, -, hsame⟩ | ⟨e, hb⟩ <;> rw [hb]
    · have hne : id ≠ net.sockets.size := fun he => by rw [he, hnone] at hshut; cases hshut
      exact ⟨x, (hsame id hne).trans hshut⟩
    · exact ⟨x, hshut⟩
  of_shut _ _ := rfl

theorem exchanges_close (net : Network) (id : SocketId) :
    Exchanges net (net.close id) (fun _ => []) fun _ => [] where
  of_open x hopen := by
    by_cases hx : x = id
    · subst hx
      cases hb : net.badge x with
      | none =>
        rw [close_of_none hb] at hopen ⊢
        exact ⟨hopen, List.append_nil _⟩
      | some badge =>
        obtain ⟨a, closed⟩ := badge
        exact absurd ⟨a, badge_close_self hb⟩ hopen
    · rw [shut_congr (badge_close_ne net hx)] at hopen
      exact ⟨hopen, by simp [mail_congr (sockets_close_ne net hx)]⟩
  of_shut _ _ := rfl

theorem exchanges_drop (net : Network) (id : SocketId) :
    Exchanges net (net.drop id) (fun _ => []) fun _ => [] where
  of_open x hopen := by
    rw [shut_congr (badge_drop net id x)] at hopen
    exact ⟨hopen, by simp [mail_drop]⟩
  of_shut _ _ := rfl

theorem exchanges_receive (net : Network) (id : SocketId) (limit : Nat) :
    Exchanges net (net.receive id limit).2 (fun _ => [])
      fun x => readings x (Outside.read net (.receive id limit)) := by
  rcases net.receive_cases id limit with ⟨e, net', hr, hb⟩ | ⟨d, net', hr, hs, hopen, hmail, hothers⟩
  · simp only [Outside.read, hr]
    exact hb.exchanges
  · simp only [Outside.read, hr, hmail]
    refine ⟨fun x hx => ?_, fun x hx => ?_⟩
    · rw [shut_congr (hs.badge x)] at hx
      refine ⟨hx, ?_⟩
      by_cases hid : id = x
      · subst hid
        simp [readings, hmail]
      · simp [readings, hid, hothers x (Ne.symm hid)]
    · rw [shut_congr (hs.badge x)] at hx
      have hne : id ≠ x := fun he => hopen (he ▸ hx)
      simp [readings, hne]

/-- What each act does to the mail: it adds what it delivers and takes what it reads. -/
theorem Tenured.exchanges (ht : net.Tenured held) (now : Instant) (x : Outside) :
    Exchanges net (x.run net) (fun id => arrivals id (x.delivered net now))
      fun id => readings id (x.read net) := by
  cases x with
  | bind factory a => exact exchanges_bind net factory a
  | close id => exact exchanges_close net id
  | drop id => exact exchanges_drop net id
  | send id target b mayHold =>
    simp only [Outside.delivered, Outside.posted]
    cases hl : net.letter? now id target b mayHold with
    | none => exact (send_of_none hl).1.exchanges
    | some l => exact (ht.send_of_some hl).2.1.exchanges
  | receive id limit => exact exchanges_receive net id limit
  | deliver d target => exact (ht.brings_deliver now now none d target).exchanges
  | setMode factory mode =>
    have hsame : Same net (net.setMode factory mode) := ⟨rfl, fun _ => rfl⟩
    exact exchanges_of_same hsame fun _ => (List.append_nil _).symm
  | addFactory plan =>
    have hsame : Same net (net.addFactory plan).2 := ⟨rfl, fun _ => rfl⟩
    exact exchanges_of_same hsame fun _ => (List.append_nil _).symm
  | takeSignals =>
    have hsame : Same net { net with signals := [] } := ⟨rfl, fun _ => rfl⟩
    exact exchanges_of_same hsame fun _ => (List.append_nil _).symm

/-- What has been delivered to a socket is what has been read on it, in this order, and then what waits on it; what
waited on a socket that has closed is lost. -/
def Inboxes (net : Network) (deliveries : List Delivery) (reads : List Reading) : Prop :=
  ∀ id, ∃ rest, arrivals id deliveries = readings id reads ++ rest ∧ (¬ net.Shut id → rest = net.mail id)

theorem Inboxes.exchanges {deliveries deliveries' : List Delivery} {reads reads' : List Reading}
    (h : Inboxes net deliveries reads)
    (he : Exchanges net net' (fun id => arrivals id deliveries') fun id => readings id reads') :
    Inboxes net' (deliveries ++ deliveries') (reads ++ reads') := by
  intro id
  obtain ⟨rest, harrived, hrest⟩ := h id
  by_cases hshut : net'.Shut id
  · refine ⟨rest ++ arrivals id deliveries', ?_, fun hopen => absurd hshut hopen⟩
    simp [harrived, he.of_shut id hshut]
  · obtain ⟨hopen, hmail⟩ := he.of_open id hshut
    refine ⟨net'.mail id, ?_, fun _ => rfl⟩
    rw [arrivals_append, readings_append, harrived, hrest hopen, List.append_assoc, hmail, List.append_assoc]

theorem Outside.read_got {x : Outside} {r : Reading} (hr : r ∈ x.read net) :
    r.got = (r.datagram.source, r.datagram.octets.take r.limit) := by
  cases x with
  | receive id limit =>
    rcases net.receive_cases id limit with ⟨e, net', he, -⟩ | ⟨d, net', he, -, -, hmail, -⟩
    · simp [read, he] at hr
    · simp only [read, he, hmail, List.mem_singleton] at hr
      rw [hr]
  | _ => cases hr

/-! ### Books -/

structure Unsent (net net' : Network) : Prop where
  heldBack : net'.heldBack = net.heldBack
  faults? : ∀ f, net'.faults? f = net.faults? f

theorem unsent_bind (net : Network) (factory : Nat) (a : Address) : Unsent net (net.bind factory a).2 := by
  simp only [bind]
  split <;> exact ⟨rfl, fun _ => rfl⟩

theorem unsent_close (net : Network) (id : SocketId) : Unsent net (net.close id) := by
  unfold close
  split
  · split
    · exact ⟨rfl, fun _ => rfl⟩
    · exact ⟨(heldBack_signal _ _).trans (List.append_nil _), fun _ => rfl⟩
  · exact ⟨rfl, fun _ => rfl⟩

theorem unsent_drop (net : Network) (id : SocketId) : Unsent net (net.drop id) := by
  unfold drop
  split <;> exact ⟨rfl, fun _ => rfl⟩

theorem unsent_deliver (net : Network) (d : Datagram) (target : Address) :
    Unsent net (net.deliver d target) := by
  refine ⟨?_, faults?_congr (factories_deliver net d target)⟩
  unfold deliver
  split
  · exact (heldBack_signal _ _).trans (List.append_nil _)
  · rfl

theorem unsent_setMode (net : Network) (factory : Nat) (mode : SocketMode) :
    Unsent net (net.setMode factory mode) := by
  refine ⟨rfl, fun f => ?_⟩
  simp only [faults?, setMode, Array.getElem?_modify]
  split
  · cases net.factories[f]? <;> rfl
  · rfl

theorem unsent_receive (net : Network) (id : SocketId) (limit : Nat) :
    Unsent net (net.receive id limit).2 := by
  unfold receive
  split
  · exact ⟨rfl, fun _ => rfl⟩
  · simp only
    split
    · exact unsent_setMode net _ _
    · unfold takeMail
      split
      · exact ⟨rfl, fun _ => rfl⟩
      · split <;> exact ⟨rfl, fun _ => rfl⟩

theorem Tenured.sends_cases (ht : net.Tenured held) (now : Instant) {x : Outside} (hx : x.takesSignals = false) :
    (x.posted net now = [] ∧ Unsent net (x.run net)) ∨
    (∃ plan, x.posted net now = [] ∧ x.run net = (net.addFactory plan).2) ∨
    ∃ l m, x.posted net now = [l] ∧ net.faults? l.factory = some m ∧ l.position = m.sent ∧
      l.delay = m.plan.delay ∧ l.fate = (m.decide l.datagram.octets).1 ∧
      (x.run net).heldBack = net.heldBack ++ l.late.map Letter.toHeld ∧
      ∀ f, (x.run net).faults? f = if l.factory = f then some (m.decide l.datagram.octets).2 else net.faults? f := by
  cases x with
  | bind factory a => exact .inl ⟨rfl, unsent_bind net factory a⟩
  | close id => exact .inl ⟨rfl, unsent_close net id⟩
  | drop id => exact .inl ⟨rfl, unsent_drop net id⟩
  | send id target b mayHold =>
    cases hl : net.letter? now id target b mayHold with
    | none =>
      obtain ⟨hbrings, hfaults⟩ := send_of_none hl
      exact .inl ⟨by simp [Outside.posted, hl], hbrings.heldBack.trans (List.append_nil _), hfaults⟩
    | some l =>
      obtain ⟨-, hbrings, m, hm, hposition, hdelay, hfate, hfaults⟩ := ht.send_of_some hl
      exact .inr (.inr ⟨l, m, by simp [Outside.posted, hl], hm, hposition, hdelay, hfate, hbrings.heldBack, hfaults⟩)
  | receive id limit => exact .inl ⟨rfl, unsent_receive net id limit⟩
  | deliver d target => exact .inl ⟨rfl, unsent_deliver net d target⟩
  | setMode factory mode => exact .inl ⟨rfl, unsent_setMode net factory mode⟩
  | addFactory plan => exact .inr (.inl ⟨plan, rfl, rfl⟩)
  | takeSignals => cases hx

theorem Tenured.heldBack_run (ht : net.Tenured held) (now : Instant) {x : Outside} (hx : x.takesSignals = false) :
    (x.run net).heldBack = net.heldBack ++ ((x.posted net now).flatMap Letter.late).map Letter.toHeld := by
  rcases ht.sends_cases now hx with ⟨hnone, hu⟩ | ⟨plan, hnone, hrun⟩ | ⟨l, m, hone, -, -, -, -, hheld, -⟩
  · simp [hnone, hu.heldBack]
  · rw [hnone, hrun]
    exact (List.append_nil _).symm
  · simp [hone, hheld]

/-- The letters of each factory are numbered as it has counted them, and their fates are what it has decided. -/
structure Booked (letters : List Letter) (net : Network) : Prop where
  counted : ∀ f, (letters.filter fun l => l.factory = f).map Letter.position = List.range (net.sentCount f)
  planned : ∀ f m, net.faults? f = some m → ∀ l ∈ letters, l.factory = f → l.delay = m.plan.delay ∧
    (m.Ranged → m.plan.Certain → l.fate = m.plan.fate l.position l.datagram.octets)

theorem sentCount_eq (net : Network) (f : Nat) : net.sentCount f = ((net.faults? f).map FaultModel.sent).getD 0 := by
  unfold sentCount faults?
  split <;> simp [*]

theorem sentCount_congr (h : ∀ f, net'.faults? f = net.faults? f) (f : Nat) : net'.sentCount f = net.sentCount f := by
  rw [sentCount_eq, h, sentCount_eq]

theorem faults?_addFactory (net : Network) (plan : FaultPlan) (f : Nat) : (net.addFactory plan).2.faults? f =
    if f = net.factories.size then some { plan } else net.faults? f := by
  simp only [faults?, addFactory, Array.getElem?_push]
  split <;> rfl

variable {letters : List Letter}

theorem Booked.congr (h : Booked letters net) (hfaults : ∀ f, net'.faults? f = net.faults? f) :
    Booked letters net' where
  counted f := (h.counted f).trans (by rw [sentCount_congr hfaults])
  planned f m hm := h.planned f m (hfaults f ▸ hm)

theorem booked_start {factories : Array Factory} (h : ∀ f ∈ factories, f.faults.sent = 0) :
    Booked [] { factories } where
  counted f := by
    rw [sentCount]
    cases hf : factories[f]? with
    | none => rfl
    | some x => simp [h x (Array.mem_of_getElem? hf)]
  planned _ _ _ _ hl := by cases hl

theorem Booked.factory_ne (h : Booked letters net) {f : Nat} (hf : net.faults? f = none) (hl : l ∈ letters) :
    l.factory ≠ f := by
  rintro rfl
  have hcounted := h.counted l.factory
  rw [sentCount_eq, hf] at hcounted
  have hmem : l.position ∈ (letters.filter fun x => x.factory = l.factory).map Letter.position :=
    List.mem_map_of_mem (List.mem_filter.mpr ⟨hl, decide_eq_true rfl⟩)
  rw [hcounted] at hmem
  cases hmem

theorem Booked.addFactory (h : Booked letters net) (plan : FaultPlan) :
    Booked letters (net.addFactory plan).2 := by
  have hnone : net.faults? net.factories.size = none := by simp [faults?]
  refine ⟨fun f => ?_, fun f m hm l hl hf => ?_⟩
  · rw [h.counted, sentCount_eq, sentCount_eq, faults?_addFactory]
    split
    · subst f
      rw [hnone]
      rfl
    · rfl
  · have hne : f ≠ net.factories.size := fun he => h.factory_ne hnone hl (hf.trans he)
    rw [faults?_addFactory, if_neg hne] at hm
    exact h.planned f m hm l hl hf

theorem Booked.post (h : Booked letters net) {m : FaultModel} (hm : net.faults? l.factory = some m)
    (hposition : l.position = m.sent) (hdelay : l.delay = m.plan.delay)
    (hfate : l.fate = (m.decide l.datagram.octets).1) (hfaults : ∀ f, net'.faults? f =
      if l.factory = f then some (m.decide l.datagram.octets).2 else net.faults? f) :
    Booked (letters ++ [l]) net' := by
  obtain ⟨hsent, hplan, hdice⟩ := m.decide_frame l.datagram.octets
  refine ⟨fun f => ?_, fun f m' hm' x hx hf => ?_⟩
  · rw [List.filter_append, List.map_append, h.counted, sentCount_eq, sentCount_eq, hfaults]
    by_cases hlf : l.factory = f
    · subst hlf
      simp [hm, hsent, hposition, List.range_succ]
    · simp [hlf]
  · rw [hfaults] at hm'
    by_cases hlf : l.factory = f
    · obtain rfl : (m.decide l.datagram.octets).2 = m' := by simpa [hlf] using hm'
      have hranged : (m.decide l.datagram.octets).2.Ranged → m.Ranged := fun hr n => hdice ▸ hr n
      rw [hplan]
      rcases List.mem_append.mp hx with hx | hx
      · obtain ⟨hd, hplanned⟩ := h.planned f m (hlf ▸ hm) x hx hf
        exact ⟨hd, fun hr hc => hplanned (hranged hr) hc⟩
      · obtain rfl := List.mem_singleton.mp hx
        refine ⟨hdelay, fun hr hc => ?_⟩
        rw [hfate, hposition]
        exact FaultModel.decide_fst (hranged hr) hc _
    · rw [if_neg hlf] at hm'
      rcases List.mem_append.mp hx with hx | hx
      · exact h.planned f m' hm' x hx hf
      · exact absurd (List.mem_singleton.mp hx ▸ hf) hlf

theorem Booked.run (h : Booked letters net) (ht : net.Tenured held) (now : Instant) {x : Outside}
    (hx : x.takesSignals = false) : Booked (letters ++ x.posted net now) (x.run net) := by
  rcases ht.sends_cases now hx with ⟨hnone, hu⟩ | ⟨plan, hnone, hrun⟩ |
    ⟨l, m, hone, hm, hposition, hdelay, hfate, -, hfaults⟩
  · rw [hnone, List.append_nil]
    exact h.congr hu.faults?
  · rw [hnone, List.append_nil, hrun]
    exact h.addFactory plan
  · rw [hone]
    exact h.post hm hposition hdelay hfate hfaults

/-- Nobody is spared: on any network an act leaves addresses with open sockets that were bound to them. -/
theorem Tenured.run (ht : net.Tenured fun _ => False) (x : Outside) : (x.run net).Tenured fun _ => False := by
  cases x with
  | bind factory a => exact (ht.bind factory a).mono fun _ h => h.elim
  | close id => exact ht.close id
  | drop id => exact ht.drop not_false
  | send id target b mayHold => exact ht.same (send_same net id target b mayHold)
  | receive id limit => exact ht.same (receive_same net id limit)
  | deliver d target => exact ht.same (deliver_same net d target)
  | setMode _ _ => exact ht.same ⟨rfl, fun _ => rfl⟩
  | addFactory _ => exact ht.same ⟨rfl, fun _ => rfl⟩
  | takeSignals => exact ht.same ⟨rfl, fun _ => rfl⟩

theorem badge_run {a : Address} {closed : Bool} (hb : net.badge id = some (a, closed)) (x : Outside) :
    ∃ closed', (x.run net).badge id = some (a, closed') := by
  cases x with
  | bind factory a' =>
    refine ⟨closed, ?_⟩
    rcases net.bind_cases factory a' with ⟨b, net', hbind, -, -, -, -, hnone, -, hsame⟩ | ⟨e, hbind⟩ <;>
      rw [Outside.run, hbind]
    · have hne : id ≠ net.sockets.size := fun he => by rw [he, hnone] at hb; cases hb
      exact (hsame id hne).trans hb
    · exact hb
  | close x =>
    by_cases hx : id = x
    · subst hx
      exact ⟨true, badge_close_self hb⟩
    · exact ⟨closed, (badge_close_ne net hx).trans hb⟩
  | drop x => exact ⟨closed, (badge_drop net x id).trans hb⟩
  | send x target b mayHold => exact ⟨closed, ((send_same net x target b mayHold).badge id).trans hb⟩
  | receive x limit => exact ⟨closed, ((receive_same net x limit).badge id).trans hb⟩
  | deliver d target => exact ⟨closed, ((deliver_same net d target).badge id).trans hb⟩
  | setMode _ _ => exact ⟨closed, hb⟩
  | addFactory _ => exact ⟨closed, hb⟩
  | takeSignals => exact ⟨closed, hb⟩

end Network

end DatagramStreams
