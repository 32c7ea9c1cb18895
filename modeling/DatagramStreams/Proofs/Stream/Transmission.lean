import DatagramStreams.Proofs.Stream.Acts
import DatagramStreams.Proofs.Stream.Window

/-! What a poll hands to its socket, over a script that fails wherever it likes. Main statement:
`ReliableStream.Reached.poll_transmits`, the packets in flight if they are due again, then those of the queue as
long as the window has room and the socket takes them, then an ACK that has waited long enough.
-/

set_option autoImplicit false

namespace DatagramStreams

structure Offer where
  packet : Packet
  failure : Option IoKind

namespace Offer

def taken (x : Offer) : Bool := x.failure.isNone

def fatal? (x : Offer) : Option IoKind := x.failure.filter (· ≠ .wouldBlock)

def failure? (offers : List Offer) : Option IoKind := offers.findSome? fatal?

def verdict {α : Type} (a : α) (offers : List Offer) : Except IoError α :=
  match failure? offers with
  | some k => .error (.injected k)
  | none => .ok a

def answer (x : Offer) : Except IoError Bool :=
  match x.fatal? with
  | some k => .error (.injected k)
  | none => .ok x.taken

theorem fatal?_of_taken {x : Offer} (h : x.taken = true) : x.fatal? = none := by
  simp [fatal?, Option.isNone_iff_eq_none.mp h]

theorem failure?_cons {x : Offer} (h : x.fatal? = none) (rest : List Offer) :
    failure? (x :: rest) = failure? rest := by
  simp [failure?, h]

theorem failure?_append {xs : List Offer} (h : failure? xs = none) (ys : List Offer) :
    failure? (xs ++ ys) = failure? ys := by
  rw [failure?] at h
  rw [failure?, List.findSome?_append, h]
  rfl

theorem fatal?_of_mem {offers : List Offer} (h : failure? offers = none) {x : Offer} (hx : x ∈ offers) :
    x.fatal? = none :=
  List.findSome?_eq_none_iff.mp h x hx

end Offer

namespace Link

/-- The link after an offer. A packet that is taken has the ACK along that waits; one that is refused gives it
back, and its delay starts again. -/
def tried (now : Instant) (l : Link) (x : Offer) : Link :=
  { l with
    acks := if x.taken || l.acks.ack.isNone then l.acks.cleared
      else { l.acks with timer := .startedAt now } }

def offered (now : Instant) (l : Link) (offers : List Offer) : Link := offers.foldl (tried now) l

def attempts (now : Instant) : Link → List Offer → List Recorder.Attempt
  | _, [] => []
  | l, x :: rest => ⟨l.peer, loaded x.packet l.acks.ack, x.failure⟩ :: attempts now (l.tried now x) rest

theorem peer_offered (now : Instant) (l : Link) (offers : List Offer) : (l.offered now offers).peer = l.peer := by
  induction offers generalizing l with
  | nil => rfl
  | cons x rest ih => exact ih (l.tried now x)

theorem attempts_append (now : Instant) (l : Link) (xs ys : List Offer) :
    l.attempts now (xs ++ ys) = l.attempts now xs ++ (l.offered now xs).attempts now ys := by
  induction xs generalizing l with
  | nil => rfl
  | cons x rest ih => rw [List.cons_append, attempts, ih]; rfl

theorem attempts_kept (now : Instant) (l : Link) {offers : List Offer} (h : ∀ x ∈ offers, x.packet.ack = none) :
    (l.attempts now offers).map (fun a => { a.packet with ack := none }) = offers.map Offer.packet := by
  induction offers generalizing l with
  | nil => rfl
  | cons x rest ih =>
    obtain ⟨hx, hrest⟩ := List.forall_mem_cons.mp h
    have hkept (ack : Option Seq) : { loaded x.packet ack with ack := none } = x.packet := by
      cases ack <;> simp [loaded, Packet.withAck, ← hx]
    rw [attempts, List.map_cons, List.map_cons, ih _ hrest, hkept]

/-- The script has noted the offers, and the ACK that waits has fared as they did. -/
structure Notes (now : Instant) (l : Link) (s : Recorder) (offers : List Offer) (l' : Link) (s' : Recorder) :
    Prop where
  link : l' = l.offered now offers
  attempts : s'.attempts.toList = s.attempts.toList ++ l.attempts now offers

theorem Notes.nil (now : Instant) (l : Link) (s : Recorder) : Notes now l s [] l s :=
  ⟨rfl, (List.append_nil _).symm⟩

theorem Notes.append {now : Instant} {l l' l'' : Link} {s s' s'' : Recorder} {xs ys : List Offer}
    (h : Notes now l s xs l' s') (h' : Notes now l' s' ys l'' s'') : Notes now l s (xs ++ ys) l'' s'' where
  link := by rw [h'.link, h.link, offered, offered, offered, List.foldl_append]
  attempts := by rw [h'.attempts, h.attempts, h.link, attempts_append, List.append_assoc]

theorem send_noted (l : Link) (p : Packet) (now : Instant) (s : Recorder) : ∃ failure l' s',
    l.send Recorder.socket p now s = (Offer.answer ⟨p, failure⟩, l', s') ∧
      l' = (if failure.isNone then (l.attach p).2 else (l.attach p).2.giveBack (l.attach p).1 now) ∧
      s'.attempts.toList = s.attempts.toList ++ [⟨l.peer, loaded p (l.attach p).1, failure⟩] := by
  refine ⟨s.outcome.1, _, (s.send l.peer (loaded p (l.attach p).1)).2, ?_, rfl, Queue.toList_push _ _⟩
  unfold send
  simp only [Recorder.socket, Recorder.send]
  cases hk : s.outcome.1 with
  | none => rfl
  | some k => cases k <;> rfl

theorem send_kept (l : Link) {p : Packet} (hp : p.ack = none) (now : Instant) (s : Recorder) :
    ∃ x l' s', x.packet = p ∧ l.send Recorder.socket p now s = (Offer.answer x, l', s') ∧
      Notes now l s [x] l' s' := by
  obtain ⟨failure, l', s', hs, rfl, hn⟩ := l.send_noted p now s
  have hattach : l.attach p = (l.acks.ack, { l with acks := l.acks.cleared }) := by
    simp [attach, Packet.hasAck, hp, AckHolder.take]
  refine ⟨⟨p, failure⟩, _, s', rfl, hs, ?_, ?_⟩
  · rw [hattach]
    cases failure with
    | none => rfl
    | some k => cases hack : l.acks.ack <;> simp [offered, tried, Offer.taken, hack, giveBack, AckHolder.restore,
        AckHolder.cleared]
  · rw [hattach] at hn
    exact hn

end Link

open Offer (failure? verdict)
open Link (Notes)

structure Resends (ps : List Packet) (offers : List Offer) : Prop where
  order : offers.map Offer.packet <+: ps
  all : failure? offers = none → offers.map Offer.packet = ps
  stops : offers.Pairwise fun x _ => x.fatal? = none

/-- Packets are offered from the front of a queue, behind the packets `ps` in flight, while fewer than `size` are
in flight. The first that is not taken is the last offered, and stays at the front. -/
structure Drains (ps : List Packet) (size : Nat) (queue : List Packet) (offers : List Offer) (w' : SendWindow)
    (queue' : List Packet) : Prop where
  order : offers.map Offer.packet <+: queue
  stops : offers.Pairwise fun x _ => x.taken = true
  room : ∀ i < offers.length, ps.length + i < size
  size : w'.size = size
  window : w'.packets = ps ++ (offers.filter Offer.taken).map Offer.packet
  queue : queue = (offers.filter Offer.taken).map Offer.packet ++ queue'
  refused : ∀ x ∈ offers, x.taken = false → queue'.head? = some x.packet

namespace Drains

variable {ps queue queue' : List Packet} {p : Packet} {size : Nat} {offers : List Offer} {w w' : SendWindow}
  {x : Offer}

theorem nil (w : SendWindow) (queue : List Packet) : Drains w.packets w.size queue [] w queue where
  order := List.nil_prefix
  stops := .nil
  room := nofun
  size := rfl
  window := (List.append_nil _).symm
  queue := rfl
  refused := nofun

theorem refuse (hx : x.taken = false) (hw : w.isFull = false) (queue : List Packet) :
    Drains w.packets w.size (x.packet :: queue) [x] w (x.packet :: queue) where
  order := List.prefix_append [x.packet] queue
  stops := List.pairwise_singleton _ _
  room i hi := by
    have hi : i = 0 := Nat.lt_one_iff.mp hi
    simp only [SendWindow.isFull, decide_eq_false_iff_not, Nat.not_le] at hw
    rw [SendWindow.length_packets, hi]
    exact hw
  size := rfl
  window := by simp [hx]
  queue := by simp [hx]
  refused y hy _ := by rw [List.mem_singleton.mp hy]; rfl

theorem take (now : Instant) (hx : x.taken = true) (hw : w.isFull = false)
    (h : Drains (w.register x.packet now).packets (w.register x.packet now).size queue offers w' queue') :
    Drains w.packets w.size (x.packet :: queue) (x :: offers) w' queue' where
  order := List.cons_prefix_cons.mpr ⟨rfl, h.order⟩
  stops := .cons (fun _ _ => hx) h.stops
  room i hi := by
    cases i with
    | zero => simpa [SendWindow.isFull] using hw
    | succ i =>
      have hroom : (w.register x.packet now).packets.length + i < w.size :=
        h.room i (Nat.lt_of_succ_lt_succ hi)
      rw [SendWindow.length_packets, SendWindow.inFlight_register] at hroom
      rw [SendWindow.length_packets]
      omega
  size := h.size
  window := by
    rw [h.window, SendWindow.packets_register]
    simp [hx]
  queue := by simpa [hx] using h.queue
  refused y hy hno := by
    rcases List.mem_cons.mp hy with rfl | hy
    · simp [hx] at hno
    · exact h.refused y hy hno

theorem all_kept (h : Drains ps size queue offers w' queue') : w'.packets ++ queue' = ps ++ queue := by
  rw [h.window, h.queue, List.append_assoc]

end Drains

namespace Outbound

theorem resend_recorded (now : Instant) {ps : List Packet} (hps : ∀ p ∈ ps, p.ack = none) (l : Link)
    (s : Recorder) : ∃ offers l' s', resend Recorder.socket now ps l s = (verdict () offers, l', s') ∧
      Resends ps offers ∧ Notes now l s offers l' s' := by
  induction ps generalizing l s with
  | nil => exact ⟨[], l, s, rfl, ⟨List.nil_prefix, fun _ => rfl, .nil⟩, .nil now l s⟩
  | cons p rest ih =>
    obtain ⟨hp, hrest⟩ := List.forall_mem_cons.mp hps
    obtain ⟨x, l₁, s₁, rfl, hs, hx⟩ := l.send_kept hp now s
    cases hfatal : x.fatal? with
    | some k =>
      have hverdict : verdict () [x] = .error (.injected k) := by simp [verdict, failure?, hfatal]
      refine ⟨[x], l₁, s₁, ?_, ⟨List.prefix_append [x.packet] rest, ?_, List.pairwise_singleton _ _⟩, hx⟩
      · simp only [resend, hs, Offer.answer, hfatal, hverdict]
      · simp [failure?, hfatal]
    | none =>
      obtain ⟨offers, l', s', hrec, hr, hn⟩ := ih hrest l₁ s₁
      refine ⟨x :: offers, l', s', ?_, ⟨?_, fun hall => ?_, .cons (fun _ _ => hfatal) hr.stops⟩, hx.append hn⟩
      · simp only [resend, hs, Offer.answer, hfatal, hrec, verdict, Offer.failure?_cons hfatal]
      · exact List.cons_prefix_cons.mpr ⟨rfl, hr.order⟩
      · rw [Offer.failure?_cons hfatal] at hall
        rw [List.map_cons, hr.all hall]

theorem flush_recorded (now : Instant) {queue : List Packet} (hq : ∀ p ∈ queue, p.ack = none) (w : SendWindow)
    (l : Link) (s : Recorder) : ∃ offers queue' w' l' s',
      flush Recorder.socket now queue w l s = (verdict () offers, queue', w', l', s') ∧
        Drains w.packets w.size queue offers w' queue' ∧
        ((∀ x ∈ offers, x.taken = true) → queue' = [] ∨ w'.isFull = true) ∧ Notes now l s offers l' s' := by
  induction queue generalizing w l s with
  | nil => exact ⟨[], [], w, l, s, rfl, .nil w [], fun _ => .inl rfl, .nil now l s⟩
  | cons p rest ih =>
    obtain ⟨hp, hrest⟩ := List.forall_mem_cons.mp hq
    unfold flush
    cases hfull : w.isFull with
    | true => exact ⟨[], p :: rest, w, l, s, rfl, .nil w _, fun _ => .inr hfull, .nil now l s⟩
    | false =>
      obtain ⟨x, l₁, s₁, rfl, hs, hx⟩ := l.send_kept hp now s
      simp only [hs, Bool.false_eq_true, if_false]
      cases htaken : x.taken with
      | true =>
        have hfatal := Offer.fatal?_of_taken htaken
        obtain ⟨offers, queue', w', l', s', hrec, hd, hend, hn⟩ := ih hrest (w.register x.packet now) l₁ s₁
        refine ⟨x :: offers, queue', w', l', s', ?_, hd.take now htaken hfull, fun hall => ?_, hx.append hn⟩
        · simp only [Offer.answer, hfatal, htaken, hrec, verdict, Offer.failure?_cons hfatal]
        · exact hend fun y hy => hall y (List.mem_cons_of_mem x hy)
      | false =>
        -- Whether the socket would block or fails, this packet is the last one offered.
        have hnot : ¬ ∀ y ∈ [x], y.taken = true := fun hall => by
          simpa [htaken] using hall x (List.mem_singleton_self x)
        refine ⟨[x], x.packet :: rest, w, l₁, s₁, ?_, .refuse htaken hfull rest, fun hall => absurd hall hnot, hx⟩
        cases hfatal : x.fatal? <;> simp [Offer.answer, verdict, failure?, hfatal, htaken]

def due (o : Outbound) (now : Instant) : List Packet :=
  if (o.window.retransmitDue now).1 then o.window.packets else []

theorem retransmit_recorded {o : Outbound} (ho : o.Each (·.ack = none)) (l : Link) (now : Instant)
    (s : Recorder) : ∃ offers o' l' s',
      o.retransmit Recorder.socket l now s = (verdict () offers, o', l', s') ∧ Resends (o.due now) offers ∧
        o'.queue = o.queue ∧ o'.window.packets = o.window.packets ∧
        o'.window.size = (o.window.retransmitDue now).2.size ∧ Notes now l s offers l' s' := by
  have hsame := o.window.packets_retransmitDue now
  unfold retransmit due
  rcases hdue : o.window.retransmitDue now with ⟨_ | _, w⟩ <;> rw [hdue] at hsame
  · exact ⟨[], _, l, s, rfl, ⟨List.nil_prefix, fun _ => rfl, .nil⟩, rfl, hsame, rfl, .nil now l s⟩
  · have hps : ∀ p ∈ w.packets, p.ack = none := fun p hp => ho p (List.mem_append_left _ (hsame ▸ hp))
    obtain ⟨offers, l', s', hs, hr, hn⟩ := resend_recorded now hps l s
    rw [hsame] at hr
    simp only [hs]
    exact ⟨offers, _, l', s', rfl, hr, rfl, (SendWindow.packets_markResent w now).trans hsame, rfl, hn⟩

/-- The packets in flight are offered again if they are due, then those of the queue. Nothing follows a failure,
and the queue is not left before the window is full or the socket takes no more. -/
structure Transmits (o : Outbound) (now : Instant) (resent drained : List Offer) (o' : Outbound) : Prop where
  resends : Resends (o.due now) resent
  drains : Drains o.window.packets (o.window.retransmitDue now).2.size o.queue.toList drained o'.window
    o'.queue.toList
  stops : (resent ++ drained).Pairwise fun x _ => x.fatal? = none
  complete : failure? resent = none → (∀ x ∈ drained, x.taken = true) →
    o'.queue.toList = [] ∨ o'.window.isFull = true

theorem Transmits.of_each {P : Packet → Prop} {o o' : Outbound} {now : Instant} {resent drained : List Offer}
    (h : o.Transmits now resent drained o') (ho : o.Each P) {x : Offer} (hx : x ∈ resent ++ drained) :
    P x.packet := by
  rcases List.mem_append.mp hx with hx | hx
  · have hdue : x.packet ∈ o.due now := h.resends.order.subset (List.mem_map_of_mem hx)
    unfold due at hdue
    split at hdue
    · exact ho _ (List.mem_append_left _ hdue)
    · exact absurd hdue List.not_mem_nil
  · exact ho _ (List.mem_append_right _ (h.drains.order.subset (List.mem_map_of_mem hx)))

theorem drive_recorded {o : Outbound} (ho : o.Each (·.ack = none)) (l : Link) (now : Instant) (s : Recorder) :
    ∃ resent drained o' l' s',
      o.drive Recorder.socket l now s = (verdict () (resent ++ drained), o', l', s') ∧
        o.Transmits now resent drained o' ∧ Notes now l s (resent ++ drained) l' s' := by
  obtain ⟨resent, o₁, l₁, s₁, hs, hr, hqueue, hsame, hsize, hn⟩ := retransmit_recorded ho l now s
  simp only [drive, hs]
  cases hfail : failure? resent with
  | some k =>
    -- The poll ends here and leaves the queue alone.
    have hnil := Drains.nil o₁.window o₁.queue.toList
    rw [hsame, hsize, congrArg Queue.toList hqueue] at hnil
    refine ⟨resent, [], o₁, l₁, s₁, ?_, ⟨hr, ?_, ?_, ?_⟩, ?_⟩
    · simp [verdict, hfail]
    · rwa [hqueue]
    · simpa using hr.stops
    · simp [hfail]
    · simpa using hn
  | none =>
    have hqueued : ∀ p ∈ o₁.queue.toList, p.ack = none := fun p hp =>
      ho p (List.mem_append_right _ (hqueue ▸ hp))
    obtain ⟨drained, queue', w', l₂, s₂, hf, hd, hend, hn₂⟩ :=
      flush_recorded now hqueued o₁.window l₁ s₁
    have hverdict : verdict () resent = .ok () := by simp [verdict, hfail]
    rw [hsame, hsize, congrArg Queue.toList hqueue] at hd
    simp only [hverdict, hf]
    refine ⟨resent, drained, { o₁ with queue := .ofList queue', window := w' }, l₂, s₂, ?_,
      ⟨hr, hd, ?_, fun _ => hend⟩, hn.append hn₂⟩
    · simp only [verdict, Offer.failure?_append hfail]
    · exact List.pairwise_append.mpr ⟨hr.stops, hd.stops.imp Offer.fatal?_of_taken,
        fun x hx _ _ => Offer.fatal?_of_mem hfail hx⟩

end Outbound

namespace ReliableStream

theorem flushAck_recorded (l : Link) (now : Instant) (s : Recorder) : ∃ failure l' s',
    flushAck Recorder.socket l now s = (l', s') ∧ s'.attempts.toList = s.attempts.toList ++
      (l.acks.takeExpired now).1.toList.map fun a => ⟨l.peer, .ackOnly a, failure⟩ := by
  unfold flushAck
  rcases l.acks.takeExpired now with ⟨_ | a, acks⟩
  · exact ⟨none, _, s, rfl, (List.append_nil _).symm⟩
  · obtain ⟨failure, l', s', hs, -, hn⟩ := Link.send_noted { l with acks } (.ackOnly a) now s
    simp only [Link.sendQuietly, hs]
    exact ⟨failure, _, _, rfl, hn⟩

/-- A poll that finds the peer alive offers the packets in flight, if they are due again, and those of the queue
that there is room for, each as it was first sent but for its ACK. An ACK that no packet has taken along and whose
delay has passed leaves at the end, unless a failure has ended the poll. Whatever the socket refuses, the window
and the queue behind it hold the same packets as before, and if it refuses none, the window has no room left or
the queue no packets. -/
theorem Reached.poll_transmits {σ : Type} {sock : Socket σ} {r : ReliableStream} (h : Reached sock r) (l : Link)
    (now : Instant) (s : Recorder) (hlive : (r.poll Recorder.socket l now s).1 ≠ .ok .dead) :
    ∃ resent drained failure r' l' s', let offers := resent ++ drained
      r.poll Recorder.socket l now s = (verdict .alive offers, r', l', s') ∧
      r.outbound.Transmits now resent drained r'.outbound ∧
      (l.attempts now offers).map (fun a => { a.packet with ack := none }) = offers.map Offer.packet ∧
      s'.attempts.toList = s.attempts.toList ++ l.attempts now offers ++
        (if failure? offers = none then ((l.offered now offers).acks.takeExpired now).1.toList.map fun a =>
          ⟨l.peer, .ackOnly a, failure⟩ else []) ∧
      ((∀ x ∈ offers, x.taken = true) →
        r'.outbound.queue.toList = [] ∨ r'.outbound.window.isFull = true) ∧
      r'.outbound.window.packets ++ r'.outbound.queue.toList =
        r.outbound.window.packets ++ r.outbound.queue.toList := by
  have hdead : ¬ r.outbound.isDead now = true := fun hdead => hlive ((poll_eq_dead_iff _ r l now s).mpr hdead)
  obtain ⟨resent, drained, o, l₁, s₁, hs, ho, hn⟩ := Outbound.drive_recorded h.unacked l now s
  have hkept : (l.attempts now (resent ++ drained)).map (fun a => { a.packet with ack := none }) =
      (resent ++ drained).map Offer.packet :=
    Link.attempts_kept now l fun x hx => ho.of_each h.unacked hx
  have hend (hall : ∀ x ∈ resent ++ drained, x.taken = true) :
      o.queue.toList = [] ∨ o.window.isFull = true :=
    ho.complete (List.findSome?_eq_none_iff.mpr fun x hx => Offer.fatal?_of_taken (hall x (by simp [hx])))
      fun x hx => hall x (by simp [hx])
  unfold poll
  simp only [hdead, hs, Bool.false_eq_true, if_false]
  -- A failure ends the poll before its last step, the ACK that no packet has taken along.
  cases hfail : failure? (resent ++ drained) with
  | some k =>
    refine ⟨resent, drained, none, { r with outbound := o }, l₁, s₁, ?_, ho, hkept, ?_, hend, ho.drains.all_kept⟩
    · simp [verdict, hfail]
    · simp [hfail, hn.attempts]
  | none =>
    obtain ⟨failure, l₂, s₂, hf, hack⟩ := flushAck_recorded l₁ now s₁
    refine ⟨resent, drained, failure, { r with outbound := o }, l₂, s₂, ?_, ho, hkept, ?_, hend, ho.drains.all_kept⟩
    · simp [verdict, hfail, hf]
    · rw [hack, hn.attempts, hn.link]
      simp [hfail, Link.peer_offered]

/-- The peer has repeated its ACK three times, while the second of two packets waits for the socket. The first is
sent again and takes along the ACK that waits, the second is refused once more and stays where it is. -/
theorem Reached.poll_transmits_refused :
    let l : Link := { peer := Recorder.address, acks := { delay := 0, ack := some 7, timer := .startedAt 0 } }
    let s : Recorder := { plan := [none, some .wouldBlock] }
    ∃ r, Reached Recorder.socket r ∧
      (r.poll Recorder.socket l 20 s).2.2.2.attempts.toList =
        [⟨Recorder.address, (Packet.carrying true 65535 [1]).withAck 7, none⟩,
          ⟨Recorder.address, Packet.carrying true 0 [2], some .wouldBlock⟩] ∧
      let o := (r.poll Recorder.socket l 20 s).2.1.outbound
      o.window.packets ++ o.queue.toList = [Packet.carrying true 65535 [1], Packet.carrying true 0 [2]] := by
  intro l s
  have hnew : Reached Recorder.socket _ := .new 0 65535 {}
  have hsent := (hnew.act (.send [1]) 0 l {}).act (.send [2]) 0 l { mode := some .wouldBlock }
  have h := ((hsent.act (.receive (.ackOnly 65535)) 10 l {}).act (.receive (.ackOnly 65535)) 10 l {}).act
    (.receive (.ackOnly 65535)) 10 l {}
  obtain ⟨_, _, _, _, _, _, hs, -, -, -, -, hkept⟩ :=
    h.poll_transmits l 20 s (by rw [Ne, poll_eq_dead_iff]; decide +kernel)
  refine ⟨_, h, by decide +kernel, ?_⟩
  rw [hs]
  exact hkept.trans (by decide +kernel)

end ReliableStream

end DatagramStreams
