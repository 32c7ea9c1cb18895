import DatagramStreams.Proofs.Stream.Exchange
import DatagramStreams.Session.Connection

/-! What an application and its timers make a connection do: sends, closes, callbacks and whatever a
handler does inside them, over a socket that plays any script.
Main statements: every one of them leads `Onward`, a whole poll `Proceeds` (`poll_proceeds`), and a packet
from the network either does too or goes through the reliable stream (`receive_cases`).
-/

set_option autoImplicit false

namespace DatagramStreams

def Callback.read? : Callback → Option Octets
  | .reliable b => some b
  | _ => none

namespace Journal

def reads (j : Journal) : List Octets := j.callbacks.filterMap Callback.read?

theorem reads_callback (j : Journal) (call : Callback) :
    (j.add (.callback call)).reads = j.reads ++ call.read?.toList := by
  cases h : call.read? <;> simp [reads, callbacks, h]

theorem reads_add {j : Journal} {h : Happening} (hc : ∀ call, h ≠ .callback call) :
    (j.add h).reads = j.reads := by
  cases h with
  | callback call => exact absurd rfl (hc call)
  | _ => simp [reads, callbacks]

theorem reads_noteSend (j : Journal) (payload : Octets) (result : Except ConnectionError Unit) :
    (j.noteSend payload result).reads = j.reads := by
  cases result <;> rfl

theorem taken_noteSend (j : Journal) (payload : Octets) (result : Except ConnectionError Unit) :
    (j.noteSend payload result).taken = j.taken ++ Outbound.taking payload result := by
  cases result with
  | error e => simp [noteSend, Outbound.taking]
  | ok u => simp [noteSend, taken, Outbound.taking]

end Journal

theorem UnreliableStream.send_minor (u : UnreliableStream) {l : Link} {a : Seq} (h : l.acks.Offers a)
    (payload : Octets) (now : Instant) (r : Recorder) : ∃ result u' l' r' new,
      u.send Recorder.socket l payload now r = (result, u', l', r') ∧ Handed now l r l' r' new ∧
        ∀ q ∈ new, q.Minor a := by
  have hd := Packet.data_eq false u.sequenceOut payload
  unfold send
  cases hx : Packet.payloadError? payload with
  | some e =>
    rw [hx] at hd
    simp only [hd]
    exact ⟨_, _, l, r, [], rfl, .refl now l r, by simp⟩
  | none =>
    rw [hx] at hd
    obtain ⟨l', r', new, hs, hh, hm⟩ := Link.sendQuietly_minor h
      (p := .carrying false u.sequenceOut payload)
      ⟨rfl, Packet.fits_carrying hx, fun x hx => by simp [Packet.carrying] at hx⟩ now r
    simp only [hd]
    rcases hl : l.send Recorder.socket (.carrying false u.sequenceOut payload) now r with ⟨result, l₁, r₁⟩
    rw [Link.sendQuietly, hl] at hs
    obtain ⟨rfl, rfl⟩ := Prod.mk.inj hs
    cases result with
    | ok sent => exact ⟨_, _, l₁, r₁, new, rfl, hh, hm⟩
    | error e => exact ⟨_, _, l₁, r₁, new, rfl, hh, hm⟩

namespace Connection

def window (c : Connection) : SendWindow := c.reliable.outbound.window

/-- The sending side of a connection whose peer has acknowledged `b` payloads. An open connection gives
the next payload the number it has among all taken. -/
structure Sending (out : Seq) (b : Nat) (c : Connection) : Prop where
  carries : c.reliable.outbound.Carries out b c.journal.taken
  offers : c.link.acks.Offers c.reliable.inbound.sequence
  aligned : c.isOpen = true → c.reliable.outbound.sequence = out.after c.journal.taken.length

def Emitted (out : Seq) (b : Nat) (c : Connection) (r : Recorder) (c' : Connection) (r' : Recorder) : Prop :=
  ∃ new, r'.passed = r.passed ++ new ∧
    Emits out c'.journal.taken b c.reliable.inbound.sequence (b + c.window.inFlight) new
      (b + c'.window.inFlight)

/-- From `c` to `c'` nothing was received, callbacks handed over `read`, and packets left in order. -/
structure Moves (out : Seq) (b : Nat) (read : List Octets) (c : Connection) (r : Recorder)
    (c' : Connection) (r' : Recorder) : Prop where
  taken : c.journal.taken <+: c'.journal.taken
  reads : c'.journal.reads = c.journal.reads ++ read
  inbound : c'.reliable.inbound = c.reliable.inbound
  emits : Emitted out b c r c' r'

structure Onward (out : Seq) (b : Nat) (read : List Octets) (c : Connection) (r : Recorder)
    (c' : Connection) (r' : Recorder) : Prop extends Moves out b read c r c' r' where
  sending : c'.Sending out b

variable {out : Seq} {b : Nat} {read read' : List Octets} {c c₁ c₂ : Connection} {r r₁ r₂ : Recorder}

theorem Emitted.trans (h₁ : Emitted out b c r c₁ r₁) (h₂ : Emitted out b c₁ r₁ c₂ r₂)
    (ht : c₁.journal.taken <+: c₂.journal.taken)
    (hs : c₁.reliable.inbound.sequence = c.reliable.inbound.sequence) : Emitted out b c r c₂ r₂ := by
  obtain ⟨new₁, hp₁, he₁⟩ := h₁
  obtain ⟨new₂, hp₂, he₂⟩ := h₂
  obtain ⟨more, hmore⟩ := ht
  rw [hs] at he₂
  exact ⟨new₁ ++ new₂, by rw [hp₂, hp₁, List.append_assoc], (hmore ▸ he₁.extend more).append he₂⟩

theorem Moves.trans (h₁ : Moves out b read c r c₁ r₁) (h₂ : Onward out b read' c₁ r₁ c₂ r₂) :
    Onward out b (read ++ read') c r c₂ r₂ where
  taken := h₁.taken.trans h₂.taken
  reads := by rw [h₂.reads, h₁.reads, List.append_assoc]
  inbound := h₂.inbound.trans h₁.inbound
  emits := h₁.emits.trans h₂.emits h₂.taken (congrArg Inbound.sequence h₁.inbound)
  sending := h₂.sending

namespace Onward

theorem refl (h : c.Sending out b) (r : Recorder) : Onward out b [] c r c r :=
  ⟨⟨List.prefix_rfl, by simp, rfl, [], by simp, .nil _⟩, h⟩

theorem trans (h₁ : Onward out b read c r c₁ r₁) (h₂ : Onward out b read' c₁ r₁ c₂ r₂) :
    Onward out b (read ++ read') c r c₂ r₂ := h₁.toMoves.trans h₂

end Onward

theorem passed_releaseSocket (c : Connection) (r : Recorder) :
    (c.releaseSocket Recorder.socket r).passed = r.passed := by
  unfold releaseSocket
  split <;> rfl

theorem record_onward (h : c.Sending out b) {what : Happening} (hw : ∀ call, what ≠ .callback call)
    (r : Recorder) : Onward out b [] c r (c.record what) r :=
  ⟨⟨List.prefix_rfl, by rw [List.append_nil]; exact Journal.reads_add hw, rfl, [], by simp, .nil _⟩,
    h.carries, h.offers, h.aligned⟩

theorem callback_onward (h : c.Sending out b) (call : Callback) (r : Recorder) :
    Onward out b call.read?.toList c r (c.record (.callback call)) r :=
  ⟨⟨List.prefix_rfl, c.journal.reads_callback call, rfl, [], by simp, .nil _⟩,
    h.carries, h.offers, h.aligned⟩

theorem close_onward (hc : c.reliable.outbound.Carries out b c.journal.taken)
    (ho : c.link.acks.Offers c.reliable.inbound.sequence) (now : Instant) (r : Recorder) :
    Onward out b [] c r (c.close Recorder.socket now r).1 (c.close Recorder.socket now r).2 := by
  unfold close
  split
  · obtain ⟨l', r', new, hs, hh, hm⟩ := Link.sendQuietly_minor ho (p := .closeNotice)
      ⟨rfl, Packet.fits_closeNotice, fun x hx => by simp [Packet.closeNotice] at hx⟩ now r
    simp only [hs]
    exact ⟨⟨List.prefix_rfl, by simp, rfl, new, by rw [passed_releaseSocket, hh.passed], .of_minor _ hm⟩,
      hc, hh.offers ho, fun h => by simp [isOpen] at h⟩
  · rename_i hstate
    exact .refl ⟨hc, ho, fun h => absurd (of_decide_eq_true h) hstate⟩ r

theorem closeIfFatal_onward (hc : c.reliable.outbound.Carries out b c.journal.taken)
    (ho : c.link.acks.Offers c.reliable.inbound.sequence) {result : Except ConnectionError Unit}
    (ha : c.isOpen = true → c.reliable.outbound.sequence = out.after c.journal.taken.length ∨
      ∃ e, result = .error e ∧ e.isFatal = true) (now : Instant) (r : Recorder) :
    Onward out b [] c r (c.closeIfFatal Recorder.socket result now r).2.1
      (c.closeIfFatal Recorder.socket result now r).2.2 := by
  cases result with
  | ok u => exact .refl ⟨hc, ho, fun h => (ha h).resolve_right (by simp)⟩ r
  | error e =>
    simp only [closeIfFatal]
    cases hf : e.isFatal with
    | false => exact .refl ⟨hc, ho, fun h => (ha h).resolve_right (by simp [hf])⟩ r
    | true => exact close_onward hc ho now r

/-- A failing socket costs a sequence, and the connection with it. -/
theorem sendReliable_onward (h : c.Sending out b) (payload : Octets) (now : Instant) (r : Recorder) :
    Onward out b [] c r (c.sendReliable Recorder.socket payload now r).2.1
      (c.sendReliable Recorder.socket payload now r).2.2 := by
  unfold sendReliable
  cases hopen : c.isOpen with
  | false => exact .refl h r
  | true =>
    obtain ⟨result, o, l', r', new, hr, hc, hh, he, hs⟩ :=
      Outbound.send_carries h.carries (h.aligned hopen) h.offers payload now r
    rw [← Journal.taken_noteSend] at hc he hs
    simp only [ReliableStream.send, hr, Bool.not_true, Bool.false_eq_true, if_false]
    have hm : Moves out b [] c r
        { c with
          reliable := { c.reliable with outbound := o }
          link := l'
          journal := c.journal.noteSend payload result } r' :=
      ⟨by rw [Journal.taken_noteSend]; exact List.prefix_append _ _,
        by rw [List.append_nil]; exact Journal.reads_noteSend _ _ _, rfl, new, hh.passed, he⟩
    refine hm.trans (closeIfFatal_onward hc (hh.offers h.offers) (fun _ => ?_) now r')
    rcases hs with hs | ⟨k, hk, -⟩
    · exact .inl hs
    · exact .inr ⟨_, hk, rfl⟩

theorem sendUnreliable_onward (h : c.Sending out b) (payload : Octets) (now : Instant) (r : Recorder) :
    Onward out b [] c r (c.sendUnreliable Recorder.socket payload now r).2.1
      (c.sendUnreliable Recorder.socket payload now r).2.2 := by
  unfold sendUnreliable
  cases hopen : c.isOpen with
  | false => exact .refl h r
  | true =>
    obtain ⟨result, u, l', r', new, hr, hh, hm⟩ := c.unreliable.send_minor h.offers payload now r
    simp only [hr, Bool.not_true, Bool.false_eq_true, if_false]
    have hmoves : Moves out b [] c r { c with unreliable := u, link := l' } r' :=
      ⟨List.prefix_rfl, by simp, rfl, new, hh.passed, .of_minor _ hm⟩
    have ho : l'.acks.Offers c.reliable.inbound.sequence := hh.offers h.offers
    exact hmoves.trans (closeIfFatal_onward (c := { c with unreliable := u, link := l' }) h.carries ho
      (fun ho => .inl (h.aligned ho)) now r')

theorem perform_onward (h : c.Sending out b) (action : Action) (now : Instant) (r : Recorder) :
    Onward out b [] c r (c.perform Recorder.socket now r action).1
      (c.perform Recorder.socket now r action).2 := by
  cases action with
  | sendReliable payload =>
    have hs := sendReliable_onward h payload now r
    exact hs.trans (record_onward hs.sending (by simp) _)
  | sendUnreliable payload =>
    have hs := sendUnreliable_onward h payload now r
    exact hs.trans (record_onward hs.sending (by simp) _)
  | close =>
    have hs := close_onward h.carries h.offers now r
    exact hs.trans (record_onward hs.sending (by simp) _)
  | askState => exact record_onward h (by simp) r

theorem performAll_onward (h : c.Sending out b) (actions : List Action) (now : Instant) (r : Recorder) :
    Onward out b [] c r (performAll Recorder.socket now actions c r).1
      (performAll Recorder.socket now actions c r).2 := by
  induction actions generalizing c r with
  | nil => exact .refl h r
  | cons action rest ih =>
    have hs := perform_onward h action now r
    exact hs.trans (ih hs.sending _)

theorem notify_onward (h : c.Sending out b) (call : Callback) (now : Instant) (r : Recorder) :
    Onward out b call.read?.toList c r (c.notify Recorder.socket now call r).1
      (c.notify Recorder.socket now call r).2 := by
  have hs := callback_onward h call r
  have ht := hs.trans (performAll_onward hs.sending (c.handler.respond c.journal.entries call) now r)
  rwa [List.append_nil] at ht

theorem notifyAll_onward (h : c.Sending out b) (calls : List Callback) (now : Instant) (r : Recorder) :
    Onward out b (calls.filterMap Callback.read?) c r (notifyAll Recorder.socket now calls c r).1
      (notifyAll Recorder.socket now calls c r).2 := by
  induction calls generalizing c r with
  | nil => exact .refl h r
  | cons call rest ih =>
    have hs := notify_onward h call now r
    have ht := hs.trans (ih hs.sending (c.notify Recorder.socket now call r).2)
    have hreads : call.read?.toList ++ rest.filterMap Callback.read? =
        (call :: rest).filterMap Callback.read? := by
      cases hc : call.read? <;> simp [hc]
    rw [hreads] at ht
    exact ht

theorem announce_onward (h : c.Sending out b) (now : Instant) (r : Recorder) :
    Onward out b [] c r (c.announce Recorder.socket now r).1 (c.announce Recorder.socket now r).2 := by
  unfold announce
  split
  · exact .refl h r
  · have hm : Moves out b [] c r { c with announced := true } r :=
      ⟨List.prefix_rfl, by simp, rfl, [], by simp, .nil _⟩
    have hs : ({ c with announced := true } : Connection).Sending out b :=
      ⟨h.carries, h.offers, h.aligned⟩
    exact hm.trans (notify_onward hs .opened now r)

theorem finishClose_onward (h : c.Sending out b) (now : Instant) (r : Recorder) :
    Onward out b [] c r (c.finishClose Recorder.socket now r).1
      (c.finishClose Recorder.socket now r).2 := by
  unfold finishClose
  split
  · have hm : Moves out b [] c r { c with state := .closed } r :=
      ⟨List.prefix_rfl, by simp, rfl, [], by simp, .nil _⟩
    have hs : ({ c with state := .closed } : Connection).Sending out b :=
      ⟨h.carries, h.offers, fun ho => by simp [isOpen] at ho⟩
    exact hm.trans (notify_onward hs .closed now r)
  · exact .refl h r

theorem pollStream_onward (h : c.Sending out b) (now : Instant) (r : Recorder) :
    Onward out b [] c r (c.pollStream Recorder.socket now r).1
      (c.pollStream Recorder.socket now r).2 := by
  obtain ⟨health, s', l', r', new, hp, hi, hc, hs, hh, he⟩ :=
    ReliableStream.poll_emits h.carries h.offers now r
  have hm : Moves out b [] c r { c with reliable := s', link := l' } r' :=
    ⟨List.prefix_rfl, by simp, hi, new, hh.passed, he⟩
  have ho : l'.acks.Offers s'.inbound.sequence := hi ▸ hh.offers h.offers
  simp only [pollStream, hp]
  split
  · exact hm.trans (.refl ⟨hc, ho, fun hopen => hs ▸ h.aligned hopen⟩ r')
  · exact hm.trans (close_onward hc ho now r')

def heard (c : Connection) : List Octets := c.journal.reads ++ c.reliable.inbound.delivered.toList

structure Proceeds (out : Seq) (b : Nat) (c : Connection) (r : Recorder) (c' : Connection) (r' : Recorder) :
    Prop where
  sending : c'.Sending out b
  taken : c.journal.taken <+: c'.journal.taken
  heard : c'.heard = c.heard
  sequence : c'.reliable.inbound.sequence = c.reliable.inbound.sequence
  emits : Emitted out b c r c' r'

theorem Proceeds.trans (h₁ : Proceeds out b c r c₁ r₁) (h₂ : Proceeds out b c₁ r₁ c₂ r₂) :
    Proceeds out b c r c₂ r₂ where
  sending := h₂.sending
  taken := h₁.taken.trans h₂.taken
  heard := h₂.heard.trans h₁.heard
  sequence := h₂.sequence.trans h₁.sequence
  emits := h₁.emits.trans h₂.emits h₂.taken h₁.sequence

theorem Onward.proceeds (h : Onward out b [] c r c₁ r₁) : Proceeds out b c r c₁ r₁ :=
  ⟨h.sending, h.taken, by rw [heard, heard, h.reads, h.inbound, List.append_nil],
    congrArg Inbound.sequence h.inbound, h.emits⟩

theorem dispatch_proceeds (h : c.Sending out b) (now : Instant) (r : Recorder) :
    Proceeds out b c r (c.dispatch Recorder.socket now r).1 (c.dispatch Recorder.socket now r).2 := by
  unfold dispatch
  have hreads : (c.unreliable.takeDelivered.1.map Callback.unreliable ++
      c.reliable.takeDelivered.1.map Callback.reliable).filterMap Callback.read? =
        c.reliable.inbound.delivered.toList := by
    simp [Function.comp_def, Callback.read?, ReliableStream.takeDelivered, Inbound.takeDelivered]
  have hs : ({ c with
      unreliable := c.unreliable.takeDelivered.2
      reliable := c.reliable.takeDelivered.2 } : Connection).Sending out b :=
    ⟨h.carries, h.offers, h.aligned⟩
  have hn := notifyAll_onward hs (c.unreliable.takeDelivered.1.map Callback.unreliable ++
    c.reliable.takeDelivered.1.map Callback.reliable) now r
  rw [hreads] at hn
  have hsequence := congrArg Inbound.sequence hn.inbound
  refine ⟨hn.sending, hn.taken, ?_, hsequence, hn.emits⟩
  rw [heard, hn.reads, hn.inbound]
  simp [heard, ReliableStream.takeDelivered, Inbound.takeDelivered]

theorem poll_proceeds (h : c.Sending out b) (now : Instant) (r : Recorder) :
    Proceeds out b c r (c.poll Recorder.socket now r).2.1 (c.poll Recorder.socket now r).2.2 := by
  unfold poll
  split
  · exact (Onward.refl h r).proceeds
  · have ha := announce_onward h now r
    exact (ha.trans (finishClose_onward ha.sending now _)).proceeds
  · have ha := announce_onward h now r
    have hd := dispatch_proceeds ha.sending now (c.announce Recorder.socket now r).2
    simp only
    split
    · exact (ha.proceeds.trans hd).trans (pollStream_onward hd.sending now _).proceeds
    · exact ha.proceeds.trans hd

theorem closedByPeer_proceeds (h : c.Sending out b) (r : Recorder) :
    Proceeds out b c r (c.closedByPeer Recorder.socket r).1 (c.closedByPeer Recorder.socket r).2 := by
  unfold closedByPeer
  split
  · exact ⟨⟨h.carries, h.offers, fun ho => by simp [isOpen] at ho⟩, List.prefix_rfl, rfl, rfl, [],
      by rw [passed_releaseSocket, List.append_nil], .nil _⟩
  · exact (Onward.refl h r).proceeds

theorem window_close (c : Connection) (now : Instant) (r : Recorder) :
    (c.close Recorder.socket now r).1.window = c.window := by
  unfold close
  split <;> rfl

theorem window_closedByPeer (c : Connection) (r : Recorder) :
    (c.closedByPeer Recorder.socket r).1.window = c.window := by
  unfold closedByPeer
  split <;> rfl

structure Listens (out : Seq) (b : Nat) (q : Packet) (now : Instant) (n : Nat) (c : Connection)
    (r : Recorder) (c' : Connection) (r' : Recorder) : Prop where
  acknowledged : c.reliable.acknowledged q.ack now = .ok n
  inbound : c'.reliable.inbound = ReliableStream.reading c.reliable.inbound q
  carries : c'.reliable.outbound.Carries out (b + n) c.journal.taken
  sequence : c'.reliable.outbound.sequence = c.reliable.outbound.sequence
  inFlight : c'.window.inFlight + n = c.window.inFlight
  offers : c'.link.acks.Offers c'.reliable.inbound.sequence
  journal : c'.journal = c.journal
  state : c'.state = c.state
  passed : ∃ new, r'.passed = r.passed ++ new ∧ ∀ x ∈ new, x.Minor c'.reliable.inbound.sequence

/-- A packet that does not reach the reliable stream, or is a violation, leaves it as it was. -/
theorem receive_cases (h : c.Sending out b) (source : Address) (q : Packet) (now : Instant)
    (r : Recorder) :
    (Proceeds out b c r (c.receive Recorder.socket source q now r).2.1
        (c.receive Recorder.socket source q now r).2.2 ∧
      (c.receive Recorder.socket source q now r).2.1.window = c.window) ∨
    ∃ n, Listens out b q now n c r (c.receive Recorder.socket source q now r).2.1
      (c.receive Recorder.socket source q now r).2.2 := by
  have hstays : Proceeds out b c r (c.receiveUnreliable q) r ∧ (c.receiveUnreliable q).window = c.window := by
    unfold receiveUnreliable
    split
    · exact ⟨⟨⟨h.carries, h.offers, h.aligned⟩, List.prefix_rfl, rfl, rfl, [], by simp, .nil _⟩, rfl⟩
    · exact ⟨(Onward.refl h r).proceeds, rfl⟩
  unfold receive
  split
  · exact .inl ⟨(Onward.refl h r).proceeds, rfl⟩
  · split
    · exact .inl ⟨closedByPeer_proceeds h r, c.window_closedByPeer r⟩
    · unfold receiveData
      split
      · rcases ReliableStream.receive_emits h.carries h.offers q now r with
          ⟨fault, ha, hr⟩ | ⟨o, n, l', r', new, ha, hr, hc, hs, hi, ho, hpassed, hm⟩
        · simp only [hr]
          exact .inl ⟨(close_onward h.carries h.offers now r).proceeds, c.window_close now r⟩
        · simp only [hr]
          refine .inr ⟨n, ?_⟩
          unfold receiveUnreliable
          split <;> exact ⟨ha, rfl, hc, hs, hi, ho, rfl, rfl, new, hpassed, hm⟩
      · exact .inl hstays

end Connection

end DatagramStreams
