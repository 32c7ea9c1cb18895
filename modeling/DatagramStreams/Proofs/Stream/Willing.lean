import DatagramStreams.Proofs.Stream.Exchange

/-! Sends over a socket that takes every packet: nothing is refused, so the first packet takes the waiting
ACK along and the others go as they are.
Main statement: `poll_willing`, what leaves in one poll.
-/

set_option autoImplicit false

namespace DatagramStreams

def Recorder.Willing (r : Recorder) : Prop := r.Allows fun _ => False

theorem Recorder.willing_playing : (Recorder.playing []).Willing :=
  Recorder.allows_playing (by simp)

namespace Link

variable {l : Link}

/-- The link after these packets have left, none of which had an ACK of its own. -/
def spent (l : Link) (ps : List Packet) : Link :=
  if ps.isEmpty then l else { l with acks := l.acks.cleared }

def load (ack : Option Seq) : List Packet → List Packet
  | [] => []
  | p :: rest => loaded p ack :: rest

theorem load_none (ps : List Packet) : load none ps = ps := by
  cases ps with
  | nil => rfl
  | cons p rest => rfl

theorem load_append (l : Link) (ps qs : List Packet) :
    load l.acks.ack ps ++ load (l.spent ps).acks.ack qs = load l.acks.ack (ps ++ qs) := by
  cases ps with
  | nil => rfl
  | cons p rest =>
    have hs : (l.spent (p :: rest)).acks.ack = none := rfl
    rw [hs, load_none]
    rfl

theorem getElem?_load {ack : Option Seq} {ps : List Packet} {i : Nat} {q : Packet}
    (h : (load ack ps)[i]? = some q) : ∃ p x, ps[i]? = some p ∧ q = loaded p x := by
  cases ps with
  | nil => simp [load] at h
  | cons p rest =>
    cases i with
    | zero =>
      simp only [load, List.getElem?_cons_zero, Option.some.injEq] at h
      exact ⟨p, ack, rfl, h.symm⟩
    | succ i => exact ⟨q, none, h, rfl⟩

@[simp] theorem length_load (ack : Option Seq) (ps : List Packet) : (load ack ps).length = ps.length := by
  cases ps <;> rfl

theorem spent_append (l : Link) (ps qs : List Packet) : (l.spent ps).spent qs = l.spent (ps ++ qs) := by
  cases ps with
  | nil => rfl
  | cons p rest => cases qs <;> simp [spent, AckHolder.cleared]

theorem send_willing {r : Recorder} (h : r.Willing) (l : Link) (p : Packet) (now : Instant) :
    ∃ r', l.send Recorder.socket p now r = (.ok true, (l.attach p).2, r') ∧ r'.Willing ∧
      r'.passed = r.passed ++ [loaded p (l.attach p).1] := by
  obtain ⟨r', ⟨hs, hh⟩ | ⟨l', ⟨-, -, hk⟩ | ⟨k, -, -, -, hk⟩⟩⟩ := l.send_cases p now r
  · exact ⟨r', hs, hh.allows _ h, hh.passed⟩
  · exact absurd (hk _ h) not_false
  · exact absurd (hk _ h) not_false

theorem send_willing_bare {r : Recorder} (h : r.Willing) (l : Link) {p : Packet} (hp : p.ack = none)
    (now : Instant) : ∃ r', l.send Recorder.socket p now r = (.ok true, l.spent [p], r') ∧ r'.Willing ∧
      r'.passed = r.passed ++ load l.acks.ack [p] := by
  have ha : l.attach p = (l.acks.ack, l.spent [p]) := by
    simp [attach, Packet.hasAck, hp, AckHolder.take, spent]
  obtain ⟨r', hs, hw, hpass⟩ := send_willing h l p now
  rw [ha] at hs hpass
  exact ⟨r', hs, hw, hpass⟩

end Link

namespace Outbound

open Link (load)

theorem resend_willing (now : Instant) (ps : List Packet) (hps : ∀ p ∈ ps, p.ack = none) (l : Link)
    {r : Recorder} (h : r.Willing) : ∃ r',
      resend Recorder.socket now ps l r = (.ok (), l.spent ps, r') ∧ r'.Willing ∧
        r'.passed = r.passed ++ load l.acks.ack ps := by
  induction ps generalizing l r with
  | nil => exact ⟨r, rfl, h, by simp [load]⟩
  | cons p rest ih =>
    obtain ⟨r₁, hs, hw₁, hp₁⟩ := l.send_willing_bare h (hps p List.mem_cons_self) now
    obtain ⟨r₂, hr, hw₂, hp₂⟩ := ih (fun q hq => hps q (List.mem_cons_of_mem _ hq)) (l.spent [p]) hw₁
    refine ⟨r₂, ?_, hw₂, ?_⟩
    · simp only [resend, hs, hr, Link.spent_append]
      rfl
    · rw [hp₂, hp₁, List.append_assoc, Link.load_append]
      rfl

/-- A flush fills the window, and what has found room there has left. -/
theorem flush_willing (now : Instant) (queue : List Packet) (hq : ∀ p ∈ queue, p.ack = none)
    (w : SendWindow) (l : Link) {r : Recorder} (h : r.Willing) : ∃ ps r',
      flush Recorder.socket now queue w l r = (.ok (), (w.fill now queue).1, (w.fill now queue).2, l.spent ps, r') ∧
        queue = ps ++ (w.fill now queue).1 ∧ (w.fill now queue).2.packets = w.packets ++ ps ∧ r'.Willing ∧
        r'.passed = r.passed ++ load l.acks.ack ps := by
  induction queue generalizing w l r with
  | nil => exact ⟨[], r, rfl, rfl, by simp [SendWindow.fill], h, by simp [load]⟩
  | cons p queue ih =>
    cases hf : w.isFull with
    | true =>
      have hfill : w.fill now (p :: queue) = (p :: queue, w) := by rw [SendWindow.fill, if_pos hf]
      rw [hfill]
      exact ⟨[], r, by simp [flush, hf, Link.spent], rfl, by simp, h, by simp [load]⟩
    | false =>
      have hfill : w.fill now (p :: queue) = (w.register p now).fill now queue := by
        rw [SendWindow.fill, if_neg (ne_true_of_eq_false hf)]
      obtain ⟨r₁, hs, hw₁, hp₁⟩ := l.send_willing_bare h (hq p List.mem_cons_self) now
      obtain ⟨ps, r₂, hr, hsplit, hpackets, hw₂, hp₂⟩ :=
        ih (fun q hm => hq q (List.mem_cons_of_mem _ hm)) (w.register p now) (l.spent [p]) hw₁
      rw [hfill]
      refine ⟨p :: ps, r₂, ?_, by rw [List.cons_append, ← hsplit], by simp [hpackets], hw₂, ?_⟩
      · simp only [flush, hf, hs, hr, Link.spent_append, Bool.false_eq_true, if_false]
        rfl
      · rw [hp₂, hp₁, List.append_assoc, Link.load_append]
        rfl

variable {out : Seq} {b : Nat} {taken : List Octets}

theorem drive_willing {o : Outbound} (hc : o.Carries out b taken) (l : Link) (now : Instant)
    {r : Recorder} (h : r.Willing) : ∃ o' ps r',
      o.drive Recorder.socket l now r = (.ok (), o', l.spent ps, r') ∧ r'.Willing ∧
        r'.passed = r.passed ++ load l.acks.ack ps ∧
        ((o.window.retransmitDue now).1 = true ∨ o.window.inFlight = 0 → ps = o'.window.packets) := by
  -- No packet brings an ACK of its own, so the first one that leaves takes along the one that is held.
  have hnone : ∀ p ∈ o.window.packets ++ o.queue.toList, p.ack = none := by
    intro p hp
    obtain ⟨i, hi⟩ := List.mem_iff_getElem?.mp hp
    exact (SendWindow.Holds.bears hc hi).2
  have hpackets := SendWindow.packets_retransmitDue o.window now
  have hqueue : ∀ p ∈ o.queue.toList, p.ack = none := fun p hp => hnone p (List.mem_append_right _ hp)
  simp only [drive, retransmit]
  rcases hd : o.window.retransmitDue now with ⟨due, w⟩
  rw [hd] at hpackets
  cases due with
  | false =>
    obtain ⟨ps, r', hf, -, hw, hw', hp⟩ := flush_willing now o.queue.toList hqueue w l h
    generalize SendWindow.fill now o.queue.toList w = filled at hf hw
    refine ⟨{ o with queue := .ofList filled.1, window := filled.2 }, ps, r', by simp [hf], hw', hp, ?_⟩
    rintro (hdue | hempty)
    · simp at hdue
    · have hnil : o.window.packets = [] := by
        apply List.eq_nil_of_length_eq_zero
        rw [SendWindow.length_packets, hempty]
      simp only at hpackets
      rw [hw, hpackets, hnil, List.nil_append]
  | true =>
    simp only at hpackets
    obtain ⟨r₁, hr, hw₁, hp₁⟩ := resend_willing now w.packets
      (fun p hp => hnone p (List.mem_append_left _ (hpackets ▸ hp))) l h
    obtain ⟨ps, r', hf, -, hw, hw', hp⟩ :=
      flush_willing now o.queue.toList hqueue (w.markResent now) (l.spent w.packets) hw₁
    rw [SendWindow.packets_markResent] at hw
    generalize SendWindow.fill now o.queue.toList (w.markResent now) = filled at hf hw
    refine ⟨{ o with queue := .ofList filled.1, window := filled.2 }, w.packets ++ ps, r', ?_, hw', ?_,
      fun _ => hw.symm⟩
    · simp only [hr, hf, Link.spent_append]
    · rw [hp, hp₁, List.append_assoc, Link.load_append]

end Outbound

namespace ReliableStream

variable {out : Seq} {b : Nat} {taken : List Octets} {l : Link}

theorem flushAck_willing (l : Link) (now : Instant) {s : Recorder} (h : s.Willing) : ∃ l' s' tail,
    flushAck Recorder.socket l now s = (l', s') ∧ s'.passed = s.passed ++ tail ∧
      (∀ p ∈ tail, p.reliable = false) ∧
      ∀ a, l.acks.ack = some a → l.acks.timer.hasPassed now l.acks.delay = true →
        tail = [Packet.ackOnly a] := by
  cases ht : l.acks.timer.hasPassed now l.acks.delay with
  | false => exact ⟨_, s, [], by simp [flushAck, AckHolder.takeExpired, ht]; rfl, by simp, by simp, by simp⟩
  | true =>
    cases ha : l.acks.ack with
    | none =>
      exact ⟨_, s, [], by simp [flushAck, AckHolder.takeExpired, AckHolder.take, ht, ha]; rfl, by simp,
        by simp, by simp⟩
    | some a =>
      obtain ⟨s', hs, -, hp⟩ :=
        Link.send_willing h { l with acks := l.acks.cleared } (Packet.ackOnly a) now
      refine ⟨{ l with acks := l.acks.cleared }, s', [Packet.ackOnly a], ?_, hp, ?_, ?_⟩
      · simp only [flushAck, AckHolder.takeExpired, AckHolder.take, ht, ha, if_true, Link.sendQuietly, hs]
        rfl
      · simp [Packet.ackOnly]
      · intro x hx _
        cases hx
        rfl

/-- A stream that is not dead sends its packets, the first of them with the waiting ACK. Once the delay
of that ACK has passed, the first packet to leave carries it, whatever the packet is. -/
theorem poll_willing {r : ReliableStream} (h : r.outbound.Carries out b taken) (l : Link) {now : Instant}
    (hlive : r.outbound.isDead now = false) {s : Recorder} (hs : s.Willing) : ∃ r' l' s' ps tail,
      r.poll Recorder.socket l now s = (.ok .alive, r', l', s') ∧
        s'.passed = s.passed ++ (Link.load l.acks.ack ps ++ tail) ∧
        (∀ p ∈ tail, p.reliable = false) ∧
        ((r.outbound.window.retransmitDue now).1 = true ∨ r.outbound.window.inFlight = 0 →
          ps = r'.outbound.window.packets) ∧
        ∀ a, l.acks.ack = some a → l.acks.timer.hasPassed now l.acks.delay = true →
          ∃ q rest, Link.load l.acks.ack ps ++ tail = q :: rest ∧ q.ack = some a := by
  obtain ⟨o, ps, s₁, hd, hs₁, hp₁, hall⟩ := Outbound.drive_willing h l now hs
  obtain ⟨l', s₂, tail, hf, hp₂, htail, hack⟩ := flushAck_willing (l.spent ps) now hs₁
  refine ⟨{ r with outbound := o }, l', s₂, ps, tail, ?_, ?_, htail, hall, fun a ha ht => ?_⟩
  · simp [poll, hlive, hd, hf]
  · rw [hp₂, hp₁, List.append_assoc]
  · cases ps with
    | nil => exact ⟨Packet.ackOnly a, [], hack a ha ht, rfl⟩
    | cons p rest => exact ⟨Link.loaded p (some a), rest ++ tail, by rw [ha]; rfl, rfl⟩

end ReliableStream

end DatagramStreams
