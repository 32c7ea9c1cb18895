import DatagramStreams.Proofs.Stream.Window
import DatagramStreams.Proofs.Transport.Emission
import DatagramStreams.Stream.Reliable

/-! The sending half of a reliable stream over a socket that plays any script. `taken` are the payloads
that the stream has accepted, of which ACKs have released the first `b`; the window and the queue hold
the rest, each payload under its own number. Main statements: every operation keeps `Holds`, and the
packets it lets pass are `Emits`, so numbers leave for the first time in order.
-/

set_option autoImplicit false

namespace DatagramStreams

def Packet.Bears (first : Seq) (taken : List Octets) (n : Nat) (p : Packet) : Prop :=
  ∃ x, taken[n]? = some x ∧ p.payload = some x ∧ p.sequence = first.after n ∧ p.reliable = true ∧ p.Fits

/-- Packets that pass while the payloads below `k` have passed before, and those below `k'` after:
payloads from `b` on again, the next one for the first time, or packets without one. -/
inductive Emits (first : Seq) (taken : List Octets) (b : Nat) (a : Seq) :
    Nat → List Packet → Nat → Prop where
  | nil (k : Nat) : Emits first taken b a k [] k
  | other {k k' : Nat} {p : Packet} {ps : List Packet} (hr : p.reliable = false) (hf : p.Fits)
      (ha : p.Acks a) (rest : Emits first taken b a k ps k') : Emits first taken b a k (p :: ps) k'
  | again {k k' n : Nat} {p : Packet} {ps : List Packet} (hb : b ≤ n) (hn : n < k)
      (hp : p.Bears first taken n) (ha : p.Acks a) (rest : Emits first taken b a k ps k') :
      Emits first taken b a k (p :: ps) k'
  | next {k k' : Nat} {p : Packet} {ps : List Packet} (hb : b ≤ k) (hp : p.Bears first taken k)
      (ha : p.Acks a) (rest : Emits first taken b a (k + 1) ps k') :
      Emits first taken b a k (p :: ps) k'

namespace Emits

variable {first a : Seq} {taken : List Octets} {b k k' k'' : Nat} {ps qs : List Packet}

theorem append (h : Emits first taken b a k ps k') (h' : Emits first taken b a k' qs k'') :
    Emits first taken b a k (ps ++ qs) k'' := by
  induction h with
  | nil => exact h'
  | other hr hf ha _ ih => exact .other hr hf ha (ih h')
  | again hb hn hp ha _ ih => exact .again hb hn hp ha (ih h')
  | next hb hp ha _ ih => exact .next hb hp ha (ih h')

theorem le (h : Emits first taken b a k ps k') : k ≤ k' := by
  induction h with
  | nil => exact Nat.le_refl _
  | other _ _ _ _ ih => exact ih
  | again _ _ _ _ _ ih => exact ih
  | next _ _ _ _ ih => omega

theorem extend (h : Emits first taken b a k ps k') (more : List Octets) :
    Emits first (taken ++ more) b a k ps k' := by
  have grow : ∀ {n : Nat} {p : Packet}, p.Bears first taken n → p.Bears first (taken ++ more) n := by
    rintro n p ⟨x, hx, hp⟩
    have hn := (List.getElem?_eq_some_iff.mp hx).1
    exact ⟨x, by rw [List.getElem?_append_left hn]; exact hx, hp⟩
  induction h with
  | nil => exact .nil _
  | other hr hf ha _ ih => exact .other hr hf ha ih
  | again hb hn hp ha _ ih => exact .again hb hn (grow hp) ha ih
  | next hb hp ha _ ih => exact .next hb (grow hp) ha ih

theorem of_mem (h : Emits first taken b a k ps k') {p : Packet} (hp : p ∈ ps) :
    p.Fits ∧ p.Acks a ∧ (p.reliable = true → ∃ n, b ≤ n ∧ n < k' ∧ p.Bears first taken n) := by
  induction h with
  | nil => simp at hp
  | other hr hf ha _ ih =>
    rcases List.mem_cons.mp hp with rfl | hp
    · exact ⟨hf, ha, fun ht => by simp [hr] at ht⟩
    · exact ih hp
  | again hb hn hq ha rest ih =>
    rcases List.mem_cons.mp hp with rfl | hp
    · have hk := rest.le
      have ⟨_, _, _, _, _, hf⟩ := hq
      exact ⟨hf, ha, fun _ => ⟨_, hb, by omega, hq⟩⟩
    · exact ih hp
  | next hb hq ha rest ih =>
    rcases List.mem_cons.mp hp with rfl | hp
    · have hk := rest.le
      have ⟨_, _, _, _, _, hf⟩ := hq
      exact ⟨hf, ha, fun _ => ⟨_, hb, by omega, hq⟩⟩
    · exact ih hp

end Emits

theorem Packet.Bears.loaded {first : Seq} {taken : List Octets} {n : Nat} {p : Packet}
    (h : p.Bears first taken n) (ack : Option Seq) : (Link.loaded p ack).Bears first taken n := by
  cases ack <;> exact h

namespace SendWindow

/-- The window and the queue behind it hold the payloads from `b` on, each under its number. -/
structure Holds (first : Seq) (b : Nat) (taken : List Octets) (w : SendWindow) (queue : List Packet) :
    Prop where
  count : b + w.inFlight + queue.length = taken.length
  packets : w.packets ++ queue = Packet.numbered first b (taken.drop b)
  base : w.base = first.after b
  regular : w.Regular
  used : w.misused = false
  fits : ∀ x ∈ taken, Packet.payloadError? x = none

namespace Holds

variable {first : Seq} {b : Nat} {taken : List Octets} {w : SendWindow} {queue : List Packet}

theorem bears (h : Holds first b taken w queue) {i : Nat} {p : Packet}
    (hp : (w.packets ++ queue)[i]? = some p) : p.Bears first taken (b + i) ∧ p.ack = none := by
  rw [h.packets, Packet.getElem?_numbered, List.getElem?_drop] at hp
  cases hx : taken[b + i]? with
  | none => simp [hx] at hp
  | some x =>
    rw [hx] at hp
    cases hp
    have hm := h.fits x (List.mem_of_getElem? hx)
    exact ⟨⟨x, hx, rfl, rfl, rfl, Packet.fits_carrying hm⟩, rfl⟩

theorem bears_window (h : Holds first b taken w queue) {i : Nat} {p : Packet}
    (hp : w.packets[i]? = some p) : p.Bears first taken (b + i) ∧ p.ack = none := by
  have hi := (List.getElem?_eq_some_iff.mp hp).1
  exact h.bears (by rw [List.getElem?_append_left hi]; exact hp)

theorem payloads_take (h : Holds first b taken w queue) {n : Nat} (hn : n ≤ w.inFlight) :
    Packet.payloads (w.packets.take n) = (taken.drop b).take n := by
  have htake : (w.packets ++ queue).take n = w.packets.take n :=
    List.take_append_of_le_length (by simpa using hn)
  rw [← htake, h.packets, Packet.take_numbered, Packet.payloads_numbered]

theorem length_payloads (h : Holds first b taken w queue) :
    (Packet.payloads w.packets).length = w.inFlight := by
  have hp := h.payloads_take (Nat.le_refl _)
  have hc := h.count
  rw [← length_packets, List.take_length] at hp
  rw [hp, List.length_take, List.length_drop, length_packets]
  omega

theorem bears_head {p : Packet} (h : Holds first b taken w (p :: queue)) :
    p.Bears first taken (b + w.inFlight) ∧ p.ack = none :=
  h.bears (by simp)

theorem isNew_head {p : Packet} (h : Holds first b taken w (p :: queue)) :
    Seq.isNew w.base p.sequence = true := by
  obtain ⟨⟨x, -, -, hs, -⟩, -⟩ := h.bears_head
  have hr := h.regular.inFlight_le
  rw [h.base, hs]
  apply Seq.isNew_after_add
  simp only [maxSize, Seq.halfSpace] at *
  omega

theorem register {p : Packet} (h : Holds first b taken w (p :: queue)) (hf : w.isFull = false)
    (now : Instant) : Holds first b taken (w.register p now) queue where
  count := by
    have hc := h.count
    rw [inFlight_register]
    simp only [List.length_cons] at hc
    omega
  packets := by simpa using h.packets
  base := h.base
  regular := h.regular.register p now hf
  used := misused_register now h.used hf h.isNew_head
  fits := h.fits

theorem congr {w' : SendWindow} (h : Holds first b taken w queue) (hs : w'.packets = w.packets)
    (hb : w'.base = w.base) (hu : w'.misused = w.misused) (hr : w'.Regular) :
    Holds first b taken w' queue where
  count := by
    have hc := h.count
    rw [← length_packets] at hc ⊢
    rw [hs]
    exact hc
  packets := by rw [hs]; exact h.packets
  base := hb.trans h.base
  regular := hr
  used := hu.trans h.used
  fits := h.fits

theorem retransmitDue (h : Holds first b taken w queue) (now : Instant) :
    Holds first b taken (w.retransmitDue now).2 queue := by
  obtain ⟨-, hb, hu⟩ := retransmitDue_frame (w := w) now
  exact h.congr (packets_retransmitDue w now) hb hu (h.regular.retransmitDue now)

theorem markResent (h : Holds first b taken w queue) (now : Instant) :
    Holds first b taken (w.markResent now) queue :=
  h.congr (packets_markResent w now) rfl rfl (h.regular.markResent now)

theorem enqueue (h : Holds first b taken w queue) {x : Octets} (hx : Packet.payloadError? x = none) :
    Holds first b (taken ++ [x]) w
      (queue ++ [Packet.carrying true (first.after taken.length) x]) where
  count := by
    have hc := h.count
    simp only [List.length_append, List.length_cons, List.length_nil]
    omega
  packets := by
    have hc := h.count
    have hb : b ≤ taken.length := by omega
    rw [← List.append_assoc, h.packets, List.drop_append_of_le_length hb, Packet.numbered_append,
      List.length_drop, Nat.add_sub_cancel' hb]
    rfl
  base := h.base
  regular := h.regular
  used := h.used
  fits := by
    intro y hy
    rcases List.mem_append.mp hy with hy | hy
    · exact h.fits y hy
    · exact List.mem_singleton.mp hy ▸ hx

theorem acknowledge (h : Holds first b taken w queue) {ack : Seq} {now : Instant} {n : Nat}
    {w' : SendWindow} (ha : w.acknowledge ack now = (.ok n, w')) :
    n ≤ w.inFlight ∧ w'.inFlight + n = w.inFlight ∧ Holds first (b + n) taken w' queue := by
  obtain ⟨hn, hp, hb, hu, hr⟩ := acknowledge_eq_ok ha
  have hi : w'.inFlight + n = w.inFlight := by
    rw [← length_packets, hp, List.length_drop, length_packets]
    omega
  refine ⟨hn, hi, ?_, ?_, ?_, hr h.regular, hu.trans h.used, h.fits⟩
  · have hc := h.count
    omega
  · have hd := Packet.drop_numbered first b n (taken.drop b)
    rw [← h.packets, List.drop_append_of_le_length (by simpa using hn), List.drop_drop] at hd
    rw [hp, hd]
  · rw [hb, h.base, Seq.after_after]

/-- An ACK of number `m` releases all payloads below it, none if they are released already: the
distance on the ring is the distance of the numbers, or more than half a ring. -/
theorem acknowledge_number (h : Holds first b taken w queue) {m : Nat} (hm : m ≤ b + w.inFlight)
    (hb : b ≤ m + Seq.halfSpace) (now : Instant) :
    (w.acknowledge (first.after m) now).1 = .ok (m - b) := by
  have hr := h.regular.inFlight_le
  simp only [maxSize, Seq.halfSpace] at *
  by_cases hlt : m < b
  · have hs : Seq.isNew w.base (first.after m) = false := by
      have hn := Seq.not_isNew_after_add first m (d := b - m) (by omega)
        (by simp only [Seq.halfSpace]; omega)
      rwa [show m + (b - m) = b by omega, ← h.base] at hn
    rw [acknowledge_of_stale now hs, show m - b = 0 by omega]
  · have hm' : m = b + (m - b) := by omega
    have hn := Seq.isNew_after_add first b (d := m - b) (by simp only [Seq.halfSpace]; omega)
    have hd := Seq.distance_after_add first b (d := m - b) (by simp only [Seq.space]; omega)
    rw [← hm', ← h.base] at hn hd
    rw [acknowledge_of_covered now hn (by omega), hd]

end Holds

end SendWindow

namespace Outbound

variable {first a : Seq} {b : Nat} {taken : List Octets}

def Carries (first : Seq) (b : Nat) (taken : List Octets) (o : Outbound) : Prop :=
  o.window.Holds first b taken o.queue.toList

def taking (payload : Octets) : Except ConnectionError Unit → List Octets
  | .ok () => [payload]
  | .error _ => []

theorem resend_emits {k n : Nat} (hb : b ≤ n) (now : Instant) (ps : List Packet) (l : Link) (r : Recorder)
    (hk : n + ps.length ≤ k)
    (hp : ∀ (i : Nat) (p : Packet), ps[i]? = some p → p.Bears first taken (n + i) ∧ p.ack = none)
    (ho : l.acks.Offers a) : ∃ result l' r' new,
      resend Recorder.socket now ps l r = (result, l', r') ∧ Handed now l r l' r' new ∧
        Emits first taken b a k new k := by
  induction ps generalizing n l r with
  | nil => exact ⟨.ok (), l, r, [], rfl, .refl now l r, .nil k⟩
  | cons p rest ih =>
    simp only [List.length_cons] at hk
    obtain ⟨hbears, hnone⟩ := hp 0 p rfl
    have hrest : ∀ (i : Nat) (q : Packet), rest[i]? = some q → q.Bears first taken (n + 1 + i) ∧ q.ack = none := by
      intro i q hq
      have h := hp (i + 1) q hq
      rwa [show n + (i + 1) = n + 1 + i by omega] at h
    obtain ⟨r', ⟨hs, hh⟩ | ⟨l', ⟨hs, hh, -⟩ | ⟨e, hs, hh, -⟩⟩⟩ := l.send_cases p now r
    · obtain ⟨result, l'', r'', new, hr, hh', he⟩ :=
        ih (by omega) (l.attach p).2 r' (by omega) hrest (hh.offers ho)
      have hack := (Link.attach_offers ho p).2 (fun x hx => by simp [hnone] at hx)
      exact ⟨result, l'', r'', _, by simp only [resend, hs, hr], hh.trans hh',
        .again hb (by omega) (hbears.loaded _) hack he⟩
    · obtain ⟨result, l'', r'', new, hr, hh', he⟩ :=
        ih (by omega) l' r' (by omega) hrest (hh.offers ho)
      exact ⟨result, l'', r'', _, by simp only [resend, hs, hr], hh.trans hh', he⟩
    · exact ⟨.error (.injected e), l', r', [], by simp only [resend, hs], hh, .nil k⟩

theorem flush_holds (now : Instant) (queue : List Packet) (w : SendWindow) (l : Link) (r : Recorder)
    (h : w.Holds first b taken queue) (ho : l.acks.Offers a) : ∃ result queue' w' l' r' new,
      flush Recorder.socket now queue w l r = (result, queue', w', l', r') ∧
        w'.Holds first b taken queue' ∧ Handed now l r l' r' new ∧
        Emits first taken b a (b + w.inFlight) new (b + w'.inFlight) := by
  induction queue generalizing w l r with
  | nil => exact ⟨.ok (), [], w, l, r, [], rfl, h, .refl now l r, .nil _⟩
  | cons p rest ih =>
    cases hf : w.isFull with
    | true => exact ⟨.ok (), p :: rest, w, l, r, [], by simp [flush, hf], h, .refl now l r, .nil _⟩
    | false =>
      obtain ⟨r', ⟨hs, hh⟩ | ⟨l', ⟨hs, hh, -⟩ | ⟨e, hs, hh, -⟩⟩⟩ := l.send_cases p now r
      · obtain ⟨hbears, hnone⟩ := h.bears_head
        have hack := (Link.attach_offers ho p).2 (fun x hx => by simp [hnone] at hx)
        obtain ⟨result, queue', w', l'', r'', new, hr, hw, hh', he⟩ :=
          ih (w.register p now) (l.attach p).2 r' (h.register hf now) (hh.offers ho)
        rw [SendWindow.inFlight_register] at he
        exact ⟨result, queue', w', l'', r'', _, by simp [flush, hf, hs, hr], hw, hh.trans hh',
          .next (Nat.le_add_right _ _) (hbears.loaded _) hack he⟩
      · exact ⟨.ok (), p :: rest, w, l', r', [], by simp [flush, hf, hs], h, hh, .nil _⟩
      · exact ⟨.error (.injected e), p :: rest, w, l', r', [], by simp [flush, hf, hs], h, hh, .nil _⟩

theorem retransmit_carries {o : Outbound} (h : o.Carries first b taken) {l : Link} (ho : l.acks.Offers a)
    (now : Instant) (r : Recorder) : ∃ result o' l' r' new,
      o.retransmit Recorder.socket l now r = (result, o', l', r') ∧ o'.Carries first b taken ∧
        o'.sequence = o.sequence ∧ o'.window.inFlight = o.window.inFlight ∧ o'.queue = o.queue ∧
        Handed now l r l' r' new ∧
        Emits first taken b a (b + o.window.inFlight) new (b + o.window.inFlight) := by
  have hw := SendWindow.Holds.retransmitDue h now
  have hi : (o.window.retransmitDue now).2.inFlight = o.window.inFlight := by
    rw [← SendWindow.length_packets, SendWindow.packets_retransmitDue, SendWindow.length_packets]
  rcases hd : o.window.retransmitDue now with ⟨due, w⟩
  rw [hd] at hw hi
  simp only at hw hi
  cases due with
  | false => exact ⟨.ok (), { o with window := w }, l, r, [], by simp [retransmit, hd], hw, rfl, hi, rfl,
      .refl now l r, .nil _⟩
  | true =>
    obtain ⟨result, l', r', new, hr, hh, he⟩ := resend_emits (Nat.le_refl b) now w.packets l r
      (k := b + o.window.inFlight) (Nat.le_of_eq (by rw [SendWindow.length_packets, hi]))
      (fun i p hp => hw.bears_window hp) ho
    refine ⟨result, { o with window := w.markResent now }, l', r', new, by simp [retransmit, hd, hr],
      hw.markResent now, rfl, ?_, rfl, hh, he⟩
    simpa [SendWindow.markResent, SendWindow.inFlight] using hi

theorem drive_carries {o : Outbound} (h : o.Carries first b taken) {l : Link} (ho : l.acks.Offers a)
    (now : Instant) (r : Recorder) : ∃ result o' l' r' new,
      o.drive Recorder.socket l now r = (result, o', l', r') ∧ o'.Carries first b taken ∧
        o'.sequence = o.sequence ∧ Handed now l r l' r' new ∧
        Emits first taken b a (b + o.window.inFlight) new (b + o'.window.inFlight) := by
  obtain ⟨result, o₁, l₁, r₁, new₁, hr, hc, hs, hi, hq, hh, he⟩ := retransmit_carries h ho now r
  cases result with
  | error e => exact ⟨.error e, o₁, l₁, r₁, new₁, by simp [drive, hr], hc, hs, hh, by rwa [hi]⟩
  | ok u =>
    obtain ⟨result, queue, w, l₂, r₂, new₂, hf, hw, hh', he'⟩ :=
      flush_holds now o₁.queue.toList o₁.window l₁ r₁ hc (hh.offers ho)
    refine ⟨result, { o₁ with queue := .ofList queue, window := w }, l₂, r₂, _, by simp [drive, hr, hf],
      ?_, hs, hh.trans hh', he.append (hi ▸ he')⟩
    simpa [Carries] using hw

theorem send_carries {o : Outbound} (h : o.Carries first b taken)
    (hs : o.sequence = first.after taken.length) {l : Link} (ho : l.acks.Offers a) (payload : Octets)
    (now : Instant) (r : Recorder) : ∃ result o' l' r' new,
      o.send Recorder.socket l payload now r = (result, o', l', r') ∧
        o'.Carries first b (taken ++ taking payload result) ∧ Handed now l r l' r' new ∧
        Emits first (taken ++ taking payload result) b a (b + o.window.inFlight) new
          (b + o'.window.inFlight) ∧
        (o'.sequence = first.after (taken ++ taking payload result).length ∨
          ∃ k, result = .error (.io (.injected k)) ∧ k ≠ .wouldBlock ∧
            ∀ allowed, r.Allows allowed → allowed k) := by
  have hd := Packet.data_eq true o.sequence payload
  cases hx : Packet.payloadError? payload with
  | some e =>
    rw [hx] at hd
    exact ⟨.error (.packet e), o, l, r, [], by simp [send, hd], by simpa [taking] using h,
      .refl now l r, .nil _, .inl (by simpa [taking] using hs)⟩
  | none =>
    rw [hx] at hd
    have hnext : Seq.next o.sequence = first.after (taken ++ [payload]).length := by
      rw [hs, Seq.next_after, List.length_append, List.length_singleton]
    have hq := SendWindow.Holds.enqueue h hx
    rw [← hs] at hq
    have hqueued : Carries first b (taken ++ [payload])
        (enqueue { o with sequence := Seq.next o.sequence } (.carrying true o.sequence payload)) := by
      simpa [Carries, Outbound.enqueue] using hq
    simp only [send, hd, submit]
    -- A payload waits behind others, or while the window is full.
    by_cases hw : (!o.queue.isEmpty || o.window.isFull) = true
    · simp only [hw, if_true]
      exact ⟨_, _, l, r, [], rfl, hqueued, .refl now l r, .nil _, .inl hnext⟩
    · simp only [hw, Bool.false_eq_true, if_false]
      rw [Bool.not_eq_true, Bool.or_eq_false_iff, Bool.not_eq_false'] at hw
      have hempty := Queue.isEmpty_iff.mp hw.1
      rw [hempty, List.nil_append] at hq
      obtain ⟨r', ⟨hl, hh⟩ | ⟨l', ⟨hl, hh, -⟩ | ⟨k, hl, hh, hk⟩⟩⟩ :=
        l.send_cases (.carrying true o.sequence payload) now r
      · obtain ⟨hbears, hnone⟩ := hq.bears_head
        have hack := (Link.attach_offers ho (.carrying true o.sequence payload)).2
          (fun x hx => by simp [hnone] at hx)
        simp only [hl]
        refine ⟨_, _, _, r', _, rfl, ?_, hh, ?_, .inl hnext⟩
        · simpa [Carries, Outbound.register, hempty, taking] using hq.register hw.2 now
        · refine .next (Nat.le_add_right _ _) (hbears.loaded _) hack ?_
          simp only [Outbound.register, SendWindow.inFlight_register]
          exact .nil _
      · simp only [hl]
        exact ⟨_, _, l', r', [], rfl, hqueued, hh, .nil _, .inl hnext⟩
      · simp only [hl]
        exact ⟨_, _, l', r', [], rfl, by simpa [taking, Carries] using h, hh, .nil _, .inr ⟨k, rfl, hk⟩⟩

end Outbound

end DatagramStreams
