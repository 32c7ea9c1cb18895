import DatagramStreams.Proofs.Stream.Window

/-! Send windows as their owner brings them about. Packets go in with consecutive sequences while there is
room, and everything else comes at any time and in any order, ACKs with any value among it.
Main statement: `Grown.governed`, the bounds that hold of such a window and what each ACK does to it.
-/

set_option autoImplicit false

namespace DatagramStreams.SendWindow

/-- Windows that began at `first` and have had `n` packets registered since. -/
inductive Grown (first : Seq) : Nat → SendWindow → Prop
  | new (initialTimeout : Span) : Grown first 0 (new first initialTimeout)
  | register {n : Nat} {w : SendWindow} (h : Grown first n w) {p : Packet}
      (hp : p.sequence = first.after n) (hf : w.isFull = false) (now : Instant) :
      Grown first (n + 1) (w.register p now)
  | acknowledge {n : Nat} {w : SendWindow} (h : Grown first n w) (ack : Seq) (now : Instant) :
      Grown first n (w.acknowledge ack now).2
  | retransmitDue {n : Nat} {w : SendWindow} (h : Grown first n w) (now : Instant) :
      Grown first n (w.retransmitDue now).2
  | markResent {n : Nat} {w : SendWindow} (h : Grown first n w) (now : Instant) :
      Grown first n (w.markResent now)
  | setFastRetransmit {n : Nat} {w : SendWindow} (h : Grown first n w) (on : Bool) :
      Grown first n (w.setFastRetransmit on)

/-- All but the last packets registered are gone, `gone` of them, and the rest lie in a row behind the base. -/
structure InRow (first : Seq) (gone : Nat) (w : SendWindow) : Prop where
  base : w.base = first.after gone
  sequence : ∀ i p, w.packets[i]? = some p → p.sequence = first.after (gone + i)

variable {first : Seq} {n gone : Nat} {w w' : SendWindow}

theorem InRow.same (h : w.InRow first gone) (hb : w'.base = w.base) (hp : w'.packets = w.packets) :
    w'.InRow first gone :=
  ⟨hb.trans h.base, fun i p hi => h.sequence i p (hp ▸ hi)⟩

theorem InRow.register (h : w.InRow first gone) {p : Packet}
    (hp : p.sequence = first.after (gone + w.inFlight)) (now : Instant) :
    (w.register p now).InRow first gone := by
  refine ⟨h.base, fun i q hi => ?_⟩
  rw [packets_register, List.getElem?_append, length_packets] at hi
  split at hi
  · exact h.sequence i q hi
  · rename_i hlt
    obtain ⟨hi0, rfl⟩ : i - w.inFlight = 0 ∧ p = q := by
      cases hd : i - w.inFlight with
      | zero => simpa [hd] using hi
      | succ k => simp [hd] at hi
    have hi' : i = w.inFlight := by omega
    rw [hi']
    exact hp

theorem InRow.acknowledge (h : w.InRow first gone) (hg : gone + w.inFlight = n) (ack : Seq) (now : Instant) :
    ∃ gone', gone' + (w.acknowledge ack now).2.inFlight = n ∧
      (w.acknowledge ack now).2.InRow first gone' := by
  rcases hw : w.acknowledge ack now with ⟨e | k, w'⟩
  · obtain rfl := acknowledge_eq_error hw
    exact ⟨gone, hg, h⟩
  · obtain ⟨hk, hp, hb, -, -⟩ := acknowledge_eq_ok hw
    have hlen : w'.inFlight = w.inFlight - k := by
      rw [← length_packets, hp, List.length_drop, length_packets]
    have hsum : gone + k + w'.inFlight = n := by omega
    refine ⟨gone + k, hsum, ?_, fun i p hi => ?_⟩
    · rw [hb, h.base, Seq.after_after]
    · rw [hp, List.getElem?_drop] at hi
      rw [h.sequence (k + i) p hi]
      congr 1
      omega

theorem Regular.acknowledge (h : w.Regular) (ack : Seq) (now : Instant) :
    (w.acknowledge ack now).2.Regular := by
  rcases hw : w.acknowledge ack now with ⟨e | k, w'⟩
  · obtain rfl := acknowledge_eq_error hw
    exact h
  · obtain ⟨-, -, -, -, hr⟩ := acknowledge_eq_ok hw
    exact hr h

theorem Grown.regular (h : Grown first n w) : w.Regular := by
  induction h with
  | new initialTimeout => exact regular_new first initialTimeout true
  | register _ _ hf now ih => exact ih.register _ now hf
  | acknowledge _ ack now ih => exact ih.acknowledge ack now
  | retransmitDue _ now ih => exact ih.retransmitDue now
  | markResent _ now ih => exact ih.markResent now
  | setFastRetransmit _ on ih =>
    exact ⟨ih.min_le, ih.le_max, ih.inFlight_le, ih.retransmit_active, ih.close_active⟩

theorem Grown.inRow (h : Grown first n w) : ∃ gone, gone + w.inFlight = n ∧ w.InRow first gone := by
  induction h with
  | new initialTimeout =>
    refine ⟨0, rfl, (Seq.after_zero first).symm, fun i p hi => ?_⟩
    simp [packets, SendWindow.new] at hi
  | register _ hp hf now ih =>
    obtain ⟨gone, hg, hrow⟩ := ih
    refine ⟨gone, ?_, hrow.register (hg ▸ hp) now⟩
    rw [inFlight_register]
    omega
  | acknowledge _ ack now ih =>
    obtain ⟨gone, hg, hrow⟩ := ih
    exact hrow.acknowledge hg ack now
  | @retransmitDue n w _ now ih =>
    obtain ⟨gone, hg, hrow⟩ := ih
    obtain ⟨hs, hb, -⟩ := retransmitDue_frame (w := w) now
    exact ⟨gone, by rw [inFlight, hs]; exact hg, hrow.same hb (packets_retransmitDue w now)⟩
  | @markResent n w _ now ih =>
    obtain ⟨gone, hg, hrow⟩ := ih
    refine ⟨gone, ?_, hrow.same rfl (packets_markResent w now)⟩
    rw [← length_packets, packets_markResent, length_packets]
    exact hg
  | setFastRetransmit _ on ih =>
    obtain ⟨gone, hg, hrow⟩ := ih
    exact ⟨gone, hg, hrow.same rfl rfl⟩

def Agrees (w w' : SendWindow) : Prop := w = { w' with repeatedAcks := w.repeatedAcks }

theorem agrees_countRepeat (w : SendWindow) (acked : Nat) : (w.countRepeat acked).Agrees w := by
  unfold Agrees countRepeat
  split <;> rfl

theorem acknowledge_of_ahead {ack : Seq} (now : Instant) (hnew : Seq.isNew w.base ack = true)
    (h0 : 0 < Seq.distance w.base ack) (hd : Seq.distance w.base ack ≤ w.inFlight) :
    w.acknowledge ack now = (.ok (Seq.distance w.base ack),
      (w.countRepeat (Seq.distance w.base ack)).remove (Seq.distance w.base ack) now) := by
  have hover : ¬ w.inFlight < Seq.distance w.base ack := by omega
  have hzero : ¬ Seq.distance w.base ack = 0 := by omega
  simp [acknowledge, hnew, hover, hzero]

theorem acknowledge_of_beyond {ack : Seq} (now : Instant) (hnew : Seq.isNew w.base ack = true)
    (hd : w.inFlight < Seq.distance w.base ack) : w.acknowledge ack now =
      (.error (.violation w.base ack (Seq.distance w.base ack) w.inFlight), w) := by
  simp [acknowledge, hnew, hd]

theorem acknowledge_base (w : SendWindow) (now : Instant) :
    w.acknowledge w.base now = (.ok 0, w.countRepeat 0) := by
  simp [acknowledge, Seq.isNew, Seq.halfSpace]

structure Governed (w : SendWindow) : Prop where
  size : 5 ≤ w.size ∧ w.size ≤ 100
  inFlight : w.inFlight ≤ 100
  sequence : ∀ i p, w.packets[i]? = some p → p.sequence = w.base.after i
  retransmitTimer : w.retransmitTimer.isActive = true ↔ 0 < w.inFlight
  closeTimer : w.closeTimer.isActive = true ↔ 0 < w.inFlight
  covered : ∀ ack now, let d := Seq.distance w.base ack
    1 ≤ d → d ≤ w.inFlight → ∃ w', w.acknowledge ack now = (.ok d, w') ∧ w'.sent = w.sent.drop d ∧
      w'.base = ack ∧ w'.size = min (w.size + d) 100
  stale : ∀ ack now, let d := Seq.distance w.base ack
    d = 0 ∨ 32768 ≤ d → (w.acknowledge ack now).1 = .ok 0 ∧ (w.acknowledge ack now).2.Agrees w
  beyond : ∀ ack now, let d := Seq.distance w.base ack
    w.inFlight < d → d < 32768 → w.acknowledge ack now = (.error (.violation w.base ack d w.inFlight), w)

theorem Regular.covered (h : w.Regular) {ack : Seq} (now : Instant) (h1 : 1 ≤ Seq.distance w.base ack)
    (hd : Seq.distance w.base ack ≤ w.inFlight) :
    ∃ w', w.acknowledge ack now = (.ok (Seq.distance w.base ack), w') ∧
      w'.sent = w.sent.drop (Seq.distance w.base ack) ∧ w'.base = ack ∧
      w'.size = min (w.size + Seq.distance w.base ack) 100 := by
  have hmost := h.inFlight_le
  have hnew : Seq.isNew w.base ack = true := by
    apply decide_eq_true
    simp only [Seq.halfSpace, maxSize] at *
    omega
  obtain ⟨hs, hb, -, hz, -⟩ := countRepeat_frame (w := w) (Seq.distance w.base ack)
  refine ⟨_, acknowledge_of_ahead now hnew h1 hd, ?_, ?_, ?_⟩
  · simp only [SendWindow.remove, hs]
  · simp only [SendWindow.remove, hb]
    exact Seq.after_distance w.base ack
  · simp only [SendWindow.remove, hz]
    rfl

/-- The order of the packets, both timers and the bounds on the size hold whatever was acknowledged, and
whenever. -/
theorem Grown.governed (h : Grown first n w) : w.Governed := by
  have hr := h.regular
  have hactive {t : Timer} (ht : t.isActive = !w.sent.isEmpty) :
      t.isActive = true ↔ 0 < w.inFlight := by
    rw [ht, inFlight]
    cases w.sent <;> simp
  obtain ⟨gone, -, hrow⟩ := h.inRow
  refine ⟨⟨hr.min_le, hr.le_max⟩, hr.inFlight_le, fun i p hi => ?_, hactive hr.retransmit_active,
    hactive hr.close_active, fun ack now h1 hd => hr.covered now h1 hd, fun ack now hstale => ?_,
    fun ack now hover hhalf => ?_⟩
  · rw [hrow.base, Seq.after_after]
    exact hrow.sequence i p hi
  · rcases hstale with hzero | hold
    · obtain rfl := Seq.eq_of_distance_eq_zero hzero
      rw [acknowledge_base]
      exact ⟨rfl, agrees_countRepeat w 0⟩
    · have hnot : Seq.isNew w.base ack = false := by
        rw [Seq.isNew, decide_eq_false_iff_not, Seq.halfSpace]
        omega
      rw [acknowledge_of_stale now hnot]
      exact ⟨rfl, rfl⟩
  · exact acknowledge_of_beyond now (decide_eq_true hhalf) hover

/-- Five packets whose sequences wrap. An ACK for three of them makes room, one of what was never sent is
refused, and one that is half a ring ahead counts as old. -/
theorem Grown.governed_wrapped :
    let p (i : Nat) : Packet := .carrying true (Seq.after 65534 i) [1]
    let w := [p 0, p 1, p 2, p 3, p 4].foldl (fun w q => w.register q 0) (SendWindow.new 65534 0)
    Grown 65534 5 w ∧ w.Governed ∧ (w.acknowledge 1 9).1 = .ok 3 ∧
      (w.acknowledge 4 9).1 = .error (.violation 65534 4 6 5) ∧ (w.acknowledge 32766 9).1 = .ok 0 := by
  intro p w
  have h : Grown 65534 5 w := by
    have h₀ : Grown 65534 0 _ := Grown.new 0
    have h₂ := (h₀.register (p := p 0) rfl rfl 0).register (p := p 1) rfl rfl 0
    have h₄ := (h₂.register (p := p 2) rfl rfl 0).register (p := p 3) rfl rfl 0
    exact h₄.register (p := p 4) rfl rfl 0
  have hw := h.governed
  obtain ⟨w', hack, -⟩ := hw.covered 1 9 (by decide) (by decide)
  refine ⟨h, hw, by rw [hack]; rfl, ?_, (hw.stale 32766 9 (by decide)).1⟩
  rw [hw.beyond 4 9 (by decide) (by decide)]
  rfl

end DatagramStreams.SendWindow
