import DatagramStreams.Proofs.Stream.Numbering
import DatagramStreams.Stream.Window

/-! What every operation leaves true of a send window, and what each does to the base and to the
packets in flight. Main statements: `acknowledge_eq_ok` (an ACK takes packets off the front and moves
the base by as many) and the laws of `Regular`.
-/

set_option autoImplicit false

namespace DatagramStreams.SendWindow

/-- Bounds on the size and on what is in flight; both timers run exactly while something is. -/
structure Regular (w : SendWindow) : Prop where
  min_le : minSize ≤ w.size
  le_max : w.size ≤ maxSize
  inFlight_le : w.inFlight ≤ maxSize
  retransmit_active : w.retransmitTimer.isActive = !w.sent.isEmpty
  close_active : w.closeTimer.isActive = !w.sent.isEmpty

variable {w : SendWindow}

theorem inFlight_eq_zero_iff : w.inFlight = 0 ↔ w.sent.isEmpty = true := by
  rw [inFlight, List.isEmpty_iff, List.length_eq_zero_iff]

theorem ensureStarted_timerAfter (w : SendWindow) (p : Packet) (t now : Instant) :
    (timerAfter w.sent t).ensureStarted now =
      timerAfter (w.register p now).sent (if w.inFlight = 0 then now else t) := by
  have hsome : (w.register p now).sent.isEmpty = false := by simp [register]
  rw [timerAfter, timerAfter, hsome]
  simp only [inFlight_eq_zero_iff]
  split <;> rfl

theorem hasPassed_timerAfter (w : SendWindow) (t now : Instant) (limit : Span) :
    (timerAfter w.sent t).hasPassed now limit = true ↔ 0 < w.inFlight ∧ t + limit < now := by
  rw [timerAfter, Nat.pos_iff_ne_zero, Ne, inFlight_eq_zero_iff]
  split
  · rename_i hempty
    simp [hempty]
  · rename_i hsome
    rw [Timer.hasPassed_startedAt]
    exact ⟨fun hlate => ⟨hsome, hlate⟩, And.right⟩

theorem inFlight_register (p : Packet) (now : Instant) : (w.register p now).inFlight = w.inFlight + 1 := by
  simp [register, inFlight]

theorem misused_register {p : Packet} (now : Instant) (hw : w.misused = false)
    (hf : w.isFull = false) (hn : Seq.isNew w.base p.sequence = true) :
    (w.register p now).misused = false := by
  simp [register, hw, hf, hn]

theorem regular_new (base : Seq) (initialTimeout : Span) (on : Bool) :
    ((new base initialTimeout).setFastRetransmit on).Regular where
  min_le := Nat.le_refl minSize
  le_max := show minSize ≤ maxSize by decide
  inFlight_le := Nat.zero_le _
  retransmit_active := rfl
  close_active := rfl

theorem Regular.register (h : w.Regular) (p : Packet) (now : Instant) (hf : w.isFull = false) :
    (w.register p now).Regular where
  min_le := h.min_le
  le_max := h.le_max
  inFlight_le := by
    have hm := h.le_max
    simp only [isFull, decide_eq_false_iff_not] at hf
    rw [inFlight_register]
    omega
  retransmit_active := by simp [SendWindow.register]
  close_active := by simp [SendWindow.register]

theorem Regular.markResent (h : w.Regular) (now : Instant) : (w.markResent now).Regular where
  min_le := h.min_le
  le_max := h.le_max
  inFlight_le := by simpa [SendWindow.markResent, inFlight] using h.inFlight_le
  retransmit_active := by simpa [SendWindow.markResent] using h.retransmit_active
  close_active := by simpa [SendWindow.markResent] using h.close_active

theorem Regular.retransmitDue (h : w.Regular) (now : Instant) : (w.retransmitDue now).2.Regular := by
  unfold SendWindow.retransmitDue
  split
  · refine ⟨h.min_le, h.le_max, h.inFlight_le, ?_, h.close_active⟩
    have hr := h.retransmit_active
    cases ht : w.retransmitTimer.isActive <;> simp_all
  · split
    · rename_i hp
      have hr := h.retransmit_active
      rw [Timer.isActive_of_hasPassed hp] at hr
      have hm := h.le_max
      exact ⟨Nat.le_max_right _ _, by simp only [minSize, maxSize] at *; omega, h.inFlight_le, hr,
        h.close_active⟩
    · exact h

theorem retransmitDue_frame (now : Instant) :
    (w.retransmitDue now).2.sent = w.sent ∧ (w.retransmitDue now).2.base = w.base ∧
      (w.retransmitDue now).2.misused = w.misused := by
  unfold SendWindow.retransmitDue
  split
  · exact ⟨rfl, rfl, rfl⟩
  · split <;> exact ⟨rfl, rfl, rfl⟩

theorem acknowledge_of_stale {ack : Seq} (now : Instant) (h : Seq.isNew w.base ack = false) :
    w.acknowledge ack now = (.ok 0, w) := by
  simp [acknowledge, h]

theorem acknowledge_of_covered {ack : Seq} (now : Instant) (h : Seq.isNew w.base ack = true)
    (hd : Seq.distance w.base ack ≤ w.inFlight) :
    (w.acknowledge ack now).1 = .ok (Seq.distance w.base ack) := by
  have hd' : ¬ w.inFlight < Seq.distance w.base ack := by omega
  unfold acknowledge
  simp only [h, hd', Bool.not_true, Bool.false_eq_true, if_false]
  split
  · rename_i h0
    simp [h0]
  · rfl

theorem acknowledge_eq_error {ack : Seq} {now : Instant} {e : ConnectionError} {w' : SendWindow}
    (h : w.acknowledge ack now = (.error e, w')) : w' = w := by
  unfold acknowledge at h
  simp only at h
  split at h
  · simp at h
  · split at h
    · exact (Prod.mk.inj h).2.symm
    · split at h <;> simp at h

theorem countRepeat_frame (acked : Nat) :
    (w.countRepeat acked).sent = w.sent ∧ (w.countRepeat acked).base = w.base ∧
      (w.countRepeat acked).misused = w.misused ∧ (w.countRepeat acked).size = w.size ∧
      (w.countRepeat acked).retransmitTimer = w.retransmitTimer ∧
      (w.countRepeat acked).closeTimer = w.closeTimer := by
  cases h : w.fastRetransmit <;> simp [countRepeat, h]

theorem inFlight_countRepeat (w : SendWindow) (acked : Nat) : (w.countRepeat acked).inFlight = w.inFlight := by
  rw [inFlight, (countRepeat_frame acked).1, inFlight]

theorem inFlight_remove (w : SendWindow) (acked : Nat) (now : Instant) :
    (w.remove acked now).inFlight = w.inFlight - acked :=
  List.length_drop

theorem acknowledge_cases (w : SendWindow) (ack : Seq) (now : Instant) :
    (ack = w.base ∧ (w.acknowledge ack now).2 = w.countRepeat 0) ∨
      (∃ n, 0 < n ∧ n ≤ w.inFlight ∧ (w.acknowledge ack now).2 = (w.countRepeat n).remove n now) ∨
      (ack ≠ w.base ∧ (w.acknowledge ack now).2 = w) := by
  by_cases hbase : ack = w.base
  · refine .inl ⟨hbase, ?_⟩
    have hnew : Seq.isNew w.base w.base = true := by simp [Seq.isNew, Seq.halfSpace]
    simp [acknowledge, hbase, hnew]
  · have hsome : Seq.distance w.base ack ≠ 0 := fun h => hbase (Seq.eq_of_distance_eq_zero h).symm
    unfold acknowledge
    simp only [hsome, if_false]
    split
    · exact .inr (.inr ⟨hbase, rfl⟩)
    · split
      · exact .inr (.inr ⟨hbase, rfl⟩)
      · rename_i hcovered
        exact .inr (.inl ⟨_, Nat.pos_of_ne_zero hsome, Nat.not_lt.mp hcovered, rfl⟩)

/-- A timer that every removal of packets sets anew is set by an ACK only if it removes some. -/
theorem timer_acknowledge (timer : SendWindow → Timer) {t now : Instant} (hcount : timer (w.countRepeat 0) = timer w)
    (hremove : ∀ w n, timer (remove w n now) = timerAfter (remove w n now).sent now)
    (h : timer w = timerAfter w.sent t) (ack : Seq) :
    timer (w.acknowledge ack now).2 = timerAfter (w.acknowledge ack now).2.sent
      (if (w.acknowledge ack now).2.inFlight < w.inFlight then now else t) := by
  rcases w.acknowledge_cases ack now with ⟨-, hw⟩ | ⟨n, hpos, hle, hw⟩ | ⟨-, hw⟩ <;> rw [hw]
  · rw [inFlight_countRepeat, if_neg (Nat.lt_irrefl _), hcount, (countRepeat_frame 0).1]
    exact h
  · rw [inFlight_remove, inFlight_countRepeat, if_pos (by omega)]
    exact hremove _ n
  · rwa [if_neg (Nat.lt_irrefl _)]

theorem Regular.countRepeat (h : w.Regular) (acked : Nat) : (w.countRepeat acked).Regular := by
  obtain ⟨hs, -, -, hz, hr, hc⟩ := countRepeat_frame (w := w) acked
  exact ⟨hz ▸ h.min_le, hz ▸ h.le_max, by simpa [inFlight, hs] using h.inFlight_le,
    by rw [hr, hs]; exact h.retransmit_active, by rw [hc, hs]; exact h.close_active⟩

theorem Regular.remove (h : w.Regular) (acked : Nat) (now : Instant) : (w.remove acked now).Regular where
  min_le := by
    have h1 := h.min_le
    simp only [SendWindow.remove, minSize, maxSize] at *
    omega
  le_max := Nat.min_le_right _ _
  inFlight_le := by
    have h1 := h.inFlight_le
    simp only [SendWindow.remove, inFlight, List.length_drop] at *
    omega
  retransmit_active := by
    simp only [SendWindow.remove, timerAfter]
    split <;> simp_all
  close_active := by
    simp only [SendWindow.remove, timerAfter]
    split <;> simp_all

theorem acknowledge_eq_ok {ack : Seq} {now : Instant} {n : Nat} {w' : SendWindow}
    (h : w.acknowledge ack now = (.ok n, w')) :
    n ≤ w.inFlight ∧ w'.packets = w.packets.drop n ∧ w'.base = w.base.after n ∧
      w'.misused = w.misused ∧ (w.Regular → w'.Regular) := by
  have hp := packets_acknowledge w ack now
  rw [h] at hp
  unfold acknowledge at h
  simp only at h
  split at h
  · obtain ⟨⟨rfl⟩, rfl⟩ := Prod.mk.inj h
    exact ⟨Nat.zero_le _, hp, by simp, rfl, id⟩
  · split at h
    · simp at h
    · rename_i hc
      split at h
      · obtain ⟨⟨rfl⟩, rfl⟩ := Prod.mk.inj h
        obtain ⟨-, hb, hm, -⟩ := countRepeat_frame (w := w) 0
        exact ⟨Nat.zero_le _, hp, by simp [hb], hm, fun hr => hr.countRepeat 0⟩
      · obtain ⟨⟨rfl⟩, rfl⟩ := Prod.mk.inj h
        obtain ⟨-, hb, hm, -⟩ := countRepeat_frame (w := w) (Seq.distance w.base ack)
        refine ⟨by omega, hp, ?_, hm, fun hr => (hr.countRepeat _).remove _ now⟩
        simp only [SendWindow.remove, hb]
        rfl

end DatagramStreams.SendWindow
