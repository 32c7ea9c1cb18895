import DatagramStreams.Proofs.Stream.Window

/-! What makes a window be resent. An observer notes when the retransmit timer was last set going, and counts
the ACKs that repeat the base, those that come while nothing is in flight apart from the others.
Main statement: `TriggerWatch.Reached.due_cause`. Repeats that come while nothing is in flight count like all others,
and a packet that is sent after them can be resent at once.
-/

set_option autoImplicit false

namespace DatagramStreams

namespace SendWindow

def TimedSince (t : Instant) (w : SendWindow) : Prop := w.retransmitTimer = timerAfter w.sent t

variable {w : SendWindow} {t : Instant}

theorem TimedSince.register (h : w.TimedSince t) (p : Packet) (now : Instant) :
    (w.register p now).TimedSince (if w.inFlight = 0 then now else t) := by
  change w.retransmitTimer.ensureStarted now = _
  rw [h, w.ensureStarted_timerAfter p]

theorem TimedSince.markResent (h : w.TimedSince t) (now : Instant) : (w.markResent now).TimedSince t := by
  simpa [TimedSince, SendWindow.markResent, timerAfter] using h

theorem TimedSince.retransmitDue (h : w.TimedSince t) (now : Instant) :
    (w.retransmitDue now).2.TimedSince (if (w.retransmitDue now).1 then now else t) := by
  simp only [TimedSince, timerAfter] at h
  unfold SendWindow.retransmitDue
  split
  · cases hempty : w.sent.isEmpty <;> simp_all [TimedSince, timerAfter]
  · split
    · rename_i hpassed
      cases hempty : w.sent.isEmpty <;> simp_all [TimedSince, timerAfter]
    · exact h

theorem TimedSince.acknowledge (h : w.TimedSince t) (ack : Seq) (now : Instant) :
    (w.acknowledge ack now).2.TimedSince
      (if (w.acknowledge ack now).2.inFlight < w.inFlight then now else t) := by
  obtain ⟨-, -, -, -, hcount, -⟩ := countRepeat_frame (w := w) 0
  exact timer_acknowledge retransmitTimer hcount (fun _ _ => rfl) h ack

theorem TimedSince.due_iff (h : w.TimedSince t) (now : Instant) :
    (w.retransmitDue now).1 = true ↔ (w.fastRetransmit = true ∧ repeatThreshold ≤ w.repeatedAcks) ∨
      (0 < w.inFlight ∧ t + w.timeout < now) := by
  rw [← hasPassed_timerAfter, ← h]
  unfold SendWindow.retransmitDue
  split
  · simp_all
  · split <;> simp_all

theorem repeatedAcks_retransmitDue (w : SendWindow) (now : Instant) :
    (w.retransmitDue now).2.fastRetransmit = w.fastRetransmit ∧
      (w.retransmitDue now).2.repeatedAcks =
        if w.fastRetransmit = true ∧ repeatThreshold ≤ w.repeatedAcks then 0 else w.repeatedAcks := by
  unfold SendWindow.retransmitDue
  simp only [Bool.and_eq_true, decide_eq_true_eq]
  split
  · exact ⟨rfl, rfl⟩
  · split <;> exact ⟨rfl, rfl⟩

end SendWindow

/-- A window and what its observer has noted. -/
structure TriggerWatch where
  window : SendWindow
  /-- When the retransmit timer was last set going. -/
  timed : Instant := 0
  /-- ACKs of the base while packets were in flight, since an ACK last removed some or the count was used up. -/
  repeats : Nat := 0
  /-- Likewise, while nothing was in flight. -/
  idle : Nat := 0

namespace TriggerWatch

def forget (a : TriggerWatch) : TriggerWatch := { a with repeats := 0, idle := 0 }

def repeated (a : TriggerWatch) : TriggerWatch :=
  if a.window.fastRetransmit = false then a
  else if a.window.inFlight = 0 then { a with idle := a.idle + 1 }
  else { a with repeats := a.repeats + 1 }

inductive Act where
  | register (p : Packet)
  | acknowledge (ack : Seq)
  | retransmitDue
  | markResent
  | setFastRetransmit (on : Bool)

def act (a : TriggerWatch) (what : Act) (now : Instant) : TriggerWatch :=
  match what with
  | .register p =>
    { a with window := a.window.register p now, timed := if a.window.inFlight = 0 then now else a.timed }
  | .acknowledge ack =>
    let window := (a.window.acknowledge ack now).2
    if window.inFlight < a.window.inFlight then { window, timed := now }
    else if ack = a.window.base then { a.repeated with window }
    else { a with window }
  | .retransmitDue =>
    let (due, window) := a.window.retransmitDue now
    let timed := if due then now else a.timed
    if SendWindow.repeatThreshold ≤ a.repeats + a.idle then { a.forget with window, timed }
    else { a with window, timed }
  | .markResent => { a with window := a.window.markResent now }
  | .setFastRetransmit on => { a.forget with window := a.window.setFastRetransmit on }

/-- Windows under any operations at any times, whether or not their owner keeps to the rules. -/
inductive Reached : TriggerWatch → Prop
  | new (base : Seq) (initialTimeout : Span) : Reached { window := .new base initialTimeout }
  | act {a : TriggerWatch} (h : Reached a) (what : Act) (now : Instant) : Reached (a.act what now)

structure Accurate (a : TriggerWatch) : Prop where
  timed : a.window.TimedSince a.timed
  counted : a.window.repeatedAcks = a.repeats + a.idle
  off : a.window.fastRetransmit = false → a.window.repeatedAcks = 0
  fresh : a.window.inFlight = 0 → a.repeats = 0

variable {a : TriggerWatch} {now : Instant}

theorem Accurate.enough_iff (h : a.Accurate) :
    (a.window.fastRetransmit = true ∧ SendWindow.repeatThreshold ≤ a.window.repeatedAcks) ↔
      SendWindow.repeatThreshold ≤ a.repeats + a.idle := by
  rw [h.counted]
  refine ⟨And.right, fun hmany => ⟨?_, hmany⟩⟩
  cases hon : a.window.fastRetransmit with
  | true => rfl
  | false =>
    rw [← h.counted, h.off hon] at hmany
    exact absurd hmany (by decide)

theorem Accurate.repeated (h : a.Accurate) : Accurate { a.repeated with window := a.window.countRepeat 0 } := by
  unfold TriggerWatch.repeated SendWindow.countRepeat
  cases hon : a.window.fastRetransmit with
  | false => exact h
  | true =>
    have hcounted : a.window.repeatedAcks + 1 = a.repeats + a.idle + 1 := congrArg (· + 1) h.counted
    simp only [Bool.true_eq_false, if_false, if_true]
    split
    · exact ⟨h.timed, hcounted, fun hoff => absurd hoff (by simp), h.fresh⟩
    · rename_i hsome
      refine ⟨h.timed, ?_, fun hoff => absurd hoff (by simp), fun hzero => absurd hzero hsome⟩
      exact hcounted.trans (Nat.add_right_comm _ _ _)

theorem Accurate.acknowledge (h : a.Accurate) (ack : Seq) (now : Instant) :
    (a.act (.acknowledge ack) now).Accurate := by
  have htimed := h.timed.acknowledge ack now
  simp only [TriggerWatch.act]
  rcases a.window.acknowledge_cases ack now with ⟨hbase, hw⟩ | ⟨n, hpos, hle, hw⟩ | ⟨hbase, hw⟩ <;>
    rw [hw] at htimed ⊢
  · rw [SendWindow.inFlight_countRepeat, if_neg (Nat.lt_irrefl _), if_pos hbase]
    exact h.repeated
  · have hless : ((a.window.countRepeat n).remove n now).inFlight < a.window.inFlight := by
      rw [SendWindow.inFlight_remove, SendWindow.inFlight_countRepeat]
      omega
    have hnone : (a.window.countRepeat n).repeatedAcks = 0 := by
      cases hon : a.window.fastRetransmit with
      | true => simp [SendWindow.countRepeat, hon, Nat.ne_of_gt hpos]
      | false => simpa [SendWindow.countRepeat, hon] using h.off hon
    rw [if_pos hless] at htimed ⊢
    exact ⟨htimed, hnone, fun _ => hnone, fun _ => rfl⟩
  · rw [if_neg (Nat.lt_irrefl _), if_neg hbase]
    exact h

theorem Accurate.retransmitDue (h : a.Accurate) (now : Instant) : (a.act .retransmitDue now).Accurate := by
  have htimed := h.timed.retransmitDue now
  obtain ⟨hsent, -, -⟩ := SendWindow.retransmitDue_frame (w := a.window) now
  obtain ⟨hswitch, hcount⟩ := a.window.repeatedAcks_retransmitDue now
  have hfresh (hzero : (a.window.retransmitDue now).2.inFlight = 0) : a.repeats = 0 :=
    h.fresh (by rwa [SendWindow.inFlight, hsent] at hzero)
  simp only [h.enough_iff] at hcount
  simp only [TriggerWatch.act]
  split
  · rename_i hmany
    rw [if_pos hmany] at hcount
    exact ⟨htimed, hcount, fun _ => hcount, fun _ => rfl⟩
  · rename_i hfew
    rw [if_neg hfew] at hcount
    exact ⟨htimed, hcount.trans h.counted, fun hoff => hcount.trans (h.off (hswitch ▸ hoff)), hfresh⟩

theorem Accurate.act (h : a.Accurate) (what : Act) (now : Instant) : (a.act what now).Accurate := by
  cases what with
  | register p => exact ⟨h.timed.register p now, h.counted, h.off, fun hzero => by
      simp [TriggerWatch.act, SendWindow.inFlight_register] at hzero⟩
  | acknowledge ack => exact h.acknowledge ack now
  | retransmitDue => exact h.retransmitDue now
  | markResent => exact ⟨h.timed.markResent now, h.counted, h.off, fun hzero => h.fresh (by
      simpa [TriggerWatch.act, SendWindow.markResent, SendWindow.inFlight] using hzero)⟩
  | setFastRetransmit on => exact ⟨h.timed, rfl, fun _ => rfl, fun _ => rfl⟩

theorem Reached.accurate (h : Reached a) : a.Accurate := by
  induction h with
  | new base initialTimeout => exact ⟨rfl, rfl, fun _ => rfl, fun _ => rfl⟩
  | act _ what now ih => exact ih.act what now

/-- A window is due if packets are in flight and the timer has run out, or the peer has repeated its ACK three
times since. ACKs that repeat the base while nothing is in flight are counted with the others, and so they too
make a window due, one that is empty or holds nothing but packets sent later. It is due for no other reason. -/
theorem Reached.due_cause (h : Reached a) (now : Instant) : (a.window.retransmitDue now).1 = true ↔
    (0 < a.window.inFlight ∧ (a.timed + a.window.timeout < now ∨ SendWindow.repeatThreshold ≤ a.repeats)) ∨
      (0 < a.idle ∧ SendWindow.repeatThreshold ≤ a.repeats + a.idle) := by
  have hacc := h.accurate
  rw [hacc.timed.due_iff, hacc.enough_iff]
  constructor
  · rintro (hmany | ⟨hsome, hlate⟩)
    · rcases Nat.eq_zero_or_pos a.idle with hnone | hidle
      · rw [hnone, Nat.add_zero] at hmany
        have hsome : a.window.inFlight ≠ 0 := fun hzero => by
          rw [hacc.fresh hzero] at hmany
          exact absurd hmany (by decide)
        exact .inl ⟨Nat.pos_of_ne_zero hsome, .inr hmany⟩
      · exact .inr ⟨hidle, hmany⟩
    · exact .inl ⟨hsome, .inl hlate⟩
  · rintro (⟨hsome, hlate | hmany⟩ | ⟨-, hmany⟩)
    · exact .inr ⟨hsome, hlate⟩
    · exact .inl (Nat.le_trans hmany (Nat.le_add_right _ _))
    · exact .inl hmany

/-- The peer repeats its ACK three times, with a packet in flight. -/
theorem Reached.due_cause_repeats : ∃ a, Reached a ∧ (a.window.retransmitDue 10).1 = true ∧
    0 < a.window.inFlight ∧ SendWindow.repeatThreshold ≤ a.repeats := by
  have h := ((((Reached.new 65535 500).act (.register (.carrying true 65535 [1])) 0).act
    (.acknowledge 65535) 10).act (.acknowledge 65535) 10).act (.acknowledge 65535) 10
  refine ⟨_, h, by decide +kernel, ?_⟩
  rcases (h.due_cause 10).mp (by decide +kernel) with ⟨hsome, hlate | hmany⟩ | ⟨hidle, -⟩
  · exact absurd hlate (by decide +kernel)
  · exact ⟨hsome, hmany⟩
  · exact absurd hidle (by decide +kernel)

/-- The peer repeats its ACK while nothing is in flight, and the packet sent next is due at once. -/
theorem Reached.due_without_cause : ¬ ∀ (a : TriggerWatch) (now : Instant), Reached a →
    (a.window.retransmitDue now).1 = true →
      0 < a.window.inFlight ∧ (a.timed + a.window.timeout < now ∨ SendWindow.repeatThreshold ≤ a.repeats) := by
  intro hall
  have h := ((((Reached.new 0 500).act (.acknowledge 0) 0).act (.acknowledge 0) 0).act (.acknowledge 0) 0).act
    (.register (.carrying true 0 [1])) 0
  exact absurd (hall _ 0 h (by decide +kernel)).2 (by decide +kernel)

end TriggerWatch

end DatagramStreams
