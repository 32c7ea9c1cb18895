import DatagramStreams.Proofs.Simulation.LetterLog

/-! Accounts of all letters. Each copy of a letter is delivered or underway, and there are as many as its fate says.
Copies that are not held back are delivered when they are sent, in this order; the others once the clock of the
alarms has come to their time.
Main statements: `Reached.ledger`, `Reached.timely` and `Reached.fulfils`, from which `Reached.accounted` follows.
-/

set_option autoImplicit false

namespace DatagramStreams

open Network (Outside)
open Simulation (isRung millisecondAfter)

namespace Letter

variable {l x : Letter}

/-- When the alarm rings for a copy whose task first ran at this instant. -/
def due (l : Letter) (begun : Instant) : Instant := l.alarm begun * Span.millisecond

theorem le_roundUp (t : Nat) {m : Nat} (hm : 0 < m) : t ≤ (t + (m - 1)) / m * m := by
  have hlt := Nat.lt_div_mul_add (a := t + (m - 1)) hm
  omega

theorem le_due (l : Letter) (begun : Instant) : begun + l.delay ≤ l.due begun := le_roundUp _ (by decide)

theorem isRung_alarm {l : Letter} {begun now : Instant} : isRung now (l.alarm begun) = true ↔ l.due begun ≤ now :=
  decide_eq_true_iff

theorem mem_prompt (h : x ∈ l.prompt) : x = l ∧ l.isLate = false := by
  unfold prompt at h
  cases hl : l.isLate with
  | true => simp [hl] at h
  | false =>
    rw [hl] at h
    exact ⟨List.eq_of_mem_replicate h, rfl⟩

theorem mem_late (h : x ∈ l.late) : x = l ∧ l.isLate = true := by
  unfold late at h
  cases hl : l.isLate with
  | true =>
    rw [hl] at h
    exact ⟨List.eq_of_mem_replicate h, rfl⟩
  | false => simp [hl] at h

theorem count_copies (l : Letter) : l.prompt.count l + l.late.count l = l.copies := by
  unfold prompt late
  cases l.isLate <;> simp

theorem count_flatMap {f : Letter → List Letter} (hf : ∀ x, l ∈ f x → x = l) (letters : List Letter) :
    (letters.flatMap f).count l = letters.count l * (f l).count l := by
  induction letters with
  | nil => simp
  | cons x rest ih =>
    rw [List.flatMap_cons, List.count_append, ih, List.count_cons]
    by_cases hx : x = l
    · subst hx
      simp [Nat.add_mul, Nat.add_comm]
    · have hnone : (f x).count l = 0 := List.count_eq_zero.mpr fun hl => hx (hf x hl)
      simp [hnone, hx]

end Letter

namespace Delivery

def prompt? (d : Delivery) : Option Letter := d.letter.filter fun l => !l.isLate

def late? (d : Delivery) : Option Letter := d.letter.filter Letter.isLate

theorem countP_letter (l : Letter) (deliveries : List Delivery) :
    (deliveries.countP fun d => d.letter = some l) =
      (deliveries.filterMap prompt?).count l + (deliveries.filterMap late?).count l := by
  induction deliveries with
  | nil => rfl
  | cons d rest ih =>
    cases hd : d.letter with
    | none => simp [prompt?, late?, hd, ih]
    | some x =>
      have hprompt : d.prompt? = if x.isLate then none else some x := by
        cases hx : x.isLate <;> simp [prompt?, hd, hx]
      have hlate : d.late? = if x.isLate then some x else none := by
        cases hx : x.isLate <;> simp [late?, hd, hx]
      cases hx : x.isLate <;> simp only [hx, if_true, if_false, Bool.false_eq_true] at hprompt hlate <;>
        simp only [List.countP_cons, List.filterMap_cons, hprompt, hlate, hd, ih, List.count_cons, Option.some.injEq,
          beq_iff_eq, decide_eq_true_eq] <;>
        omega

end Delivery

namespace Network

variable {net : Network} {now : Instant} {x : Outside} {d : Delivery} {l : Letter}

theorem prompt?_handOver (net : Network) (begun now : Instant) (l : Letter) (d : Datagram)
    (target : Address) :
    (net.handOver begun now (some l) d target).prompt? = if l.isLate then none else some l := by
  cases h : l.isLate <;> simp [Delivery.prompt?, handOver, h]

theorem late?_handOver (net : Network) (begun now : Instant) (l : Letter) (d : Datagram)
    (target : Address) :
    (net.handOver begun now (some l) d target).late? = if l.isLate then some l else none := by
  cases h : l.isLate <;> simp [Delivery.late?, handOver, h]

theorem sentAt_of_posted (hl : l ∈ x.posted net now) : l.sentAt = now := by
  cases x with
  | send id target b mayHold =>
    simp only [Outside.posted, Option.mem_toList, letter?] at hl
    split at hl
    · cases hl
    · split at hl
      · obtain rfl := Option.some.inj hl
        rfl
      · cases hl
  | _ => cases hl

theorem delivered_cases (hd : d ∈ x.delivered net now) : d.letter = none ∨
    ∃ l ∈ x.posted net now, l.isLate = false ∧ d = net.handOver now now (some l) l.datagram l.target := by
  have hcopy (hd : d ∈ net.handOverAll now (x.posted net now)) :
      ∃ l ∈ x.posted net now, l.isLate = false ∧ d = net.handOver now now (some l) l.datagram l.target := by
    obtain ⟨l, hl, rfl⟩ := List.mem_map.mp hd
    obtain ⟨y, hy, hly⟩ := List.mem_flatMap.mp hl
    obtain ⟨rfl, hlate⟩ := Letter.mem_prompt hly
    exact ⟨l, hy, hlate, rfl⟩
  cases x with
  | deliver d' target =>
    obtain rfl := List.mem_singleton.mp hd
    exact .inl rfl
  | _ => exact .inr (hcopy hd)

theorem prompt_handOverAll (net : Network) (now : Instant) (letters : List Letter) :
    (net.handOverAll now letters).filterMap Delivery.prompt? = letters.flatMap Letter.prompt := by
  simp only [handOverAll, List.filterMap_map, Function.comp_def, prompt?_handOver]
  induction letters with
  | nil => rfl
  | cons l rest ih =>
    have hfirst : l.prompt.filterMap (fun x => if x.isLate then none else some x) = l.prompt := by
      unfold Letter.prompt
      cases hl : l.isLate <;> simp [hl]
    rw [List.flatMap_cons, List.filterMap_append, hfirst, ih]

theorem prompt_delivered (net : Network) (now : Instant) (x : Outside) :
    (x.delivered net now).filterMap Delivery.prompt? = (x.posted net now).flatMap Letter.prompt := by
  cases x with
  | deliver d target => rfl
  | _ => exact prompt_handOverAll net now _

theorem late_delivered (net : Network) (now : Instant) (x : Outside) :
    (x.delivered net now).filterMap Delivery.late? = [] := by
  refine List.filterMap_eq_nil_iff.mpr fun d hd => ?_
  rcases delivered_cases hd with hnone | ⟨l, -, hlate, rfl⟩
  · simp [Delivery.late?, hnone]
  · rw [late?_handOver, hlate]
    rfl

end Network

namespace LetterLog

variable {c : LetterLog}

/-! ### Copies -/

/-- Letters that have been sent, copy by copy, are letters that have been delivered or are underway. -/
structure Ledger (c : LetterLog) : Prop where
  prompt : c.deliveries.filterMap Delivery.prompt? = c.letters.flatMap Letter.prompt
  late : ∀ l, (c.deliveries.filterMap Delivery.late?).count l + c.underway.count l =
    (c.letters.flatMap Letter.late).count l
  genuine : ∀ d ∈ c.deliveries, ∀ l, d.letter = some l → d.datagram = l.datagram

theorem Ledger.late_of_underway (h : c.Ledger) {l : Letter} (hl : l ∈ c.underway) :
    l ∈ c.letters ∧ l.isLate = true := by
  have hpos : 0 < c.underway.count l := List.count_pos_iff.mpr hl
  have hcount := h.late l
  have hmem : l ∈ c.letters.flatMap Letter.late := List.count_pos_iff.mp (by omega)
  obtain ⟨x, hx, hlx⟩ := List.mem_flatMap.mp hmem
  obtain ⟨rfl, hlate⟩ := Letter.mem_late hlx
  exact ⟨hx, hlate⟩

theorem Ledger.act (h : c.Ledger) (x : Outside) : (c.act x).Ledger where
  prompt := by
    simp only [LetterLog.act, List.filterMap_append, List.flatMap_append, h.prompt, Network.prompt_delivered]
  late l := by
    have hcount := h.late l
    simp only [underway, LetterLog.act, List.filterMap_append, Network.late_delivered, List.append_nil,
      List.flatMap_append, List.count_append] at hcount ⊢
    omega
  genuine d hd l hl := by
    rcases List.mem_append.mp hd with hd | hd
    · exact h.genuine d hd l hl
    · rcases Network.delivered_cases hd with hnone | ⟨y, -, -, rfl⟩
      · rw [hnone] at hl
        cases hl
      · obtain rfl : y = l := Option.some.inj hl
        rfl

theorem Ledger.hear (h : c.Ledger) : c.hear.Ledger where
  prompt := h.prompt
  late l := by
    have hcount := h.late l
    simp only [underway, LetterLog.hear, List.map_append, List.map_map, List.nil_append, List.count_append,
      Function.comp_def, List.map_id'] at hcount ⊢
    omega
  genuine := h.genuine

theorem Ledger.turn (h : c.Ledger) (ht : c.Tied) : c.turn.Ledger := by
  rcases ht.turn_cases with ⟨-, hstay⟩ | ⟨l, begun, queued, hqueued, -, ⟨-, hturn⟩ | ⟨-, hturn⟩⟩
  · rwa [hstay]
  · have hlate : l.isLate = true := (h.late_of_underway (by simp [underway, hqueued])).2
    rw [hturn]
    refine ⟨?_, fun x => ?_, fun d hd x hx => ?_⟩
    · simpa [released, Network.prompt?_handOver, hlate] using h.prompt
    · have hcount := h.late x
      simp only [underway, released, hqueued, List.filterMap_append, List.filterMap_cons, List.filterMap_nil,
        Network.late?_handOver, hlate, if_true, List.map_cons, List.count_append, List.count_cons,
        List.count_nil] at hcount ⊢
      omega
    · rcases List.mem_append.mp hd with hd | hd
      · exact h.genuine d hd x hx
      · obtain rfl := List.mem_singleton.mp hd
        obtain rfl : l = x := by simpa [Network.handOver] using hx
        rfl
  · rw [hturn]
    refine ⟨h.prompt, fun x => ?_, h.genuine⟩
    have hcount := h.late x
    simp only [underway, putOff, hqueued, List.map_cons, List.count_append, List.count_cons] at hcount ⊢
    omega

theorem Ledger.pass (h : c.Ledger) (span : Span) : (c.pass span).Ledger where
  prompt := h.prompt
  late l := by
    have hcount := h.late l
    have hsorted := ((List.filter_append_perm (fun e : Letter × Instant => isRung (c.sim.now + span) (e.1.alarm e.2))
      c.asleep).map Prod.fst).count_eq l
    have hletter : (Prod.fst ∘ fun e : Letter × Instant => (e.1, some e.2)) = Prod.fst := rfl
    simp only [List.map_append, List.count_append] at hsorted
    simp only [underway, LetterLog.pass, List.map_append, List.map_map, List.map_reverse, List.count_append,
      List.count_reverse, hletter] at hcount ⊢
    omega
  genuine := h.genuine

theorem Reached.ledger (h : Reached c) : c.Ledger := by
  induction h with
  | start => exact ⟨rfl, fun _ => rfl, by simp [fresh]⟩
  | act _ x _ ih => exact ih.act x
  | hear _ ih => exact ih.hear
  | turn hrun ih => exact ih.turn hrun.tied
  | pass _ span ih => exact ih.pass span
  | forget _ ih => exact ⟨ih.prompt, ih.late, ih.genuine⟩
  | aside _ _ ih => exact ⟨ih.prompt, ih.late, ih.genuine⟩

theorem Reached.known (h : Reached c) : ∀ d ∈ c.deliveries, ∀ l, d.letter = some l → l ∈ c.letters := by
  intro d hd l hl
  cases hlate : l.isLate with
  | false =>
    have hmem : l ∈ c.deliveries.filterMap Delivery.prompt? :=
      List.mem_filterMap.mpr ⟨d, hd, by simp [Delivery.prompt?, hl, hlate]⟩
    rw [h.ledger.prompt] at hmem
    obtain ⟨x, hx, hlx⟩ := List.mem_flatMap.mp hmem
    exact (Letter.mem_prompt hlx).1 ▸ hx
  | true =>
    have hmem : l ∈ c.deliveries.filterMap Delivery.late? :=
      List.mem_filterMap.mpr ⟨d, hd, by simp [Delivery.late?, hl, hlate]⟩
    have hpos := List.count_pos_iff.mpr hmem
    have hcount := h.ledger.late l
    have hsent : 0 < (c.letters.flatMap Letter.late).count l := by omega
    obtain ⟨x, hx, hlx⟩ := List.mem_flatMap.mp (List.count_pos_iff.mp hsent)
    exact (Letter.mem_late hlx).1 ▸ hx

def Addressed (c : LetterLog) : Prop := ∀ d ∈ c.deliveries, ∀ l id, d.letter = some l → d.recipient = some id →
  ∃ closed, c.sim.net.badge id = some (l.target, closed)

theorem Reached.addressed (h : Reached c) : c.Addressed := by
  -- Whoever holds the target is a socket that was bound to it.
  have howner {net : Network} (ht : net.Tenured fun _ => False) {begun now : Instant} {l : Letter}
      {id : SocketId} (hid : (net.handOver begun now (some l) l.datagram l.target).recipient = some id) :
      ∃ closed, net.badge id = some (l.target, closed) := ⟨_, ht.sound hid⟩
  induction h with
  | start => exact fun d hd => by cases hd
  | act hrun x _ ih =>
    intro d hd l id hl hid
    suffices hbadge : ∃ closed, Network.badge _ id = some (l.target, closed) by
      obtain ⟨closed, hbadge⟩ := hbadge
      exact Network.badge_run hbadge x
    rcases List.mem_append.mp hd with hd | hd
    · exact ih d hd l id hl hid
    · rcases Network.delivered_cases hd with hnone | ⟨y, -, -, rfl⟩
      · rw [hnone] at hl
        cases hl
      · obtain rfl : y = l := Option.some.inj hl
        exact howner hrun.tied.tenured hid
  | hear hrun ih =>
    rw [Addressed, net_hear hrun.tied]
    exact ih
  | @turn c hrun ih =>
    rcases hrun.tied.turn_cases with ⟨-, hstay⟩ | ⟨l, begun, queued, -, hruns, ⟨hrung, hturn⟩ | ⟨hrung, hturn⟩⟩
    · rwa [hstay]
    · have hsame := Network.deliver_same c.sim.net l.datagram l.target
      rw [hturn, Addressed, released, (hruns.released hrung).1]
      intro d hd x id hx hid
      rw [hsame.badge]
      rcases List.mem_append.mp hd with hd | hd
      · exact ih d hd x id hx hid
      · obtain rfl := List.mem_singleton.mp hd
        obtain rfl : l = x := Option.some.inj hx
        exact howner hrun.tied.tenured hid
    · rw [hturn, Addressed, putOff, (hruns.held hrung).1]
      exact ih
  | pass hrun span ih =>
    rw [Addressed, net_pass hrun.tied]
    exact ih
  | forget _ ih => exact ih
  | aside _ hs ih =>
    simp only [Addressed, hs.net]
    exact ih

/-! ### Times -/

structure Timely (c : LetterLog) : Prop where
  announced : ∀ l ∈ c.announced, l.sentAt ≤ c.sim.now
  unripe : ∀ l, (l, none) ∈ c.queued → l.sentAt ≤ c.sim.now
  ripe : ∀ l begun, (l, some begun) ∈ c.queued → l.sentAt ≤ begun ∧ l.due begun ≤ c.sim.now
  asleep : ∀ l begun, (l, begun) ∈ c.asleep → l.sentAt ≤ begun ∧ begun ≤ c.sim.now ∧ c.sim.now < l.due begun
  prompt : ∀ d ∈ c.deliveries, ∀ l, d.letter = some l → l.isLate = false → d.instant = l.sentAt
  late : ∀ d ∈ c.deliveries, ∀ l, d.letter = some l → l.isLate = true →
    l.sentAt ≤ d.begun ∧ l.due d.begun ≤ d.instant

theorem Timely.act (h : c.Timely) (x : Outside) : (c.act x).Timely where
  announced l hl := by
    rcases List.mem_append.mp hl with hl | hl
    · exact h.announced l hl
    · obtain ⟨y, hy, hly⟩ := List.mem_flatMap.mp hl
      obtain ⟨rfl, -⟩ := Letter.mem_late hly
      exact Nat.le_of_eq (Network.sentAt_of_posted hy)
  unripe := h.unripe
  ripe := h.ripe
  asleep := h.asleep
  prompt d hd l hl hlate := by
    rcases List.mem_append.mp hd with hd | hd
    · exact h.prompt d hd l hl hlate
    · rcases Network.delivered_cases hd with hnone | ⟨y, hy, -, rfl⟩
      · rw [hnone] at hl
        cases hl
      · obtain rfl : y = l := Option.some.inj hl
        exact (Network.sentAt_of_posted hy).symm
  late d hd l hl hlate := by
    rcases List.mem_append.mp hd with hd | hd
    · exact h.late d hd l hl hlate
    · rcases Network.delivered_cases hd with hnone | ⟨y, hy, hprompt, rfl⟩
      · rw [hnone] at hl
        cases hl
      · obtain rfl : y = l := Option.some.inj hl
        rw [hprompt] at hlate
        cases hlate

theorem Timely.hear (h : c.Timely) (ht : c.Tied) : c.hear.Timely := by
  have hnow : c.hear.sim.now = c.sim.now := (Simulation.takesOn_hearAll ht.tidy).now
  refine ⟨fun l hl => by simp [LetterLog.hear] at hl, fun l hl => ?_, fun l begun hl => ?_, ?_, h.prompt, h.late⟩ <;>
    rw [hnow]
  · rcases List.mem_append.mp hl with hl | hl
    · exact h.unripe l hl
    · obtain ⟨y, hy, he⟩ := List.mem_map.mp hl
      cases he
      exact h.announced l hy
  · rcases List.mem_append.mp hl with hl | hl
    · exact h.ripe l begun hl
    · obtain ⟨y, -, he⟩ := List.mem_map.mp hl
      cases he
  · exact h.asleep

theorem Timely.pass (h : c.Timely) (ht : c.Tied) (span : Span) : (c.pass span).Timely := by
  have htidy : { c.sim with now := c.sim.now + span }.Tidy := ⟨ht.tidy.sleepers, ht.tidy.alarms⟩
  have hnow : (c.pass span).sim.now = c.sim.now + span := (Simulation.takesOn_ring htidy).now
  have hlater : c.sim.now ≤ c.sim.now + span := Nat.le_add_right _ _
  refine ⟨fun l hl => ?_, fun l hl => ?_, fun l begun hl => ?_, fun l begun hl => ?_, h.prompt, h.late⟩ <;> rw [hnow]
  · exact Nat.le_trans (h.announced l hl) hlater
  · rcases List.mem_append.mp hl with hl | hl
    · exact Nat.le_trans (h.unripe l hl) hlater
    · obtain ⟨e, -, he⟩ := List.mem_map.mp hl
      cases he
  · rcases List.mem_append.mp hl with hl | hl
    · obtain ⟨hsent, hdue⟩ := h.ripe l begun hl
      exact ⟨hsent, Nat.le_trans hdue hlater⟩
    · obtain ⟨⟨l, begun⟩, hmem, he⟩ := List.mem_map.mp hl
      obtain ⟨hmem, hrung⟩ := List.mem_filter.mp (List.mem_reverse.mp hmem)
      cases he
      exact ⟨(h.asleep l begun hmem).1, Letter.isRung_alarm.mp hrung⟩
  · obtain ⟨hmem, hrung⟩ := List.mem_filter.mp hl
    obtain ⟨hsent, hbegun, -⟩ := h.asleep l begun hmem
    have hahead : ¬ l.due begun ≤ c.sim.now + span := by
      rw [← Letter.isRung_alarm]
      simpa using hrung
    exact ⟨hsent, Nat.le_trans hbegun hlater, Nat.lt_of_not_le hahead⟩

theorem Timely.waited (h : c.Timely) {l : Letter} {begun : Option Instant} (hl : (l, begun) ∈ c.queued)
    (hrung : (begun.isSome || isRung c.sim.now (l.alarm c.sim.now)) = true) :
    l.sentAt ≤ begun.getD c.sim.now ∧ l.due (begun.getD c.sim.now) ≤ c.sim.now := by
  cases begun with
  | some begun => exact h.ripe l begun hl
  | none =>
    rw [Option.isSome_none, Bool.false_or, Letter.isRung_alarm] at hrung
    exact ⟨h.unripe l hl, hrung⟩

/-- The errand in front leaves its line, and no time passes. -/
theorem Timely.leaves (h : c.Timely) {front : Letter × Option Instant} {queued : List (Letter × Option Instant)}
    (hqueued : c.queued = front :: queued) {sim : Simulation} (hnow : sim.now = c.sim.now) :
    Timely { c with sim, queued } := by
  have hrest {e : Letter × Option Instant} (he : e ∈ queued) : e ∈ c.queued := by simp [hqueued, he]
  refine ⟨?_, fun x hx => ?_, fun x t hx => ?_, ?_, h.prompt, h.late⟩ <;> rw [hnow]
  · exact h.announced
  · exact h.unripe x (hrest hx)
  · exact h.ripe x t (hrest hx)
  · exact h.asleep

theorem Timely.released (h : c.Timely) {l : Letter} {begun : Option Instant}
    {queued : List (Letter × Option Instant)} (hqueued : c.queued = (l, begun) :: queued)
    (hnow : c.sim.runErrand.now = c.sim.now) (hlate : l.isLate = true)
    (hrung : (begun.isSome || isRung c.sim.now (l.alarm c.sim.now)) = true) :
    (c.released l (begun.getD c.sim.now) queued).Timely := by
  obtain ⟨hannounced, hunripe, hripe, hasleep, -, -⟩ := h.leaves hqueued hnow
  refine ⟨hannounced, hunripe, hripe, hasleep, fun d hd x hx hprompt => ?_, fun d hd x hx hx' => ?_⟩
  · rcases List.mem_append.mp hd with hd | hd
    · exact h.prompt d hd x hx hprompt
    · obtain rfl := List.mem_singleton.mp hd
      obtain rfl : l = x := Option.some.inj hx
      rw [hlate] at hprompt
      cases hprompt
  · rcases List.mem_append.mp hd with hd | hd
    · exact h.late d hd x hx hx'
    · obtain rfl := List.mem_singleton.mp hd
      obtain rfl : l = x := Option.some.inj hx
      exact h.waited (by simp [hqueued]) hrung

theorem Timely.putOff (h : c.Timely) {l : Letter} {queued : List (Letter × Option Instant)}
    (hqueued : c.queued = (l, none) :: queued) (hnow : c.sim.runErrand.now = c.sim.now)
    (hset : isRung c.sim.now (l.alarm c.sim.now) = false) : (c.putOff l queued).Timely := by
  obtain ⟨hannounced, hunripe, hripe, hasleep, hprompt, hlate⟩ := h.leaves hqueued hnow
  refine ⟨hannounced, hunripe, hripe, fun x t hx => ?_, hprompt, hlate⟩
  rcases List.mem_cons.mp hx with hx | hx
  · obtain ⟨rfl, rfl⟩ := Prod.mk.inj hx
    have hahead : ¬ x.due c.sim.now ≤ c.sim.now := by
      rw [← Letter.isRung_alarm, hset]
      exact Bool.false_ne_true
    have hnow' : (LetterLog.putOff c x queued).sim.now = c.sim.now := hnow
    rw [hnow']
    exact ⟨h.unripe x (by simp [hqueued]), Nat.le_refl _, Nat.lt_of_not_le hahead⟩
  · exact hasleep x t hx

theorem Timely.turn (h : c.Timely) (ht : c.Tied) (hledger : c.Ledger) : c.turn.Timely := by
  rcases ht.turn_cases with ⟨-, hstay⟩ | ⟨l, begun, queued, hqueued, hruns, ⟨hrung, hturn⟩ | ⟨hrung, hturn⟩⟩
  · rwa [hstay]
  · have hlate : l.isLate = true := (hledger.late_of_underway (by simp [underway, hqueued])).2
    rw [hturn]
    exact h.released hqueued hruns.now hlate hrung
  · obtain ⟨hbegun, hset⟩ := Bool.or_eq_false_iff.mp hrung
    obtain rfl := Option.isNone_iff_eq_none.mp (Option.isSome_eq_false_iff.mp hbegun)
    rw [hturn]
    exact h.putOff hqueued hruns.now hset

theorem Reached.timely (h : Reached c) : c.Timely := by
  induction h with
  | start => constructor <;> simp [fresh]
  | act _ x _ ih => exact ih.act x
  | hear hrun ih => exact ih.hear hrun.tied
  | turn hrun ih => exact ih.turn hrun.tied hrun.ledger
  | pass hrun span ih => exact ih.pass hrun.tied span
  | forget _ ih => exact ⟨ih.announced, ih.unripe, ih.ripe, ih.asleep, ih.prompt, ih.late⟩
  | aside _ hs ih =>
    refine ⟨?_, ?_, ?_, ?_, ih.prompt, ih.late⟩ <;> simp only [hs.now]
    · exact ih.announced
    · exact ih.unripe
    · exact ih.ripe
    · exact ih.asleep

/-! ### Accounts -/

structure Fulfils (c : LetterLog) (l : Letter) : Prop where
  /-- Each of its copies has been delivered or is underway. -/
  copies : (c.deliveries.countP fun d => d.letter = some l) + c.underway.count l = l.copies
  genuine : ∀ d ∈ c.deliveries, d.letter = some l → d.datagram = l.datagram
  prompt : l.isLate = false → l ∉ c.underway ∧ ∀ d ∈ c.deliveries, d.letter = some l → d.instant = l.sentAt
  late : l.isLate = true → ∀ d ∈ c.deliveries, d.letter = some l →
    l.sentAt ≤ d.begun ∧ l.sentAt + l.delay ≤ d.instant ∧ l.due d.begun ≤ d.instant
  /-- When no task is ready to run, whatever is underway waits for its alarm. -/
  asleep : c.sim.AtRest → c.underway.count l = (c.asleep.map Prod.fst).count l
  /-- Each copy waits from the instant at which its own task first ran, and not when it is due. -/
  due : ∀ begun, (l, begun) ∈ c.asleep → l.sentAt ≤ begun ∧ begun ≤ c.sim.now ∧ c.sim.now < l.due begun

theorem Reached.count_letters_le (h : Reached c) (l : Letter) : c.letters.count l ≤ 1 := by
  have hcount := List.nodup_iff_count.mp (List.nodup_range (n := c.sim.net.sentCount l.factory)) l.position
  rw [← h.booked.counted l.factory] at hcount
  calc c.letters.count l
      = (c.letters.filter fun x => x.factory = l.factory).count l := (List.count_filter (by simp)).symm
    _ ≤ ((c.letters.filter fun x => x.factory = l.factory).map Letter.position).count l.position :=
        List.count_le_count_map
    _ ≤ 1 := hcount

theorem Reached.fulfils (h : Reached c) {l : Letter} (hl : l ∈ c.letters) : c.Fulfils l := by
  have hledger := h.ledger
  have htimely := h.timely
  refine ⟨?_, fun d hd hdl => hledger.genuine d hd l hdl, fun hprompt => ⟨fun hunder => ?_, ?_⟩, ?_, ?_,
    htimely.asleep l⟩
  · have hone : c.letters.count l = 1 := Nat.le_antisymm (h.count_letters_le l) (List.count_pos_iff.mpr hl)
    have hlate := hledger.late l
    have hcopies := l.count_copies
    rw [Letter.count_flatMap fun x hx => (Letter.mem_late hx).1.symm, hone, Nat.one_mul] at hlate
    rw [Delivery.countP_letter, hledger.prompt, Letter.count_flatMap fun x hx => (Letter.mem_prompt hx).1.symm, hone,
      Nat.one_mul]
    omega
  · rw [(hledger.late_of_underway hunder).2] at hprompt
    cases hprompt
  · exact fun d hd hdl => htimely.prompt d hd l hdl hprompt
  · intro hlate d hd hdl
    obtain ⟨hsent, hdue⟩ := htimely.late d hd l hdl hlate
    exact ⟨hsent, Nat.le_trans (Nat.add_le_add_right hsent _) (Nat.le_trans (l.le_due _) hdue), hdue⟩
  · intro hrest
    obtain ⟨hannounced, hqueued⟩ := h.tied.nothing_queued hrest
    simp [underway, hannounced, hqueued]

structure Posts (c : LetterLog) (id : SocketId) (k : NetSocket) (target : Address) (b : Octets) (mayHold : Bool)
    (l : Letter) : Prop where
  succeeds : (c.sim.net.send id target b mayHold).1 = .ok ()
  letters : (c.act (.send id target b mayHold)).letters = c.letters ++ [l]
  factory : l.factory = k.factory
  position : l.position = c.sim.net.sentCount k.factory
  sentAt : l.sentAt = c.sim.now
  datagram : l.datagram = ⟨k.address, b⟩
  target : l.target = target
  mayHold : l.mayHold = mayHold

theorem Reached.posts (h : Reached c) {id : SocketId} {k : NetSocket} {f : Factory}
    (hk : c.sim.net.sockets[id]? = some k) (hopen : k.closed = false)
    (hf : c.sim.net.factories[k.factory]? = some f) (hmode : f.mode.send = none) (target : Address) (b : Octets)
    (mayHold : Bool) : ∃ l, c.Posts id k target b mayHold l := by
  have hfailure : c.sim.net.sendFailure? k = none := by
    simp [Network.sendFailure?, Network.mode, hf, hmode, hopen]
  have hfaults : c.sim.net.faults? k.factory = some f.faults := by simp [Network.faults?, hf]
  obtain ⟨l, hl⟩ : ∃ l, c.sim.net.letter? c.sim.now id target b mayHold = some l := by
    simp [Network.letter?, hk, hfailure, hfaults]
  have hsent := (h.tied.tenured.send_of_some hl).1
  have hletters : (c.act (.send id target b mayHold)).letters = c.letters ++ [l] := by
    simp [LetterLog.act, Outside.posted, hl]
  simp only [Network.letter?, hk, hfailure, hfaults, Option.some.injEq] at hl
  have hcount : c.sim.net.sentCount k.factory = f.faults.sent := by simp [Network.sentCount, hf]
  subst hl
  exact ⟨_, hsent, hletters, rfl, hcount.symm, rfl, rfl, rfl, rfl⟩

/-- A socket reads what is delivered to it, in this order; what has not been held back is in the order of sending. -/
def ReadsInOrder (c : LetterLog) (id : SocketId) : Prop :=
  ∃ read unread, (c.deliveries.filter fun d => d.recipient = some id) = read ++ unread ∧
    read.map Delivery.datagram = readings id c.reads ∧
    (¬ c.sim.net.Shut id → unread.map Delivery.datagram = c.sim.net.mail id) ∧
    (read.filterMap Delivery.prompt?).Sublist (c.letters.flatMap Letter.prompt)

theorem Reached.readsInOrder (h : Reached c) (id : SocketId) : c.ReadsInOrder id := by
  obtain ⟨rest, harrived, hrest⟩ := h.inboxes id
  obtain ⟨read, unread, hsplit, hread, hunread⟩ := List.map_eq_append_iff.mp harrived
  refine ⟨read, unread, hsplit, hread, fun hopen => hunread.trans (hrest hopen), ?_⟩
  have hread : read.Sublist c.deliveries :=
    (hsplit ▸ List.sublist_append_left read unread).trans List.filter_sublist
  rw [← h.ledger.prompt]
  exact hread.filterMap _

structure Accounted (c : LetterLog) : Prop where
  /-- Whoever sends on an open socket hears of no failure, and the letter is the next of its factory. -/
  posts : ∀ id k f, c.sim.net.sockets[id]? = some k → k.closed = false →
    c.sim.net.factories[k.factory]? = some f → f.mode.send = none →
    ∀ target b mayHold, ∃ l, c.Posts id k target b mayHold l
  counted : ∀ f, (c.letters.filter fun l => l.factory = f).map Letter.position =
    List.range (c.sim.net.sentCount f)
  planned : ∀ l ∈ c.letters, ∀ f, c.sim.net.factories[l.factory]? = some f → f.faults.Ranged →
    f.faults.plan.Certain → l.fate = f.faults.plan.fate l.position l.datagram.octets ∧ l.delay = f.faults.plan.delay
  fulfils : ∀ l ∈ c.letters, c.Fulfils l
  known : ∀ d ∈ c.deliveries, ∀ l, d.letter = some l → l ∈ c.letters
  addressed : c.Addressed
  inOrder : c.deliveries.filterMap Delivery.prompt? = c.letters.flatMap Letter.prompt
  readsInOrder : ∀ id, c.ReadsInOrder id
  shown : ∀ r ∈ c.reads, r.got = (r.datagram.source, r.datagram.octets.take r.limit)

/-- However a network runs, its accounts are right. -/
theorem Reached.accounted (h : Reached c) : c.Accounted where
  posts _ _ _ hk hopen hf hmode := h.posts hk hopen hf hmode
  counted := h.booked.counted
  planned l hl f hf hranged hcertain := by
    have hfaults : c.sim.net.faults? l.factory = some f.faults := by simp [Network.faults?, hf]
    obtain ⟨hdelay, hfate⟩ := h.booked.planned l.factory f.faults hfaults l hl rfl
    exact ⟨hfate hranged hcertain, hdelay⟩
  fulfils _ hl := h.fulfils hl
  known := h.known
  addressed := h.addressed
  inOrder := h.ledger.prompt
  readsInOrder := h.readsInOrder
  shown := h.reads_got

/-- Every copy is sent twice. The second datagram is lost, whichever socket sends it; the third comes to the socket
that has been bound to its target meanwhile. -/
theorem Reached.accounted_after_rebinding :
    let a : Address := { ip := Ip.v4Loopback, port := 1 }
    let b : Address := { ip := Ip.v4Loopback, port := 2 }
    let always : Binary64 := { word := 1023 * Binary64.twoTo 52 }
    let faults : FaultModel := { plan := { duplicateRate := always, dropIndices := [1], delayIndices := [2] } }
    let factories : Array Factory := #[{ faults }, { faults := { plan := {} } }]
    let bound := (((fresh factories).act (.bind 0 a)).act (.bind 1 b)).act (.bind 0 { a with port := 3 })
    let sent := ((bound.act (.send 0 b [0] true)).act (.send 2 b [1] true)).act (.send 0 b [2] true)
    let moved := ((sent.hear.turn.turn.act (.receive 1 8)).act (.close 1)).act (.bind 1 b)
    let c := (moved.pass (Span.milliseconds 50)).hear.turn.turn.hear
    Reached c ∧ faults.Ranged ∧ faults.plan.Certain ∧ c.sim.AtRest ∧ c.Accounted ∧
      c.sim.net.sentCount 0 = 3 ∧
      c.letters.map Letter.fate = [.delivered 2 false, .lost, .delivered 2 true] ∧
      readings 1 c.reads = [⟨a, [0]⟩] ∧ c.sim.net.mail 3 = [⟨a, [2]⟩, ⟨a, [2]⟩] ∧
      c.deliveries.map Delivery.instant = [0, 0, Span.milliseconds 50, Span.milliseconds 50] := by
  intro a b always faults factories bound sent moved c
  have hbound : Reached bound :=
    (((Reached.start factories (by simp [factories, faults])).act (.bind 0 a) rfl).act (.bind 1 b) rfl).act
      (.bind 0 { a with port := 3 }) rfl
  have hsent : Reached sent :=
    ((hbound.act (.send 0 b [0] true) rfl).act (.send 2 b [1] true) rfl).act (.send 0 b [2] true) rfl
  have hmoved : Reached moved := ((hsent.hear.turn.turn.act (.receive 1 8) rfl).act (.close 1) rfl).act (.bind 1 b) rfl
  have hrun : Reached c := (hmoved.pass (Span.milliseconds 50)).hear.turn.turn.hear
  refine ⟨hrun, FaultModel.ranged_even _, ?_, ?_, hrun.accounted, ?_, ?_, ?_, ?_, ?_⟩ <;> decide +kernel

/-- A datagram may be underway when its time has come: if that is not a whole millisecond, and if the clock has moved
before a task took it up. -/
theorem Reached.held_past_due :
    let a : Address := { ip := .v4 10 0 0 1, port := 1 }
    let b : Address := { ip := .v4 10 0 0 2, port := 2 }
    let always : Binary64 := { word := 1023 * Binary64.twoTo 52 }
    let plan (delay : Span) : FaultPlan := { delay, delayRate := always }
    let sent (delay : Span) : LetterLog :=
      (((fresh #[{ faults := { plan := plan delay } }]).act (.bind 0 a)).act (.bind 0 b)).act (.send 0 b [1] true)
    let uneven := (sent 1).hear.turn.pass 1
    let belated := ((sent Span.millisecond).pass Span.millisecond).hear.turn
    (∀ delay, (plan delay).Certain ∧ FaultModel.Ranged { plan := plan delay }) ∧
      (Reached uneven ∧ uneven.sim.AtRest ∧ uneven.sim.net.mail 1 = [] ∧
        ∃ l ∈ uneven.underway, l.sentAt + l.delay ≤ uneven.sim.now) ∧
      Reached belated ∧ belated.sim.AtRest ∧ belated.sim.net.mail 1 = [] ∧
        ∃ l ∈ belated.underway, l.sentAt + l.delay ≤ belated.sim.now := by
  intro a b always plan sent uneven belated
  have hsent (delay : Span) : Reached (sent delay) :=
    (((Reached.start #[{ faults := { plan := plan delay } }] (by simp)).act (.bind 0 a) rfl).act
      (.bind 0 b) rfl).act (.send 0 b [1] true) rfl
  have huneven : Reached uneven := (hsent 1).hear.turn.pass 1
  have hbelated : Reached belated := ((hsent Span.millisecond).pass Span.millisecond).hear.turn
  have hcertain (delay : Span) : (plan delay).Certain := by
    have halways : 1 ≤ always.toRat := by decide +kernel
    have hnever : (Binary64.toRat {}) ≤ 0 := by decide +kernel
    simp [FaultPlan.Certain, plan, halways, hnever]
  refine ⟨fun delay => ⟨hcertain delay, FaultModel.ranged_even _⟩, ⟨huneven, ?_, ?_, ?_⟩,
    hbelated, ?_, ?_, ?_⟩ <;> decide +kernel

end LetterLog

end DatagramStreams
