import DatagramStreams.Transport.AckHolder

/-! How long an ACK is put off. A value that is set later replaces the one that waits and leaves its delay
alone. A send that fails gives the ACK back, and then the delay starts anew.
Main statement: `Deferral.Reached.takeExpired_eq`, what a look at the holder finds at any time. However often
an ACK is set, it is found one delay after the first; with every send that fails, it is put off once more.
-/

set_option autoImplicit false

namespace DatagramStreams

namespace AckHolder

inductive Used (delay : Span) : AckHolder → Prop
  | new : Used delay { delay }
  | set {h : AckHolder} (hu : Used delay h) (a : Seq) (now : Instant) : Used delay (h.set a now)
  | take {h : AckHolder} (hu : Used delay h) : Used delay h.take.2
  | takeExpired {h : AckHolder} (hu : Used delay h) (now : Instant) : Used delay (h.takeExpired now).2
  | restore {h : AckHolder} (hu : Used delay h) (a : Seq) (now : Instant) : Used delay (h.restore a now)

structure RunsSince (delay : Span) (t : Instant) (h : AckHolder) : Prop where
  delay : h.delay = delay
  timer : h.timer = if h.ack.isSome then .startedAt t else .stopped

variable {delay : Span} {h : AckHolder} {t : Instant}

/-- When an operation puts up an ACK: its delay starts now unless one waits already. -/
def putUp (h : AckHolder) (t now : Instant) : Instant := if h.ack.isSome then t else now

theorem RunsSince.set (hr : h.RunsSince delay t) (a : Seq) (now : Instant) :
    (h.set a now).RunsSince delay (h.putUp t now) := by
  refine ⟨hr.delay, ?_⟩
  simp only [AckHolder.set, Timer.ensureStarted, hr.timer, putUp, Option.isSome_some, if_true]
  cases h.ack <;> rfl

theorem RunsSince.cleared (hr : h.RunsSince delay t) : h.cleared.RunsSince delay t := ⟨hr.delay, rfl⟩

theorem RunsSince.takeExpired (hr : h.RunsSince delay t) (now : Instant) :
    (h.takeExpired now).2.RunsSince delay t := by
  unfold AckHolder.takeExpired
  split
  · exact hr.cleared
  · exact hr

theorem RunsSince.restore (hr : h.RunsSince delay t) (a : Seq) (now : Instant) :
    (h.restore a now).RunsSince delay (h.putUp t now) := by
  cases ha : h.ack with
  | none =>
    simp only [AckHolder.restore, ha, putUp]
    exact ⟨hr.delay, rfl⟩
  | some b =>
    simpa [AckHolder.restore, ha, putUp] using hr

theorem RunsSince.takeExpired_fst (hr : h.RunsSince delay t) (now : Instant) :
    (h.takeExpired now).1 = if t + delay < now then h.ack else none := by
  unfold AckHolder.takeExpired
  rw [hr.timer, hr.delay]
  cases ha : h.ack with
  | none => simp
  | some a =>
    simp only [Option.isSome_some, if_true, Timer.hasPassed_startedAt]
    split
    · exact ha
    · rfl

theorem Used.runsSince (hu : h.Used delay) : ∃ t, h.RunsSince delay t := by
  induction hu with
  | new => exact ⟨0, rfl, rfl⟩
  | set _ a now ih => obtain ⟨t, hr⟩ := ih; exact ⟨_, hr.set a now⟩
  | take _ ih => obtain ⟨t, hr⟩ := ih; exact ⟨t, hr.cleared⟩
  | takeExpired _ now ih => obtain ⟨t, hr⟩ := ih; exact ⟨t, hr.takeExpired now⟩
  | restore _ a now ih => obtain ⟨t, hr⟩ := ih; exact ⟨_, hr.restore a now⟩

end AckHolder

/-- A holder from which no ACK has left since a first one was set, and what its observer has noted. -/
structure Deferral where
  holder : AckHolder
  newest : Seq
  first : Instant
  /-- When a value was last set or given back with none waiting. -/
  since : Instant
  taken : Option Seq := none
  /-- When a send last failed and gave back what it had taken. -/
  refused : Option Instant := none
  clock : Instant

namespace Deferral

inductive Act where
  | set (a : Seq)
  | take
  | takeExpired
  | restore

def act (d : Deferral) (what : Act) (now : Instant) : Deferral :=
  let d := { d with clock := now }
  match what with
  | .set a => { d with holder := d.holder.set a now, newest := a, since := d.holder.putUp d.since now }
  | .take =>
    let (taken, holder) := d.holder.take
    { d with holder, taken }
  | .takeExpired =>
    let (taken, holder) := d.holder.takeExpired now
    { d with holder, taken }
  | .restore =>
    match d.taken with
    | some a =>
      { d with
        holder := d.holder.restore a now
        since := d.holder.putUp d.since now
        taken := none
        refused := some now }
    | none => d

def Possible (d : Deferral) : Act → Prop
  | .take | .takeExpired => d.taken = none
  | .set _ | .restore => True

/-- Whatever has been done with a holder before, an ACK is set when none waits; from then on every send that
takes one fails and gives it back, and more are set at any time, also before the failed send gives back its own. -/
inductive Reached (delay : Span) : Deferral → Prop
  | first {h : AckHolder} (hu : h.Used delay) (hnone : h.ack = none) (a : Seq) (now : Instant) :
      Reached delay { holder := h.set a now, newest := a, first := now, since := now, clock := now }
  | act {d : Deferral} (hd : Reached delay d) (what : Act) (now : Instant) (hp : d.Possible what)
      (ht : d.clock ≤ now) : Reached delay (d.act what now)

structure Retained (delay : Span) (d : Deferral) : Prop where
  runs : d.holder.RunsSince delay d.since
  held : d.holder.ack.or d.taken = some d.newest
  began : d.first ≤ d.since
  past : d.since ≤ d.clock
  bound : d.taken = none → d.since ≤ d.refused.getD d.first

variable {delay : Span} {d : Deferral} {now : Instant}

theorem Retained.ack (h : d.Retained delay) (hidle : d.taken = none) : d.holder.ack = some d.newest := by
  simpa [hidle] using h.held

theorem Retained.putUp (h : d.Retained delay) (ht : d.clock ≤ now) :
    d.first ≤ d.holder.putUp d.since now ∧ d.holder.putUp d.since now ≤ now := by
  have hpast := Nat.le_trans h.past ht
  unfold AckHolder.putUp
  split
  · exact ⟨h.began, hpast⟩
  · exact ⟨Nat.le_trans h.began hpast, Nat.le_refl now⟩

theorem Retained.set (h : d.Retained delay) (ht : d.clock ≤ now) (a : Seq) : (d.act (.set a) now).Retained delay := by
  obtain ⟨hbegan, hpast⟩ := h.putUp ht
  refine ⟨h.runs.set a now, rfl, hbegan, hpast, fun hidle => ?_⟩
  have hidle : d.taken = none := hidle
  simpa [act, AckHolder.putUp, h.ack hidle] using h.bound hidle

theorem Retained.cleared (h : d.Retained delay) (ht : d.clock ≤ now) (hidle : d.taken = none) :
    Retained delay { d with holder := d.holder.cleared, taken := d.holder.ack, clock := now } where
  runs := h.runs.cleared
  held := h.ack hidle
  began := h.began
  past := Nat.le_trans h.past ht
  bound hnone := by
    have hnone : d.holder.ack = none := hnone
    rw [h.ack hidle] at hnone
    cases hnone

theorem Retained.takeExpired (h : d.Retained delay) (ht : d.clock ≤ now) (hidle : d.taken = none) :
    (d.act .takeExpired now).Retained delay := by
  simp only [act, AckHolder.takeExpired]
  split
  · exact h.cleared ht hidle
  · exact ⟨h.runs, by simpa [hidle] using h.held, h.began, Nat.le_trans h.past ht, fun _ => h.bound hidle⟩

theorem Retained.restore (h : d.Retained delay) (ht : d.clock ≤ now) : (d.act .restore now).Retained delay := by
  obtain ⟨hbegan, hpast⟩ := h.putUp ht
  cases htaken : d.taken with
  | none =>
    simp only [act, htaken]
    exact ⟨h.runs, htaken ▸ h.held, h.began, Nat.le_trans h.past ht, fun _ => h.bound htaken⟩
  | some a =>
    have hheld := h.held
    simp only [act, htaken]
    refine ⟨h.runs.restore a now, ?_, hbegan, hpast, fun _ => hpast⟩
    rw [htaken] at hheld
    rw [AckHolder.ack_restore, Option.some_or, ← hheld]
    cases d.holder.ack <;> rfl

theorem Reached.retained (h : Reached delay d) : d.Retained delay := by
  induction h with
  | first hu hnone a now =>
    obtain ⟨t, hr⟩ := hu.runsSince
    have hset := hr.set a now
    rw [AckHolder.putUp, hnone] at hset
    exact ⟨hset, rfl, Nat.le_refl _, Nat.le_refl _, fun _ => Nat.le_refl _⟩
  | act _ what now hp ht ih =>
    cases what with
    | set a => exact ih.set ht a
    | take => exact ih.cleared ht hp
    | takeExpired => exact ih.takeExpired ht hp
    | restore => exact ih.restore ht

/-- Between two sends a look at the holder finds the newest value as soon as its delay is over, and nothing
before. The delay has started when a value was set for the first time, as long as no send has failed; after
that, at the latest when the last one did. -/
theorem Reached.takeExpired_eq (h : Reached delay d) (hidle : d.taken = none) :
    (∀ now, (d.holder.takeExpired now).1 = if d.since + delay < now then some d.newest else none) ∧
      d.first ≤ d.since ∧ d.since ≤ d.refused.getD d.first := by
  have hk := h.retained
  refine ⟨fun now => ?_, hk.began, hk.bound hidle⟩
  rw [hk.runs.takeExpired_fst, hk.ack hidle]

theorem Reached.takeExpired_eq_refused : ∃ d, Reached 50 d ∧ d.first = 0 ∧ d.refused = some 40 ∧
    (d.holder.takeExpired 80).1 = none ∧ (d.holder.takeExpired 81).1 = some 7 := by
  have h : Reached 50 _ := ((((Reached.first .new rfl 5 0).act (.set 6) 20 trivial (by decide)).act
    .take 20 rfl (by decide)).act (.set 7) 30 trivial (by decide)).act .restore 40 trivial (by decide)
  obtain ⟨hfinds, -⟩ := h.takeExpired_eq rfl
  exact ⟨_, h, rfl, rfl, (hfinds 80).trans (by decide), (hfinds 81).trans (by decide)⟩

/-- A send fails when most of the delay is over, and the delay starts anew. -/
theorem Reached.deferred_longer : ¬ ∀ delay d now, Reached delay d → d.taken = none → d.first + delay < now →
    (d.holder.takeExpired now).1 = some d.newest := by
  intro hall
  have h : Reached 50 _ :=
    ((Reached.first .new rfl 1 0).act .take 40 rfl (by decide)).act .restore 40 trivial (by decide)
  exact absurd (hall 50 _ 51 h rfl (by decide)) (by decide)

end Deferral

end DatagramStreams
