import DatagramStreams.Time.Span

/-! Timers that are asked, never called: a start instant compared with a span.
-/

set_option autoImplicit false

namespace DatagramStreams

structure Timer where
  started : Option Instant := none
  deriving DecidableEq, Repr

namespace Timer

def stopped : Timer := {}

def startedAt (now : Instant) : Timer := { started := some now }

def isActive (t : Timer) : Bool := t.started.isSome

/-- Active, and strictly more than `timeout` since the start. -/
def hasPassed (t : Timer) (now : Instant) (timeout : Span) : Bool :=
  match t.started with
  | some start => timeout < Span.elapsed start now
  | none => false

def ensureStarted (t : Timer) (now : Instant) : Timer := if t.isActive then t else startedAt now

@[simp] theorem hasPassed_stopped (now : Instant) (timeout : Span) :
    stopped.hasPassed now timeout = false := rfl

theorem hasPassed_startedAt (start now : Instant) (timeout : Span) :
    (startedAt start).hasPassed now timeout = true ↔ start + timeout < now := by
  change decide (timeout < now - start) = true ↔ _
  rw [decide_eq_true_eq]
  exact Nat.lt_sub_iff_add_lt'

@[simp] theorem isActive_stopped : stopped.isActive = false := rfl

@[simp] theorem isActive_startedAt (now : Instant) : (startedAt now).isActive = true := rfl

@[simp] theorem isActive_ensureStarted (t : Timer) (now : Instant) :
    (t.ensureStarted now).isActive = true := by
  cases h : t.isActive <;> simp [ensureStarted, h]

theorem isActive_of_hasPassed {t : Timer} {now : Instant} {timeout : Span}
    (h : t.hasPassed now timeout = true) : t.isActive = true := by
  obtain ⟨_ | start⟩ := t
  · simp [hasPassed] at h
  · rfl

theorem hasPassed_eq_false {t : Timer} {now : Instant} {timeout : Span}
    (h : ∀ start, t.started = some start → Span.elapsed start now ≤ timeout) :
    t.hasPassed now timeout = false := by
  obtain ⟨_ | start⟩ := t
  · rfl
  · exact decide_eq_false (Nat.not_lt.mpr (h start rfl))

theorem hasPassed_of_isActive {t : Timer} {now : Instant} {timeout : Span} (ha : t.isActive = true)
    (h : ∀ start, t.started = some start → timeout < Span.elapsed start now) :
    t.hasPassed now timeout = true := by
  obtain ⟨_ | start⟩ := t
  · simp [isActive] at ha
  · exact decide_eq_true (h start rfl)

end Timer

end DatagramStreams
