import DatagramStreams.Proofs.Handshake.Expiry

/-! The table of pending handshakes against the record of what has been done with it. Going by the record
alone, a handshake is live when it was the last to be recorded under its key and nothing has put an end to it.
Main statement: `Pending.tallies_with_record`. The sweep finds the live handshakes that are too old, and counts
them, although it looks at the slots only as far as the first young one.
-/

set_option autoImplicit false

namespace DatagramStreams

namespace Pending

inductive Act where
  | insert (k : PendingKey) (sequenceIn : Seq) (now : Instant)
  | complete (k : PendingKey)
  | sweep (now : Instant) (life : Span)

def act (p : Pending) : Act → Pending
  | .insert k sequenceIn now => p.insert k sequenceIn now
  | .complete k => (p.complete k).2
  | .sweep now life => (p.sweep now life).2

/-- What the acts of a record lead to, of which the last comes first. -/
def after : List Act → Pending
  | [] => { entries := .empty }
  | a :: earlier => (after earlier).act a

namespace Act

def recorded? : Act → Option Instant
  | .insert _ _ now => some now
  | _ => none

def Settles (k : PendingKey) (since : Instant) : Act → Prop
  | .insert k' _ _ => k' = k
  | .complete k' => k' = k
  | .sweep now life => life < Span.elapsed since now

end Act

/-- The record has this handshake under the key, and nothing since has put an end to it. -/
def Live (acts : List Act) (k : PendingKey) (e : PendingEntry) : Prop :=
  ∃ later earlier, acts = later ++ .insert k e.sequenceIn e.created :: earlier ∧
    ∀ a ∈ later, ¬ a.Settles k e.created

/-- Handshakes are recorded by a clock that does not go back. Nothing is said of the clock of a sweep. -/
def InOrder (acts : List Act) : Prop := (acts.filterMap Act.recorded?).Pairwise (· ≥ ·)

variable {acts : List Act} {k : PendingKey} {e : PendingEntry}

theorem live_cons (a : Act) : Live (a :: acts) k e ↔
    a = .insert k e.sequenceIn e.created ∨ (Live acts k e ∧ ¬ a.Settles k e.created) := by
  constructor
  · rintro ⟨_ | ⟨b, later⟩, earlier, hacts, hsettled⟩
    · exact .inl (List.cons.inj hacts).1
    · obtain ⟨rfl, rfl⟩ := List.cons.inj hacts
      obtain ⟨hb, hlater⟩ := List.forall_mem_cons.mp hsettled
      exact .inr ⟨⟨later, earlier, rfl, hlater⟩, hb⟩
  · rintro (rfl | ⟨⟨later, earlier, rfl, hsettled⟩, ha⟩)
    · exact ⟨[], acts, rfl, nofun⟩
    · exact ⟨a :: later, earlier, rfl, List.forall_mem_cons.mpr ⟨ha, hsettled⟩⟩

theorem InOrder.tail {a : Act} (h : InOrder (a :: acts)) : InOrder acts :=
  List.Pairwise.sublist ((List.sublist_cons_self a acts).filterMap _) h

theorem InOrder.orderly (h : InOrder acts) {latest : Instant} (hl : ∀ t ∈ acts.filterMap Act.recorded?, t ≤ latest) :
    (after acts).Orderly latest := by
  induction acts generalizing latest with
  | nil => exact orderly_empty latest
  | cons a earlier ih =>
    cases a with
    | insert k sequenceIn now =>
      obtain ⟨hnow, -⟩ := List.pairwise_cons.mp h
      exact ((ih h.tail hnow).insert (Nat.le_refl now) k sequenceIn).mono (hl now (.head _))
    | complete k => exact (ih h.tail hl).complete k
    | sweep now life => exact (ih h.tail hl).sweep life

theorem InOrder.orderly_after (h : InOrder acts) : ∃ latest, (after acts).Orderly latest := by
  cases hr : acts.filterMap Act.recorded? with
  | nil => exact ⟨0, h.orderly (by simp [hr])⟩
  | cons t rest =>
    refine ⟨t, h.orderly fun t' ht' => ?_⟩
    rw [InOrder, hr] at h
    rw [hr] at ht'
    rcases List.mem_cons.mp ht' with rfl | ht'
    · exact Nat.le_refl _
    · exact (List.pairwise_cons.mp h).1 t' ht'

theorem find?_after (h : InOrder acts) : (after acts).find? k = some e ↔ Live acts k e := by
  induction acts with
  | nil => simp [after, find?, Live]
  | cons a earlier ih =>
    rw [live_cons, ← ih h.tail]
    cases a with
    | insert k' sequenceIn now =>
      simp only [after, act, find?_insert, Act.Settles, Act.insert.injEq]
      by_cases hk : k = k'
      · subst hk
        obtain ⟨s, t⟩ := e
        simp
      · simp [hk, Ne.symm hk]
    | complete k' =>
      simp only [after, act, find?_complete, Act.Settles]
      by_cases hk : k = k'
      · simp [hk]
      · simp [hk, Ne.symm hk]
    | sweep now life =>
      obtain ⟨latest, ho⟩ := h.tail.orderly_after
      simp only [after, act, find?_sweep ho, Option.filter_eq_some_iff, Act.Settles, survives]
      simp

/-- What the table holds are the live handshakes. Completing a key gives the client sequence of the one that is live
under it and removes no other; a sweep removes those that are older than their life, and counts them. -/
theorem tallies_with_record (h : InOrder acts) :
    (∀ k e, (after acts).find? k = some e ↔ Live acts k e) ∧
    (∀ k, (∀ s, ((after acts).complete k).1 = some s ↔ ∃ e, Live acts k e ∧ e.sequenceIn = s) ∧
      ∀ key e, ((after acts).complete k).2.find? key = some e ↔ key ≠ k ∧ Live acts key e) ∧
    ∀ now life,
      (∀ key e, ((after acts).sweep now life).2.find? key = some e ↔
        Live acts key e ∧ Span.elapsed e.created now ≤ life) ∧
      ((after acts).sweep now life).1 =
        (after acts).entries.values.countP fun e => decide (life < Span.elapsed e.created now) := by
  obtain ⟨latest, ho⟩ := h.orderly_after
  refine ⟨fun k e => find?_after h, fun k => ⟨fun s => ?_, fun key e => ?_⟩, fun now life => ⟨fun key e => ?_, ?_⟩⟩
  · simp only [← find?_after h]
    cases hk : (after acts).find? k with
    | none => simp [complete_of_none hk]
    | some e => simp [complete_of_find? hk]
  · rw [find?_complete, ← find?_after h]
    by_cases hk : key = k <;> simp [hk]
  · rw [find?_sweep ho, ← find?_after h, Option.filter_eq_some_iff]
    simp [survives]
  · rw [fst_sweep ho]
    refine List.countP_congr fun e _ => ?_
    simp [survives]

/-- A handshake is recorded twice at one instant, once more under its key after it has been completed, and the
sweep counts it once. -/
theorem tallies_with_record_repeated :
    let k : PendingKey := { client := { ip := .v4Loopback, port := 1 }, ack := 500 }
    let acts : List Act := [.insert k 9 20, .complete k, .insert k 8 20, .insert k 7 20]
    InOrder acts ∧ ((after acts).sweep 5021 5000).1 = 1 ∧ ((after acts).sweep 5020 5000).1 = 0 ∧
      ((after acts).complete k).1 = some 9 := by
  intro k acts
  have h : InOrder acts := by unfold InOrder; decide
  obtain ⟨-, hcomplete, hsweep⟩ := tallies_with_record h
  refine ⟨h, (hsweep 5021 5000).2.trans (by decide), (hsweep 5020 5000).2.trans (by decide), ?_⟩
  exact ((hcomplete k).1 9).mpr ⟨⟨9, 20⟩, ⟨[], _, rfl, nofun⟩, rfl⟩

end Pending

end DatagramStreams
