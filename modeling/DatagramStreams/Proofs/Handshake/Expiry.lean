import DatagramStreams.Handshake.Pending

/-! Age of pending handshakes. A sweep looks at the slots from the front and stops at the first young one;
as long as the slots stand in order of time this removes exactly the entries that are too old.
Main statements: `find?_sweep` and `fst_sweep`, what a sweep leaves and how much it counts.
-/

set_option autoImplicit false

namespace DatagramStreams

namespace Pending

def find? (p : Pending) (k : PendingKey) : Option PendingEntry := p.entries.find? k

/-- Slots stand in order of time, none of them later than `now`, and every entry still has the slot that
was recorded with it. -/
structure Orderly (p : Pending) (now : Instant) : Prop where
  sorted : p.slots.Pairwise fun x y => x.2 ≤ y.2
  past : ∀ x ∈ p.slots, x.2 ≤ now
  covered : ∀ k e, p.find? k = some e → (k, e.created) ∈ p.slots

variable {p : Pending} {now now' latest : Instant} {k key : PendingKey} {e : PendingEntry}

theorem orderly_empty (now : Instant) : ({} : Pending).Orderly now :=
  ⟨.nil, by simp, fun k e h => by simp [find?, Table.find?, Table.lookup] at h⟩

theorem Orderly.mono (h : p.Orderly now) (ht : now ≤ now') : p.Orderly now' :=
  ⟨h.sorted, fun x hx => Nat.le_trans (h.past x hx) ht, h.covered⟩

theorem find?_insert (p : Pending) (k key : PendingKey) (sequenceIn : Seq) (now : Instant) :
    (p.insert k sequenceIn now).find? key =
      if key = k then some { sequenceIn, created := now } else p.find? key := by
  split
  · rename_i h
    rw [h]
    exact Table.find?_put_self _ _ _
  · exact Table.find?_put_ne _ ‹_› _

theorem Orderly.insert (h : p.Orderly now) (ht : now ≤ now') (k : PendingKey) (sequenceIn : Seq) :
    (p.insert k sequenceIn now').Orderly now' where
  sorted := by
    refine List.pairwise_append.mpr ⟨h.sorted, List.pairwise_singleton _ _, fun x hx y hy => ?_⟩
    rw [List.mem_singleton.mp hy]
    exact Nat.le_trans (h.past x hx) ht
  past x hx := by
    rcases List.mem_append.mp hx with hx | hx
    · exact Nat.le_trans (h.past x hx) ht
    · exact Nat.le_of_eq (by rw [List.mem_singleton.mp hx])
  covered key e he := by
    rw [find?_insert] at he
    split at he
    · rename_i hk
      cases he
      exact List.mem_append_right _ (by simp [hk])
    · exact List.mem_append_left _ (h.covered key e he)

theorem complete_of_find? (h : p.find? k = some e) :
    p.complete k = (some e.sequenceIn, { p with entries := p.entries.erase k }) := by
  have he : p.entries.find? k = some e := h
  simp only [complete, he]

theorem complete_of_none (h : p.find? k = none) : p.complete k = (none, p) := by
  have he : p.entries.find? k = none := h
  simp only [complete, he]

theorem find?_complete (p : Pending) (k key : PendingKey) :
    (p.complete k).2.find? key = if key = k then none else p.find? key := by
  cases h : p.find? k with
  | none =>
    rw [complete_of_none h]
    split
    · rename_i hk
      rw [hk, h]
    · rfl
  | some e =>
    rw [complete_of_find? h]
    split
    · rename_i hk
      rw [hk]
      exact Table.find?_erase_self _ _
    · exact Table.find?_erase_ne _ ‹_›

theorem Orderly.complete (h : p.Orderly now) (k : PendingKey) : (p.complete k).2.Orderly now := by
  have hslots : (p.complete k).2.slots = p.slots := by
    unfold Pending.complete
    split <;> rfl
  refine ⟨hslots ▸ h.sorted, hslots ▸ h.past, fun key e he => ?_⟩
  rw [find?_complete] at he
  split at he
  · simp at he
  · rw [hslots]
    exact h.covered key e he

def survives (now : Instant) (life : Span) (e : PendingEntry) : Bool := Span.elapsed e.created now ≤ life

theorem holds_iff {entries : Table PendingKey PendingEntry} {slot : PendingKey × Instant} :
    holds entries slot = true ↔ ∃ e, entries.find? slot.1 = some e ∧ e.created = slot.2 := by
  cases h : entries.find? slot.1 <;> simp [holds, h]

section

variable {slot : PendingKey × Instant} {rest : List (PendingKey × Instant)}
  {entries : Table PendingKey PendingEntry} {life : Span}

/-- The entry a slot stands for is gone with it: the other slots cover the rest. -/
theorem Orderly.erase (h : Orderly { entries, slots := slot :: rest } latest) :
    Orderly { entries := entries.erase slot.1, slots := rest } latest where
  sorted := (List.pairwise_cons.mp h.sorted).2
  past x hx := h.past x (List.mem_cons_of_mem _ hx)
  covered key e he := by
    have hne : key ≠ slot.1 := fun hkey => by simp [find?, hkey] at he
    have hold : entries.find? key = some e := (Table.find?_erase_ne _ hne).symm.trans he
    rcases List.mem_cons.mp (h.covered key e hold) with hs | hs
    · exact absurd (congrArg Prod.fst hs) hne
    · exact hs

theorem Orderly.tail (h : Orderly { entries, slots := slot :: rest } latest)
    (hholds : ¬ holds entries slot = true) : Orderly { entries, slots := rest } latest where
  sorted := (List.pairwise_cons.mp h.sorted).2
  past x hx := h.past x (List.mem_cons_of_mem _ hx)
  covered key e he := by
    rcases List.mem_cons.mp (h.covered key e he) with hs | hs
    · exact absurd (holds_iff.mpr ⟨e, hs ▸ he, congrArg Prod.snd hs⟩) hholds
    · exact hs

theorem Orderly.survives (h : Orderly { entries, slots := slot :: rest } latest)
    (hyoung : Span.elapsed slot.2 now ≤ life) (he : entries.find? key = some e) :
    survives now life e = true := by
  have hlater : slot.2 ≤ e.created := by
    rcases List.mem_cons.mp (h.covered key e he) with hs | hs
    · exact Nat.le_of_eq (congrArg Prod.snd hs).symm
    · exact (List.pairwise_cons.mp h.sorted).1 _ hs
  exact decide_eq_true (Nat.le_trans (Nat.sub_le_sub_left hlater now) hyoung)

end

theorem sweep_of_young {entries : Table PendingKey PendingEntry} {life : Span}
    (h : ∀ key e, entries.find? key = some e → survives now life e = true) :
    (∀ key, entries.find? key = (entries.find? key).filter (survives now life)) ∧
      0 = entries.values.countP fun e => !survives now life e := by
  refine ⟨fun key => ?_, (List.countP_eq_zero.mpr fun e he => ?_).symm⟩
  · cases hk : entries.find? key with
    | none => rfl
    | some e => simp [Option.filter, h key e hk]
  · obtain ⟨key, hk⟩ := Table.exists_find?_of_mem_values he
    simp [h key e hk]

/-- The induction is on the slots. The clock of a sweep need not agree with that of the slots. -/
theorem sweepSlots_orderly (now : Instant) (life : Span) (slots : List (PendingKey × Instant))
    (entries : Table PendingKey PendingEntry) (h : Orderly { entries, slots } latest) :
    (sweepSlots now life slots entries).2.Orderly latest ∧
      (∀ key, (sweepSlots now life slots entries).2.find? key =
        (entries.find? key).filter (survives now life)) ∧
      (sweepSlots now life slots entries).1 = entries.values.countP fun e => !survives now life e := by
  induction slots generalizing entries with
  | nil => exact ⟨h, sweep_of_young fun key e hk => absurd (h.covered key e hk) (by simp)⟩
  | cons slot rest ih =>
    unfold sweepSlots
    by_cases hyoung : Span.elapsed slot.2 now ≤ life
    · rw [if_pos hyoung]
      exact ⟨h, sweep_of_young fun _ _ => h.survives hyoung⟩
    · rw [if_neg hyoung]
      by_cases hholds : holds entries slot = true
      · obtain ⟨e, he, hcreated⟩ := holds_iff.mp hholds
        have hdead : survives now life e = false := by
          rw [survives, hcreated]
          exact decide_eq_false hyoung
        rw [if_pos hholds]
        obtain ⟨ho, hf, hn⟩ := ih (entries.erase slot.1) h.erase
        refine ⟨ho, fun key => (hf key).trans ?_, ?_⟩
        · by_cases hkey : key = slot.1
          · rw [hkey, Table.find?_erase_self, he]
            simp [Option.filter, hdead]
          · rw [Table.find?_erase_ne _ hkey]
        · simp only [hn, ← Table.countP_values_erase he, hdead, Bool.not_false, if_true]
      · rw [if_neg hholds]
        exact ih entries (h.tail hholds)

theorem find?_sweep (h : p.Orderly latest) (life : Span) (key : PendingKey) :
    (p.sweep now life).2.find? key = (p.find? key).filter (survives now life) :=
  (sweepSlots_orderly now life p.slots p.entries h).2.1 key

theorem Orderly.sweep (h : p.Orderly latest) (life : Span) : (p.sweep now life).2.Orderly latest :=
  (sweepSlots_orderly now life p.slots p.entries h).1

theorem fst_sweep (h : p.Orderly latest) (now : Instant) (life : Span) :
    (p.sweep now life).1 = p.entries.values.countP fun e => !survives now life e :=
  (sweepSlots_orderly now life p.slots p.entries h).2.2

theorem sweepSlots_keys_sublist (now : Instant) (life : Span) (slots : List (PendingKey × Instant))
    (entries : Table PendingKey PendingEntry) :
    (sweepSlots now life slots entries).2.entries.keys.Sublist entries.keys := by
  induction slots generalizing entries with
  | nil => exact .refl _
  | cons slot rest ih =>
    unfold sweepSlots
    split
    · exact .refl _
    · split
      · exact (ih _).trans (Table.keys_keep_sublist entries _)
      · exact ih entries

theorem countP_keys_sweep (p : Pending) (now : Instant) (life : Span) (P : PendingKey → Bool) :
    (p.sweep now life).2.entries.keys.countP P ≤ p.entries.keys.countP P :=
  (sweepSlots_keys_sublist now life p.slots p.entries).countP_le

end Pending

end DatagramStreams
