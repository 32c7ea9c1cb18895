/-! Finite maps kept as association lists in which no key occurs twice. `put` overwrites in place, so
entries stay in order of first insertion. Main statements: what `find?` sees after each operation.
-/

set_option autoImplicit false

namespace DatagramStreams

structure Table (κ α : Type) where
  entries : List (κ × α) := []
  unique : (entries.map Prod.fst).Nodup := by simp

namespace Table

variable {κ α : Type}

theorem nodup_filter {l : List (κ × α)} (h : (l.map Prod.fst).Nodup) (p : κ × α → Bool) :
    ((l.filter p).map Prod.fst).Nodup :=
  h.sublist (List.filter_sublist.map Prod.fst)

variable [DecidableEq κ]

def empty : Table κ α := {}

def lookup (k : κ) : List (κ × α) → Option α
  | [] => none
  | (k', v) :: r => if k' = k then some v else lookup k r

def store (k : κ) (v : α) : List (κ × α) → List (κ × α)
  | [] => [(k, v)]
  | (k', v') :: r => if k' = k then (k, v) :: r else (k', v') :: store k v r

theorem mem_keys_store {k x : κ} {v : α} {l : List (κ × α)}
    (h : x ∈ (store k v l).map Prod.fst) : x = k ∨ x ∈ l.map Prod.fst := by
  induction l with
  | nil => simpa [store] using h
  | cons e r ih =>
    obtain ⟨k', v'⟩ := e
    by_cases hk : k' = k
    · simp only [store, hk, if_pos, List.map_cons, List.mem_cons] at h ⊢
      exact h.imp id .inr
    · simp only [store, hk, if_neg, not_false_eq_true, List.map_cons, List.mem_cons] at h ⊢
      rcases h with h | h
      · exact .inr (.inl h)
      · exact (ih h).imp id .inr

theorem nodup_store {k : κ} {v : α} {l : List (κ × α)} (h : (l.map Prod.fst).Nodup) :
    ((store k v l).map Prod.fst).Nodup := by
  induction l with
  | nil => simp [store]
  | cons e r ih =>
    obtain ⟨k', v'⟩ := e
    simp only [List.map_cons, List.nodup_cons] at h
    by_cases hk : k' = k
    · subst hk; simpa [store] using h
    · simp only [store, hk, if_neg, not_false_eq_true, List.map_cons, List.nodup_cons]
      refine ⟨fun hm => ?_, ih h.2⟩
      exact (mem_keys_store hm).elim hk h.1

def find? (t : Table κ α) (k : κ) : Option α := lookup k t.entries

def contains (t : Table κ α) (k : κ) : Bool := (t.find? k).isSome

def put (t : Table κ α) (k : κ) (v : α) : Table κ α := ⟨store k v t.entries, nodup_store t.unique⟩

def keep (t : Table κ α) (p : κ → α → Bool) : Table κ α :=
  ⟨t.entries.filter fun e => p e.1 e.2, nodup_filter t.unique _⟩

def erase (t : Table κ α) (k : κ) : Table κ α := t.keep fun k' _ => k' ≠ k

def size (t : Table κ α) : Nat := t.entries.length

def keys (t : Table κ α) : List κ := t.entries.map Prod.fst

def values (t : Table κ α) : List α := t.entries.map Prod.snd

theorem lookup_store_self (k : κ) (v : α) (l : List (κ × α)) : lookup k (store k v l) = some v := by
  induction l with
  | nil => simp [store, lookup]
  | cons e r ih =>
    obtain ⟨k', v'⟩ := e
    by_cases h : k' = k <;> simp [store, lookup, h, ih]

theorem lookup_store_ne {k j : κ} (h : j ≠ k) (v : α) (l : List (κ × α)) :
    lookup j (store k v l) = lookup j l := by
  induction l with
  | nil => simp [store, lookup, Ne.symm h]
  | cons e r ih =>
    obtain ⟨k', v'⟩ := e
    by_cases hk : k' = k
    · subst hk; simp [store, lookup, Ne.symm h]
    · by_cases hj : k' = j
      · subst hj; simp [store, lookup, hk]
      · simp [store, lookup, hk, hj, ih]

theorem lookup_eq_none {k : κ} {l : List (κ × α)} (h : k ∉ l.map Prod.fst) : lookup k l = none := by
  induction l with
  | nil => rfl
  | cons e r ih =>
    obtain ⟨k', v'⟩ := e
    simp only [List.map_cons, List.mem_cons, not_or] at h
    rw [lookup, if_neg (Ne.symm h.1), ih h.2]

theorem lookup_filter {l : List (κ × α)} (hl : (l.map Prod.fst).Nodup) (p : κ → α → Bool) (k : κ) :
    lookup k (l.filter fun e => p e.1 e.2) = (lookup k l).filter (p k) := by
  induction l with
  | nil => rfl
  | cons e r ih =>
    obtain ⟨k', v⟩ := e
    simp only [List.map_cons, List.nodup_cons] at hl
    by_cases hk : k' = k
    · subst hk
      have hr : lookup k' (r.filter fun e => p e.1 e.2) = none := by
        rw [ih hl.2, lookup_eq_none hl.1]; rfl
      cases hp : p k' v <;> simp [lookup, Option.filter, hp, hr]
    · cases hp : p k' v <;> simp [lookup, hp, hk, ih hl.2]

theorem mem_of_lookup {k : κ} {v : α} {l : List (κ × α)} (h : lookup k l = some v) : (k, v) ∈ l := by
  induction l with
  | nil => simp [lookup] at h
  | cons e r ih =>
    obtain ⟨k', v'⟩ := e
    by_cases hk : k' = k
    · simp only [lookup, hk, if_pos, Option.some.injEq] at h
      simp [hk, h]
    · simp only [lookup, hk, if_neg, not_false_eq_true] at h
      exact List.mem_cons_of_mem _ (ih h)

@[simp] theorem find?_empty (k : κ) : (empty : Table κ α).find? k = none := rfl

@[simp] theorem find?_put_self (t : Table κ α) (k : κ) (v : α) : (t.put k v).find? k = some v :=
  lookup_store_self k v t.entries

theorem find?_put_ne (t : Table κ α) {k j : κ} (h : j ≠ k) (v : α) :
    (t.put k v).find? j = t.find? j :=
  lookup_store_ne h v t.entries

theorem find?_keep (t : Table κ α) (p : κ → α → Bool) (k : κ) :
    (t.keep p).find? k = (t.find? k).filter (p k) :=
  lookup_filter t.unique p k

@[simp] theorem find?_erase_self (t : Table κ α) (k : κ) : (t.erase k).find? k = none := by
  cases h : t.find? k <;> simp [erase, find?_keep, h]

theorem find?_erase_ne (t : Table κ α) {k j : κ} (h : j ≠ k) : (t.erase k).find? j = t.find? j := by
  cases hj : t.find? j <;> simp [erase, find?_keep, hj, h]

theorem mem_entries_of_find? {t : Table κ α} {k : κ} {v : α} (h : t.find? k = some v) :
    (k, v) ∈ t.entries :=
  mem_of_lookup h

theorem mem_values_of_find? {t : Table κ α} {k : κ} {v : α} (h : t.find? k = some v) : v ∈ t.values :=
  List.mem_map_of_mem (mem_entries_of_find? h)

theorem lookup_of_mem {k : κ} {v : α} {l : List (κ × α)} (hl : (l.map Prod.fst).Nodup)
    (h : (k, v) ∈ l) : lookup k l = some v := by
  induction l with
  | nil => simp at h
  | cons e r ih =>
    obtain ⟨k', v'⟩ := e
    simp only [List.map_cons, List.nodup_cons] at hl
    rcases List.mem_cons.mp h with h | h
    · cases h
      simp [lookup]
    · have hk : k' ≠ k := fun he => hl.1 (he ▸ List.mem_map_of_mem (f := Prod.fst) h)
      simp [lookup, hk, ih hl.2 h]

theorem find?_of_mem_entries {t : Table κ α} {k : κ} {v : α} (h : (k, v) ∈ t.entries) :
    t.find? k = some v :=
  lookup_of_mem t.unique h

theorem exists_find?_of_mem_values {t : Table κ α} {v : α} (h : v ∈ t.values) :
    ∃ k, t.find? k = some v := by
  obtain ⟨⟨k, v⟩, he, rfl⟩ := List.mem_map.mp h
  exact ⟨k, find?_of_mem_entries he⟩

theorem countP_keys_store (k : κ) (v : α) (P : κ → Bool) (l : List (κ × α)) :
    ((store k v l).map Prod.fst).countP P ≤ (l.map Prod.fst).countP P + if P k then 1 else 0 := by
  induction l with
  | nil => simp [store, List.countP_cons]
  | cons e r ih =>
    obtain ⟨k', v'⟩ := e
    by_cases hk : k' = k
    · subst hk
      simp [store]
    · simp only [store, hk, if_neg, not_false_eq_true, List.map_cons, List.countP_cons]
      omega

theorem countP_keys_put (t : Table κ α) (k : κ) (v : α) (P : κ → Bool) :
    (t.put k v).keys.countP P ≤ t.keys.countP P + if P k then 1 else 0 :=
  countP_keys_store k v P t.entries

omit [DecidableEq κ] in
theorem keys_keep_sublist (t : Table κ α) (p : κ → α → Bool) : (t.keep p).keys.Sublist t.keys :=
  List.filter_sublist.map Prod.fst

theorem perm_of_lookup {k : κ} {v : α} {l : List (κ × α)} (hl : (l.map Prod.fst).Nodup)
    (h : lookup k l = some v) : l.Perm ((k, v) :: l.filter fun e => decide (e.1 ≠ k)) := by
  induction l with
  | nil => simp [lookup] at h
  | cons e r ih =>
    obtain ⟨k', v'⟩ := e
    simp only [List.map_cons, List.nodup_cons] at hl
    by_cases hk : k' = k
    · subst hk
      obtain rfl : v' = v := by simpa [lookup] using h
      have hr : r.filter (fun e => decide (e.1 ≠ k')) = r := by
        refine List.filter_eq_self.mpr fun e he => decide_eq_true fun hke => hl.1 ?_
        exact hke ▸ List.mem_map_of_mem he
      rw [List.filter_cons_of_neg (by simp), hr]
    · simp only [lookup, hk, if_neg, not_false_eq_true] at h
      simpa [hk] using ((ih hl.2 h).cons (k', v')).trans (.swap ..)

theorem perm_erase {t : Table κ α} {k : κ} {v : α} (h : t.find? k = some v) :
    t.entries.Perm ((k, v) :: (t.erase k).entries) :=
  perm_of_lookup t.unique h

theorem countP_keys_erase {t : Table κ α} {k : κ} {v : α} (h : t.find? k = some v) (P : κ → Bool) :
    ((t.erase k).keys.countP P + if P k then 1 else 0) = t.keys.countP P := by
  rw [keys, keys, ((perm_erase h).map Prod.fst).countP_eq, List.map_cons, List.countP_cons]

theorem countP_values_erase {t : Table κ α} {k : κ} {v : α} (h : t.find? k = some v) (P : α → Bool) :
    ((t.erase k).values.countP P + if P v then 1 else 0) = t.values.countP P := by
  rw [values, values, ((perm_erase h).map Prod.snd).countP_eq, List.map_cons, List.countP_cons]

end Table

end DatagramStreams
