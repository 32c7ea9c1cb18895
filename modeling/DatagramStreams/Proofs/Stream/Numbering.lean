import DatagramStreams.Packet.Draft

/-! Payloads numbered without bound, and the packets that carry them with sixteen-bit sequences.
Main statements: a step of fewer than a half ring is read back from the two sequences, forward
(`isNew_after_add`) as well as backward (`not_isNew_after_add`).
-/

set_option autoImplicit false

namespace DatagramStreams

namespace Seq

def after (first : Seq) (n : Nat) : Seq := first + ofIndex n

@[simp] theorem after_zero (first : Seq) : first.after 0 = first := by
  simp [after, ofIndex]

theorem toNat_after (first : Seq) (n : Nat) : (first.after n).toNat = (first.toNat + n) % space := by
  simp only [after, ofIndex, UInt16.toNat_add, UInt16.toNat_ofNat', space]
  omega

theorem after_after (first : Seq) (m n : Nat) : (first.after m).after n = first.after (m + n) := by
  apply UInt16.toNat_inj.mp
  simp only [toNat_after, space]
  omega

theorem next_after (first : Seq) (n : Nat) : next (first.after n) = first.after (n + 1) := by
  have h : next (first.after n) = (first.after n).after 1 := rfl
  rw [h, after_after]

theorem distance_after_add (first : Seq) (n : Nat) {d : Nat} (h : d < space) :
    distance (first.after n) (first.after (n + d)) = d := by
  simp only [space] at h
  simp only [distance_eq, toNat_after, space]
  omega

theorem distance_after_back (first : Seq) (n : Nat) {d : Nat} (h0 : 0 < d) (h : d < space) :
    distance (first.after (n + d)) (first.after n) = space - d := by
  simp only [space] at h
  simp only [distance_eq, toNat_after, space]
  omega

theorem isNew_after_add (first : Seq) (n : Nat) {d : Nat} (h : d < halfSpace) :
    isNew (first.after n) (first.after (n + d)) = true := by
  simp only [halfSpace] at h
  rw [isNew, distance_after_add first n (by simp only [space]; omega), decide_eq_true_eq]
  exact h

theorem not_isNew_after_add (first : Seq) (n : Nat) {d : Nat} (h0 : 0 < d) (h : d ≤ halfSpace) :
    isNew (first.after (n + d)) (first.after n) = false := by
  simp only [halfSpace] at h
  rw [isNew, distance_after_back first n h0 (by simp only [space]; omega), decide_eq_false_iff_not]
  simp only [space, halfSpace]
  omega

theorem after_distance (a b : Seq) : a.after (distance a b) = b := by
  have ha := a.toNat_lt
  have hb := b.toNat_lt
  apply UInt16.toNat_inj.mp
  simp only [toNat_after, distance_eq, space] at *
  omega

theorem eq_of_distance_eq_zero {a b : Seq} (h : distance a b = 0) : a = b := by
  have hab := after_distance a b
  rwa [h, after_zero] at hab

/-- Numbers less than a ring apart are told apart by their sequences. -/
theorem after_inj {first : Seq} {m n : Nat} (h : first.after m = first.after n) (hm : m < n + space)
    (hn : n < m + space) : m = n := by
  have ht : (first.after m).toNat = (first.after n).toNat := by rw [h]
  simp only [toNat_after, space] at *
  omega

end Seq

namespace Packet

def numbered (first : Seq) : Nat → List Octets → List Packet
  | _, [] => []
  | n, x :: rest => carrying true (first.after n) x :: numbered first (n + 1) rest

theorem numbered_append (first : Seq) (n : Nat) (l r : List Octets) :
    numbered first n (l ++ r) = numbered first n l ++ numbered first (n + l.length) r := by
  induction l generalizing n with
  | nil => rfl
  | cons x rest ih =>
    simp only [List.cons_append, numbered, ih, List.length_cons]
    rw [show n + 1 + rest.length = n + (rest.length + 1) by omega]

theorem drop_numbered (first : Seq) (n k : Nat) (l : List Octets) :
    (numbered first n l).drop k = numbered first (n + k) (l.drop k) := by
  induction k generalizing n l with
  | zero => rfl
  | succ k ih =>
    cases l with
    | nil => rfl
    | cons x rest =>
      simp only [numbered, List.drop_succ_cons, ih]
      rw [show n + 1 + k = n + (k + 1) by omega]

theorem take_numbered (first : Seq) (n k : Nat) (l : List Octets) :
    (numbered first n l).take k = numbered first n (l.take k) := by
  induction k generalizing n l with
  | zero => rfl
  | succ k ih =>
    cases l with
    | nil => rfl
    | cons x rest => simp only [numbered, List.take_succ_cons, ih]

theorem getElem?_numbered (first : Seq) (n i : Nat) (l : List Octets) :
    (numbered first n l)[i]? = l[i]?.map (carrying true (first.after (n + i))) := by
  induction i generalizing n l with
  | zero => cases l <;> rfl
  | succ i ih =>
    cases l with
    | nil => rfl
    | cons x rest =>
      simp only [numbered, List.getElem?_cons_succ, ih]
      rw [show n + 1 + i = n + (i + 1) by omega]

def payloads (l : List Packet) : List Octets := l.filterMap payload

@[simp] theorem payloads_append (l r : List Packet) : payloads (l ++ r) = payloads l ++ payloads r :=
  List.filterMap_append

@[simp] theorem payloads_numbered (first : Seq) (n : Nat) (l : List Octets) :
    payloads (numbered first n l) = l := by
  induction l generalizing n with
  | nil => rfl
  | cons x rest ih =>
    have h := ih (n + 1)
    simpa [numbered, payloads, carrying] using h

theorem sequence_numbered (first : Seq) (n : Nat) (l : List Octets) :
    (numbered first n l).map sequence = (List.range l.length).map fun i => first.after (n + i) := by
  apply List.ext_getElem?
  intro i
  simp only [List.getElem?_map, getElem?_numbered, Option.map_map]
  by_cases h : i < l.length
  · simp [h, carrying]
  · simp [h]

end Packet

end DatagramStreams
