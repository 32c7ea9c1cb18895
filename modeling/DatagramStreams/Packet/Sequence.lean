/-! Sixteen-bit sequence numbers on a ring of 65536. A number counts as new when it lies in the
half ring that starts at the expected one.
-/

set_option autoImplicit false

namespace DatagramStreams

abbrev Seq := UInt16

namespace Seq

def space : Nat := 65536

def halfSpace : Nat := 32768

def next (s : Seq) : Seq := s + 1

def distance (a b : Seq) : Nat := (b - a).toNat

def isNew (expected s : Seq) : Bool := distance expected s < halfSpace

def ofIndex (n : Nat) : Seq := UInt16.ofNat n

@[simp] theorem distance_self (a : Seq) : distance a a = 0 := by simp [distance]

theorem distance_eq (a b : Seq) : distance a b = (space + b.toNat - a.toNat) % space := by
  have ha := a.toNat_lt
  have hb := b.toNat_lt
  simp only [distance, space, UInt16.toNat_sub]
  omega

theorem toNat_next (s : Seq) : (next s).toNat = (s.toNat + 1) % space := by
  simp [next, space, UInt16.toNat_add]

theorem next_ne (s : Seq) : next s ≠ s := by
  intro h
  have hs := s.toNat_lt
  have hn := toNat_next s
  rw [h, space] at hn
  omega

theorem next_ne_of_isNew {expected s : Seq} (h : isNew expected s = true) : next s ≠ expected := by
  rintro rfl
  have hs := s.toNat_lt
  have hn := toNat_next s
  simp only [isNew, distance_eq, space, halfSpace, decide_eq_true_eq] at h hn
  omega

end Seq

end DatagramStreams
