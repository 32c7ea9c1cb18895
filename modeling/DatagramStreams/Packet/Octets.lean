/-! Octet strings and the big-endian layout of a sixteen-bit word.
-/

set_option autoImplicit false

namespace DatagramStreams

abbrev Octets := List UInt8

def high (w : UInt16) : UInt8 := UInt8.ofNat (w.toNat / 256)

def low (w : UInt16) : UInt8 := UInt8.ofNat w.toNat

def word (hi lo : UInt8) : UInt16 := UInt16.ofNat (hi.toNat * 256 + lo.toNat)

theorem word_high_low (w : UInt16) : word (high w) (low w) = w := by
  have hw := w.toNat_lt
  apply UInt16.toNat_inj.mp
  simp only [word, high, low, UInt16.toNat_ofNat', UInt8.toNat_ofNat']
  omega

theorem high_word (hi lo : UInt8) : high (word hi lo) = hi := by
  have hh := hi.toNat_lt
  have hl := lo.toNat_lt
  apply UInt8.toNat_inj.mp
  simp only [word, high, UInt16.toNat_ofNat', UInt8.toNat_ofNat']
  omega

theorem low_word (hi lo : UInt8) : low (word hi lo) = lo := by
  have hh := hi.toNat_lt
  have hl := lo.toNat_lt
  apply UInt8.toNat_inj.mp
  simp only [word, low, UInt16.toNat_ofNat', UInt8.toNat_ofNat']
  omega

def counter (n : Nat) : Octets :=
  [n / 16777216, n / 65536, n / 256, n].map UInt8.ofNat

end DatagramStreams
