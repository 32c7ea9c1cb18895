import DatagramStreams.Data.Decimal

/-! Binary64 numbers in exact integer arithmetic. The word of a magnitude holds its exponent above 52
bits of fraction; a finite one is an integer times a power of two. A decimal rounds to the nearest
word, and a word reads as the shortest decimal that rounds to it. Main statements: `roundEven` is off
by half a unit at most, and every candidate for the shortest decimal rounds to its word.
-/

set_option autoImplicit false

namespace DatagramStreams

structure Binary64 where
  negative : Bool := false
  word : Nat := 0
  deriving DecidableEq, Repr

namespace Binary64

/-- Nearest integer to `num / den`, ties to even. -/
def roundEven (num den : Nat) : Nat :=
  let q := num / den
  let r := num % den
  if 2 * r < den then q
  else if den < 2 * r then q + 1
  else q + q % 2

theorem roundEven_near {num den : Nat} (h : 0 < den) :
    2 * (roundEven num den * den) ≤ 2 * num + den ∧
      2 * num ≤ 2 * (roundEven num den * den) + den := by
  have hd := Nat.div_add_mod' num den
  have hm := Nat.mod_lt num h
  unfold roundEven
  have hq := Nat.mod_two_eq_zero_or_one (num / den)
  simp only
  split
  · omega
  · split
    · rw [Nat.add_mul]; omega
    · rcases hq with hq | hq <;> rw [hq] <;> simp only [Nat.add_zero, Nat.add_mul] <;> omega

/-! ### Words -/

-- Not `^`: its instance is another one where more algebra is imported.
def twoTo (k : Nat) : Nat := Nat.pow 2 k

def tenTo (k : Nat) : Nat := Nat.pow 10 k

def fraction (word : Nat) : Nat := word % twoTo 52

def biasedExponent (word : Nat) : Nat := word / twoTo 52 % twoTo 11

def significand (word : Nat) : Nat :=
  if biasedExponent word = 0 then fraction word else twoTo 52 + fraction word

def exponent (word : Nat) : Nat := max 1 (biasedExponent word)

def infinity : Nat := 2047 * twoTo 52

def scaled (scale word : Nat) : Nat :=
  if 1075 ≤ exponent word then significand word * twoTo (exponent word - 1075) * scale
  else roundEven (significand word * scale) (twoTo (1075 - exponent word))

def toRat (x : Binary64) : Rat :=
  let magnitude : Rat := significand x.word * 2 ^ (exponent x.word - 1075) /
    2 ^ (1075 - exponent x.word)
  if x.negative then -magnitude else magnitude

/-! ### From decimals -/

def reaches (num den : Nat) (k : Int) : Bool := den * twoTo k.toNat ≤ num * twoTo (-k).toNat

def exponentFor (num den : Nat) : Nat :=
  let k : Int := (num.log2 : Int) - den.log2
  ((if reaches num den k then k else k - 1) + 1023).toNat.max 1

/-- The word nearest to `num / den`. A significand that rounds up to 54 bits carries over into the
exponent. -/
def nearestWord (num den : Nat) : Nat :=
  if num = 0 then 0
  else
    let e := exponentFor num den
    min infinity
      ((e - 1) * twoTo 52 + roundEven (num * twoTo (1075 - e)) (den * twoTo (e - 1075)))

def ofDecimal (d : Decimal) : Binary64 where
  negative := d.negative
  word := nearestWord (d.digits * tenTo (-d.places).toNat) (tenTo d.places.toNat)

/-! ### To decimals -/

/-- Twice the distance down to the next smaller value, in quarters of the unit of the significand. It
is halved where the exponent steps. -/
def gapBelow (word : Nat) : Nat := if fraction word = 0 && 1 < biasedExponent word then 1 else 2

def roundsTo (word : Nat) (places : Int) (n : Nat) : Bool :=
  let quarter := twoTo (exponent word - 1077) * tenTo places.toNat
  let x := n * tenTo (-places).toNat * twoTo (1077 - exponent word)
  let m := significand word
  let low := (4 * m - gapBelow word) * quarter
  let high := (4 * m + 2) * quarter
  if m % 2 = 0 then low ≤ x && x ≤ high else low < x && x < high

def quotientAt (word : Nat) (places : Int) : Nat × Nat :=
  (significand word * twoTo (exponent word - 1075) * tenTo places.toNat,
    tenTo (-places).toNat * twoTo (1075 - exponent word))

/-- The nearest integer at these places that rounds to the word; the greater one of two. -/
def candidate? (word : Nat) (places : Int) : Option Nat :=
  let (num, den) := quotientAt word places
  let n := num / den
  match roundsTo word places n, roundsTo word places (n + 1) with
  | true, true => some (if 2 * (num % den) < den then n else n + 1)
  | true, false => some n
  | false, true => some (n + 1)
  | false, false => none

theorem roundsTo_of_candidate? {word : Nat} {places : Int} {n : Nat}
    (h : candidate? word places = some n) : roundsTo word places n = true := by
  simp only [candidate?] at h
  split at h
  · rename_i h₀ h₁
    simp only [Option.some.injEq] at h
    split at h <;> subst h <;> assumption
  · rename_i h₀ _
    exact Option.some.inj h ▸ h₀
  · rename_i _ h₁
    exact Option.some.inj h ▸ h₁
  · simp at h

def everyPlace : List Int := (List.range 660).map fun (i : Nat) => (i : Int) - 310

def shortest (word : Nat) : Nat × Int :=
  match everyPlace.findSome? fun places => (candidate? word places).map fun n => (n, places) with
  | some found => found
  | none =>
    (significand word * twoTo (exponent word - 1075) * Nat.pow 5 (1075 - exponent word),
      (1075 - exponent word : Nat))

def toDecimal (x : Binary64) : Decimal :=
  if x.word = 0 then { negative := x.negative }
  else
    let (digits, places) := shortest x.word
    { negative := x.negative, digits, places }

def text (x : Binary64) : String :=
  if infinity ≤ x.word then (if x.negative then "-inf" else "inf") else x.toDecimal.text

end Binary64

end DatagramStreams
