import DatagramStreams.Data.Binary64
import DatagramStreams.Time.RoundTrip
import Mathlib.Algebra.Order.Field.Rat
import Mathlib.Data.Rat.Floor
import Mathlib.Tactic.FieldSimp
import Mathlib.Tactic.Linarith
import Mathlib.Tactic.Ring

/-! The retransmission timeout in exact arithmetic. Mean and deviation stay within bounds that the longest sample
sets, so the timeout does, and samples that are all alike give a timeout that is known to the nanosecond.
Main statements: `Estimate.Within.fold`, `Estimate.steady_fold` and `RoundTrip.timeout_follows`.
-/

set_option autoImplicit false

namespace DatagramStreams

/-! ### Exact numbers -/

/-- The nearest integer, ties to even, of a number that is not negative. -/
def nearest (x : ℚ) : Nat := Binary64.roundEven x.num.toNat x.den

theorem nearest_near {x : ℚ} (h : 0 ≤ x) : 2 * (nearest x : ℚ) ≤ 2 * x + 1 ∧ 2 * x ≤ 2 * nearest x + 1 := by
  obtain ⟨hle, hge⟩ := @Binary64.roundEven_near x.num.toNat x.den x.den_pos
  have hden : (0 : ℚ) < x.den := by exact_mod_cast x.den_pos
  have hnum : (x.num.toNat : ℚ) = x * x.den := by
    rw [Rat.mul_den_eq_num]
    exact_mod_cast Int.toNat_of_nonneg (Rat.num_nonneg.mpr h)
  have hle' : 2 * ((nearest x : ℚ) * x.den) ≤ 2 * x.num.toNat + x.den := by exact_mod_cast hle
  have hge' : 2 * (x.num.toNat : ℚ) ≤ 2 * (nearest x * x.den) + x.den := by exact_mod_cast hge
  rw [hnum] at hle' hge'
  constructor
  · refine le_of_mul_le_mul_right ?_ hden
    linarith
  · refine le_of_mul_le_mul_right ?_ hden
    linarith

theorem le_nearest {x : ℚ} {n : Nat} (h : (n : ℚ) ≤ x) : n ≤ nearest x := by
  have hnear := (nearest_near (n.cast_nonneg.trans h)).2
  have hlt : (2 * n : ℚ) ≤ (2 * nearest x + 1 : Nat) := by push_cast; linarith
  have hle : 2 * n ≤ 2 * nearest x + 1 := by exact_mod_cast hlt
  omega

theorem two_mul_nearest_le {x : ℚ} {n : Nat} (h0 : 0 ≤ x) (h : 2 * x < n) : 2 * nearest x ≤ n := by
  have hnear := (nearest_near h0).1
  have hlt : ((2 * nearest x : Nat) : ℚ) < (n + 1 : Nat) := by push_cast; linarith
  have hlt' : 2 * nearest x < n + 1 := by exact_mod_cast hlt
  omega

instance : Measure ℚ where
  max a b := if a < b then b else a
  zero := 0
  eighth := 1 / 8
  quarter := 1 / 4
  four := 4
  magnitude x := |x|
  ofSpan s := s / Span.millisecond
  toSpan x := nearest (x * Span.millisecond)

def Span.inMillis (s : Span) : ℚ := Measure.ofSpan s

theorem Span.inMillis_mul (s : Span) : s.inMillis * Span.millisecond = s :=
  div_mul_cancel₀ _ (by norm_num [Span.millisecond])

theorem Span.inMillis_nonneg (s : Span) : 0 ≤ s.inMillis :=
  div_nonneg s.cast_nonneg (Nat.cast_nonneg _)

theorem Span.inMillis_le_iff {s : Span} {x : ℚ} : s.inMillis ≤ x ↔ (s : ℚ) ≤ x * Span.millisecond :=
  div_le_iff₀ (by norm_num [Span.millisecond])

namespace Estimate

variable {M x : ℚ} {e : Estimate ℚ}

theorem mean_fold (e : Estimate ℚ) (x : ℚ) : (e.fold x).mean = e.mean + 1 / 8 * (x - e.mean) := rfl

theorem deviation_fold (e : Estimate ℚ) (x : ℚ) :
    (e.fold x).deviation = e.deviation + 1 / 4 * (|x - (e.fold x).mean| - e.deviation) := rfl

theorem sub_mean_fold (e : Estimate ℚ) (x : ℚ) : x - (e.fold x).mean = 7 / 8 * (x - e.mean) := by
  rw [mean_fold]
  ring

theorem bound_eq (h : 0 ≤ e.mean + 4 * e.deviation) : e.bound = e.mean + 4 * e.deviation := by
  change (if e.mean + 4 * e.deviation < 0 then 0 else e.mean + 4 * e.deviation) = _
  exact if_neg (not_lt.mpr h)

/-! ### Bounds -/

structure Within (M : ℚ) (e : Estimate ℚ) : Prop where
  mean_nonneg : 0 ≤ e.mean
  mean_le : e.mean ≤ M
  deviation_nonneg : 0 ≤ e.deviation
  deviation_le : e.deviation ≤ 7 / 8 * M
  /-- The deviation starts at 0 and never gets all the way. -/
  deviation_lt : 0 < M → e.deviation < 7 / 8 * M

theorem within_initial (h : 0 ≤ M) : Within M initial :=
  ⟨le_rfl, h, le_rfl, mul_nonneg (by norm_num) h, fun hM => mul_pos (by norm_num) hM⟩

theorem Within.fold (h : Within M e) (h0 : 0 ≤ x) (hM : x ≤ M) : Within M (e.fold x) := by
  obtain ⟨hmean, hmean', hdev, hdev', hlt⟩ := h
  have habs : |x - e.mean| ≤ M := abs_le.mpr ⟨by linarith, by linarith⟩
  have hgap : |x - (e.fold x).mean| = 7 / 8 * |x - e.mean| := by
    rw [sub_mean_fold, abs_mul, abs_of_pos (by norm_num)]
  have hdeviation : (e.fold x).deviation = 3 / 4 * e.deviation + 7 / 32 * |x - e.mean| := by
    rw [deviation_fold, hgap]
    ring
  have hnonneg := abs_nonneg (x - e.mean)
  refine ⟨?_, ?_, ?_, ?_, fun hpos => ?_⟩
  · rw [mean_fold]
    linarith
  · rw [mean_fold]
    linarith
  · rw [hdeviation]
    linarith
  · rw [hdeviation]
    linarith
  · have := hlt hpos
    rw [hdeviation]
    linarith

theorem Within.foldl {l : List ℚ} (h : Within M e) (hl : ∀ x ∈ l, 0 ≤ x ∧ x ≤ M) :
    Within M (l.foldl Estimate.fold e) := by
  induction l generalizing e with
  | nil => exact h
  | cons x rest ih =>
    obtain ⟨h0, hM⟩ := hl x List.mem_cons_self
    exact ih (h.fold h0 hM) fun y hy => hl y (List.mem_cons_of_mem x hy)

theorem Within.nonneg (h : Within M e) : 0 ≤ e.mean + 4 * e.deviation := by
  have hmean := h.mean_nonneg
  have hdev := h.deviation_nonneg
  linarith

theorem Within.nearest_le {s : Span} (h : Within s.inMillis e) :
    2 * nearest (e.bound * Span.millisecond) ≤ 9 * s := by
  have hms : (0 : ℚ) < Span.millisecond := by norm_num [Span.millisecond]
  have hmul := s.inMillis_mul
  have hmean := h.mean_le
  rw [bound_eq h.nonneg]
  rcases s.inMillis_nonneg.eq_or_lt with h0 | hpos
  · have hzero : e.mean + 4 * e.deviation = 0 := by
      have := h.nonneg
      have := h.deviation_le
      linarith
    rw [hzero, zero_mul]
    exact Nat.zero_le _
  · have hlt : e.mean + 4 * e.deviation < 9 / 2 * s.inMillis := by
      have := h.deviation_lt hpos
      linarith
    refine two_mul_nearest_le (mul_nonneg h.nonneg hms.le) ?_
    have := mul_lt_mul_of_pos_right hlt hms
    push_cast
    linarith

/-! ### Equal samples -/

def steady (s : ℚ) (n : Nat) : Estimate ℚ where
  mean := s * (1 - (7 / 8) ^ n)
  deviation := 7 / 4 * s * ((7 / 8) ^ n - (3 / 4) ^ n)

theorem steady_zero (s : ℚ) : steady s 0 = initial := by
  simp [steady, initial, Measure.zero]

theorem steady_fold {s : ℚ} (h : 0 ≤ s) (n : Nat) : (steady s n).fold s = steady s (n + 1) := by
  have hgap : s - ((steady s n).fold s).mean = s * (7 / 8) ^ (n + 1) := by
    rw [sub_mean_fold, steady]
    ring
  have hmean : ((steady s n).fold s).mean = (steady s (n + 1)).mean := by
    rw [mean_fold, steady, steady]
    ring
  have hdeviation : ((steady s n).fold s).deviation = (steady s (n + 1)).deviation := by
    rw [deviation_fold, hgap, abs_of_nonneg (mul_nonneg h (by positivity)), steady, steady]
    ring
  exact congrArg₂ Estimate.mk hmean hdeviation

theorem foldl_replicate {s : ℚ} (h : 0 ≤ s) (n : Nat) : (List.replicate n s).foldl fold initial = steady s n := by
  induction n with
  | zero => exact (steady_zero s).symm
  | succ n ih => rw [List.replicate_succ', List.foldl_append, ih, List.foldl_cons, List.foldl_nil, steady_fold h]

/-- How many times `s` the timeout is after `n` samples of `s`. -/
def factor (n : Nat) : ℚ := 1 + 6 * (7 / 8) ^ n - 7 * (3 / 4) ^ n

/-- The deviation makes up for what the mean still lacks, from the first sample on. -/
theorem one_le_factor {n : Nat} (h : n ≠ 0) : 1 ≤ factor n := by
  obtain ⟨k, rfl⟩ := Nat.exists_eq_succ_of_ne_zero h
  have hpow : (3 / 4 : ℚ) ^ k ≤ (7 / 8) ^ k := pow_le_pow_left₀ (by norm_num) (by norm_num) k
  rw [factor, pow_succ, pow_succ]
  linarith

theorem steady_sum (s : ℚ) (n : Nat) : (steady s n).mean + 4 * (steady s n).deviation = s * factor n := by
  rw [steady, factor]
  ring

end Estimate

namespace RoundTrip

variable {M : ℚ} {s fallback : Span} {samples : List Span} {n : Nat}

def after (fallback : Span) (samples : List Span) : RoundTrip ℚ := samples.foldl update { fallback }

theorem estimate_foldl (r : RoundTrip ℚ) (samples : List Span) :
    (samples.foldl update r).estimate = (samples.map Span.inMillis).foldl Estimate.fold r.estimate := by
  induction samples generalizing r with
  | nil => rfl
  | cons x rest ih => exact ih (r.update x)

theorem hasSample_foldl {r : RoundTrip ℚ} (h : r.hasSample = true) (samples : List Span) :
    (samples.foldl update r).hasSample = true := by
  induction samples generalizing r with
  | nil => exact h
  | cons x rest ih => exact ih rfl

theorem hasSample_after (fallback : Span) (h : samples ≠ []) : (after fallback samples).hasSample = true := by
  cases samples with
  | nil => exact absurd rfl h
  | cons x rest => exact hasSample_foldl rfl rest

theorem timeout_after (fallback : Span) (h : samples ≠ []) : (after fallback samples).timeout =
    max (nearest ((after fallback samples).estimate.bound * Span.millisecond)) minimum :=
  if_pos (hasSample_after fallback h)

theorem within_after (fallback : Span) {M : ℚ} (h0 : 0 ≤ M) (hM : ∀ x ∈ samples, x.inMillis ≤ M) :
    Estimate.Within M (after fallback samples).estimate := by
  rw [after, estimate_foldl]
  have hsamples : ∀ x ∈ samples.map Span.inMillis, 0 ≤ x ∧ x ≤ M := by
    intro x hx
    obtain ⟨s, hs, rfl⟩ := List.mem_map.mp hx
    exact ⟨s.inMillis_nonneg, hM s hs⟩
  exact (Estimate.within_initial h0).foldl hsamples

theorem estimate_steady (fallback : Span) (h : ∀ x ∈ samples, x = s) :
    (after fallback samples).estimate = Estimate.steady s.inMillis samples.length := by
  have hmap : samples.map Span.inMillis = List.replicate samples.length s.inMillis := by
    rw [List.eq_replicate_of_mem h, List.map_replicate, List.length_replicate]
  rw [after, estimate_foldl, hmap]
  exact Estimate.foldl_replicate s.inMillis_nonneg samples.length

structure Bounded (M : ℚ) (r : RoundTrip ℚ) : Prop where
  mean : 0 ≤ r.estimate.mean ∧ r.estimate.mean ≤ M
  deviation : 0 ≤ r.estimate.deviation ∧ r.estimate.deviation ≤ 7 / 8 * M
  converted : 0 ≤ r.estimate.mean + 4 * r.estimate.deviation ∧
    r.estimate.bound = r.estimate.mean + 4 * r.estimate.deviation
  atLeast : minimum ≤ r.timeout
  atMost : r.timeout.inMillis ≤ max 10 (9 / 2 * M)

structure Steady (s : Span) (n : Nat) (r : RoundTrip ℚ) : Prop where
  bound : r.estimate.bound = s.inMillis * (1 + 6 * (7 / 8) ^ n - 7 * (3 / 4) ^ n)
  timeout : r.timeout = max (nearest (s * (1 + 6 * (7 / 8) ^ n - 7 * (3 / 4) ^ n))) minimum
  notShorter : s ≤ r.timeout

theorem bounded_after (fallback : Span) (hne : samples ≠ []) (hM : ∀ x ∈ samples, x.inMillis ≤ M) :
    Bounded M (after fallback samples) := by
  -- Samples are whole nanoseconds, and so is the longest that `M` allows.
  have hlongest : ∀ x ∈ samples, x.inMillis ≤ Span.inMillis ⌊M * Span.millisecond⌋₊ := by
    intro x hx
    have hle : x ≤ ⌊M * Span.millisecond⌋₊ := Nat.le_floor (Span.inMillis_le_iff.mp (hM x hx))
    rw [Span.inMillis_le_iff, Span.inMillis_mul]
    exact_mod_cast hle
  obtain ⟨x, hx⟩ := List.exists_mem_of_ne_nil samples hne
  have hM0 : 0 ≤ M := x.inMillis_nonneg.trans (hM x hx)
  have hwithin := within_after fallback hM0 hM
  have hnearest := (within_after fallback (Span.inMillis_nonneg _) hlongest).nearest_le
  refine ⟨⟨hwithin.mean_nonneg, hwithin.mean_le⟩, ⟨hwithin.deviation_nonneg, hwithin.deviation_le⟩,
    ⟨hwithin.nonneg, Estimate.bound_eq hwithin.nonneg⟩, ?_, ?_⟩
  · rw [timeout_after fallback hne]
    exact le_max_right _ _
  · have hms : (0 : ℚ) ≤ Span.millisecond := Nat.cast_nonneg _
    have hfloor := Nat.floor_le (mul_nonneg hM0 hms)
    have hcast : (2 * nearest ((after fallback samples).estimate.bound * Span.millisecond) : ℚ) ≤
        9 * ⌊M * Span.millisecond⌋₊ := by exact_mod_cast hnearest
    rw [timeout_after fallback hne, Span.inMillis_le_iff, Nat.cast_max, max_mul_of_nonneg _ _ hms]
    refine max_le (le_max_of_le_right (by linarith)) (le_max_of_le_left ?_)
    norm_num [minimum, Span.milliseconds]

theorem steady_after (fallback : Span) (hne : samples ≠ []) (hs : ∀ x ∈ samples, x = s) :
    Steady s samples.length (after fallback samples) := by
  have hfactor := Estimate.one_le_factor (List.length_pos_iff.mpr hne).ne'
  have hsum := Estimate.steady_sum s.inMillis samples.length
  have hbound : (after fallback samples).estimate.bound = s.inMillis * Estimate.factor samples.length := by
    rw [estimate_steady fallback hs, Estimate.bound_eq, hsum]
    rw [hsum]
    exact mul_nonneg s.inMillis_nonneg (zero_le_one.trans hfactor)
  have htimeout : (after fallback samples).timeout =
      max (nearest (s * Estimate.factor samples.length)) minimum := by
    rw [timeout_after fallback hne, hbound, mul_right_comm, Span.inMillis_mul]
  refine ⟨hbound, htimeout, ?_⟩
  rw [htimeout]
  exact le_max_of_le_left (le_nearest (le_mul_of_one_le_right s.cast_nonneg hfactor))

/-- However many samples there are, and whatever the timeout was before them, the timeout stays within bounds that
the longest sets. Where they are all alike it is known, and is never shorter than they are. -/
theorem timeout_follows (fallback : Span) (hne : samples ≠ []) :
    (∀ M : ℚ, (∀ x ∈ samples, x.inMillis ≤ M) → Bounded M (after fallback samples)) ∧
      ∀ s : Span, (∀ x ∈ samples, x = s) → Steady s samples.length (after fallback samples) :=
  ⟨fun _ hM => bounded_after fallback hne hM, fun _ hs => steady_after fallback hne hs⟩

/-- The first sample gives a timeout as long as itself, and a second one like it a longer timeout. -/
theorem timeout_follows_second :
    let sample := Span.milliseconds 80
    let second := [sample, sample]
    (∀ x ∈ second, x.inMillis ≤ 80) ∧ second ≠ [] ∧ Bounded 80 (after (Span.milliseconds 500) second) ∧
      (after (Span.milliseconds 500) [sample]).timeout = sample ∧
      (after (Span.milliseconds 500) second).timeout = Span.microsecond * 132500 := by
  intro sample second
  have hall : ∀ x ∈ second, x.inMillis ≤ 80 := by
    intro x hx
    obtain rfl : x = sample := by simpa [second] using hx
    rw [Span.inMillis_le_iff]
    norm_num [sample, Span.milliseconds]
  have hne : second ≠ [] := by simp [second]
  obtain ⟨hbounded, hsettled⟩ := timeout_follows (Span.milliseconds 500) hne
  have hone : [sample] ≠ [] := by simp
  have hfirst := (timeout_follows (Span.milliseconds 500) hone).2 sample (by simp)
  have hsecond := hsettled sample (by simp [second])
  refine ⟨hall, hne, hbounded 80 hall, ?_, ?_⟩
  · rw [hfirst.timeout]
    decide +kernel
  · rw [hsecond.timeout]
    decide +kernel

end RoundTrip

end DatagramStreams
