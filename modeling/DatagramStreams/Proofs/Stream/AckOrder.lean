import DatagramStreams.Proofs.Stream.Outstanding

/-! Cumulative ACKs that are heard at one instant. Each is judged by a base that the ones before it may have
moved, and yet only the one that reaches furthest counts.
Main statement: `Grown.acknowledgeAll_eq`.
-/

set_option autoImplicit false

namespace DatagramStreams

namespace Seq

def shift (a : Seq) (d : Int) : Seq := a + UInt16.ofInt d

theorem toNat_shift (a : Seq) (d : Int) : ((a.shift d).toNat : Int) = (a.toNat + d) % space := by
  simp only [shift, UInt16.ofInt, UInt16.toNat_add, UInt16.toNat_ofNat', space]
  omega

theorem distance_shift (a : Seq) (k : Nat) (d : Int) :
    (distance (a.after k) (a.shift d) : Int) = (d - k) % space := by
  have hd := toNat_shift a d
  simp only [distance_eq, toNat_after, space] at *
  omega

theorem shift_natCast (a : Seq) (k : Nat) : a.shift k = a.after k := by
  apply UInt16.toNat_inj.mp
  have hk := toNat_shift a k
  simp only [toNat_after, space] at *
  omega

end Seq

namespace SendWindow

/-- Hears ACKs one after the other at one instant and adds up what they remove, until one is refused. -/
def acknowledgeAll (now : Instant) : List Seq → SendWindow → Except ConnectionError Nat × SendWindow
  | [], w => (.ok 0, w)
  | ack :: rest, w =>
    match w.acknowledge ack now with
    | (.error e, w) => (.error e, w)
    | (.ok n, w) =>
      let (more, w) := acknowledgeAll now rest w
      (more.map (n + ·), w)

def advanced (w : SendWindow) (k : Nat) (now : Instant) : SendWindow :=
  if k = 0 then w else w.remove k now

variable {first : Seq} {n k : Nat} {v w w' w'' : SendWindow} {now : Instant} {d : Int}

theorem Agrees.trans (h : w.Agrees w') (h' : w'.Agrees w'') : w.Agrees w'' := by
  unfold Agrees at *
  rw [h, h']

theorem Agrees.symm (h : w.Agrees w') : w'.Agrees w := by
  unfold Agrees at *
  rw [h]

theorem Agrees.remove (h : w.Agrees w') (k : Nat) (now : Instant) : (w.remove k now).Agrees (w'.remove k now) := by
  unfold Agrees at *
  rw [h]
  rfl

/-- Packets that go in two steps at one instant might as well have gone in one. -/
theorem remove_remove (w : SendWindow) (j k : Nat) (now : Instant) :
    (w.remove j now).remove k now = w.remove (j + k) now := by
  have hbase : w.base + UInt16.ofNat j + UInt16.ofNat k = w.base + UInt16.ofNat (j + k) :=
    Seq.after_after w.base j k
  have hsize : min (min (w.size + j) maxSize + k) maxSize = min (w.size + (j + k)) maxSize := by omega
  have hsent : (w.sent.drop j).drop k = w.sent.drop (j + k) := List.drop_drop
  have hsamples : w.sent.take (j + k) = w.sent.take j ++ (w.sent.drop j).take k := List.take_add
  simp only [remove, hbase, hsize, hsent, hsamples, List.foldl_append]

theorem remove_advanced (w : SendWindow) (j k : Nat) (now : Instant) (hk : 0 < k) :
    (w.advanced j now).remove k now = w.advanced (j + k) now := by
  cases j with
  | zero => simp [advanced, Nat.ne_of_gt hk]
  | succ j => simp [advanced, remove_remove]

theorem base_advanced (w : SendWindow) (k : Nat) (now : Instant) :
    (w.advanced k now).base = w.base.after k := by
  unfold advanced
  split
  · rename_i hk
    rw [hk, Seq.after_zero]
  · rfl

theorem inFlight_advanced (w : SendWindow) (k : Nat) (now : Instant) :
    (w.advanced k now).inFlight = w.inFlight - k := by
  unfold advanced
  split
  · rename_i hk
    rw [hk, Nat.sub_zero]
  · simp [remove, inFlight]

theorem Agrees.acknowledge (hv : v.Agrees (w.advanced k now)) (hk : k ≤ w.inFlight)
    (hmost : w.inFlight ≤ maxSize) (hlow : -32668 ≤ d) (hd : d ≤ w.inFlight) :
    ∃ v', v.acknowledge (w.base.shift d) now = (.ok (d.toNat - k), v') ∧
      v'.Agrees (w.advanced (max k d.toNat) now) := by
  have hbase : v.base = w.base.after k := by
    rw [hv]
    exact base_advanced w k now
  have hflight : v.inFlight = w.inFlight - k := by
    rw [hv]
    exact inFlight_advanced w k now
  have hdist : (Seq.distance v.base (w.base.shift d) : Int) = (d - k) % Seq.space := by
    rw [hbase]
    exact Seq.distance_shift w.base k d
  simp only [maxSize, Seq.space] at hmost hdist
  -- Behind what has been acknowledged already, right at it, or ahead of it.
  rcases Int.lt_trichotomy d k with hlt | heq | hgt
  · have hold : Seq.isNew v.base (w.base.shift d) = false := by
      apply decide_eq_false
      simp only [Seq.halfSpace]
      omega
    have hzero : d.toNat - k = 0 := by omega
    have hsame : max k d.toNat = k := by omega
    rw [acknowledge_of_stale now hold, hzero, hsame]
    exact ⟨v, rfl, hv⟩
  · have hzero : d.toNat - k = 0 := by omega
    have hsame : max k d.toNat = k := by omega
    rw [heq, Seq.shift_natCast, ← hbase, acknowledge_base, ← heq, hzero, hsame]
    exact ⟨v.countRepeat 0, rfl, (agrees_countRepeat v 0).trans hv⟩
  · have hstep : Seq.distance v.base (w.base.shift d) = d.toNat - k := by omega
    have hnew : Seq.isNew v.base (w.base.shift d) = true := by
      apply decide_eq_true
      simp only [Seq.halfSpace]
      omega
    have hreach : max k d.toNat = k + (d.toNat - k) := by omega
    rw [acknowledge_of_ahead now hnew (by omega) (by omega), hstep, hreach,
      ← remove_advanced w k (d.toNat - k) now (by omega)]
    exact ⟨_, rfl, ((agrees_countRepeat v _).trans hv).remove _ now⟩

theorem Agrees.acknowledgeAll (hv : v.Agrees (w.advanced k now)) (hk : k ≤ w.inFlight)
    (hmost : w.inFlight ≤ maxSize) {ds : List Int} (hds : ∀ d ∈ ds, -32668 ≤ d ∧ d ≤ w.inFlight) :
    ∃ v', v.acknowledgeAll now (ds.map w.base.shift) = (.ok ((ds.foldr max 0).toNat - k), v') ∧
      v'.Agrees (w.advanced (max k (ds.foldr max 0).toNat) now) := by
  induction ds generalizing k v with
  | nil =>
    refine ⟨v, ?_, ?_⟩
    · simp [SendWindow.acknowledgeAll]
    · simpa using hv
  | cons d rest ih =>
    obtain ⟨⟨hlow, hd⟩, hrest⟩ := List.forall_mem_cons.mp hds
    obtain ⟨v₁, hfirst, hv₁⟩ := hv.acknowledge hk hmost hlow hd
    obtain ⟨v', hmore, hv'⟩ := ih hv₁ (by omega) hrest
    have htop : ((d :: rest).foldr max 0).toNat = max d.toNat (rest.foldr max 0).toNat := by
      simp only [List.foldr_cons]
      omega
    have hsum : d.toNat - k + ((rest.foldr max 0).toNat - max k d.toNat) =
        max d.toNat (rest.foldr max 0).toNat - k := by omega
    rw [htop]
    refine ⟨v', ?_, ?_⟩
    · simp only [List.map_cons, SendWindow.acknowledgeAll, hfirst, hmore, Except.map, hsum]
    · rwa [Nat.max_assoc] at hv'

theorem foldr_max_le_iff {ds : List Int} {b : Int} : ds.foldr max 0 ≤ b ↔ 0 ≤ b ∧ ∀ d ∈ ds, d ≤ b := by
  induction ds with
  | nil => simp
  | cons d rest ih =>
    simp only [List.foldr_cons, Int.max_le, ih, List.forall_mem_cons]
    exact and_left_comm

theorem foldr_max_congr {ds ds' : List Int} (h : ∀ d, d ∈ ds' ↔ d ∈ ds) :
    ds'.foldr max 0 = ds.foldr max 0 := by
  have hbound (b : Int) : ds'.foldr max 0 ≤ b ↔ ds.foldr max 0 ≤ b := by
    simp only [foldr_max_le_iff, h]
  have hle := (hbound (ds.foldr max 0)).mpr (Int.le_refl _)
  have hge := (hbound (ds'.foldr max 0)).mp (Int.le_refl _)
  omega

/-- ACKs between 32668 packets behind the base and the last packet in flight are never refused, and only the
one that reaches furthest counts, in whatever order they come and however often. Together they remove as many
packets as it reports, none if it does not pass the base. -/
theorem Grown.acknowledgeAll_eq (h : Grown first n w) (now : Instant) {ds : List Int}
    (hds : ∀ d ∈ ds, -32668 ≤ d ∧ d ≤ w.inFlight) : let furthest := ds.foldr max 0
    ∃ w', w.acknowledgeAll now (ds.map w.base.shift) = (.ok furthest.toNat, w') ∧
      (furthest = 0 → w'.Agrees w) ∧
      (0 < furthest → w'.Agrees (w.acknowledge (w.base.shift furthest) now).2) ∧
      ∀ ds' : List Int, (∀ d, d ∈ ds' ↔ d ∈ ds) → ∃ w'',
        w.acknowledgeAll now (ds'.map w.base.shift) = (.ok furthest.toNat, w'') ∧ w''.Agrees w' := by
  intro furthest
  have hmost := h.regular.inFlight_le
  have hstart : w.Agrees (w.advanced 0 now) := rfl
  obtain ⟨w', hall, hw'⟩ := hstart.acknowledgeAll (Nat.zero_le _) hmost hds
  rw [Nat.sub_zero, Nat.zero_max] at *
  refine ⟨w', hall, fun hzero => ?_, fun hpos => ?_, fun ds' hsame => ?_⟩
  · have hnone : (ds.foldr max 0).toNat = 0 := by
      change furthest.toNat = 0
      omega
    rwa [hnone] at hw'
  · have htop : furthest ≤ w.inFlight := foldr_max_le_iff.mpr ⟨by omega, fun d hd => (hds d hd).2⟩
    obtain ⟨w₁, hone, hw₁⟩ := hstart.acknowledge (Nat.zero_le _) hmost (by omega) htop
    rw [hone]
    rw [Nat.zero_max] at hw₁
    exact hw'.trans hw₁.symm
  · obtain ⟨w'', hall', hw''⟩ := hstart.acknowledgeAll (Nat.zero_le _) hmost
      (fun d hd => hds d ((hsame d).mp hd))
    rw [foldr_max_congr hsame, Nat.sub_zero, Nat.zero_max] at *
    exact ⟨w'', hall', hw''.trans hw'.symm⟩

/-- Five packets whose sequences wrap. Whichever way the ACKs come, and with old ones among them, all five are
gone in the end. -/
theorem Grown.acknowledgeAll_eq_wrapped :
    let p (i : Nat) : Packet := .carrying true (Seq.after 65534 i) [1]
    let w := [p 0, p 1, p 2, p 3, p 4].foldl (fun w q => w.register q 0) (SendWindow.new 65534 0)
    ∃ w', w.acknowledgeAll 9 ([2, -32668, 5, 2, 0, 3].map w.base.shift) = (.ok 5, w') ∧
      w'.Agrees (w.acknowledge 3 9).2 ∧
      ∃ w'', w.acknowledgeAll 9 ([5, 0, 3, 2, -32668].map w.base.shift) = (.ok 5, w'') ∧ w''.Agrees w' := by
  intro p w
  have h : Grown 65534 5 w := by
    have h₀ : Grown 65534 0 _ := Grown.new 0
    have h₂ := (h₀.register (p := p 0) rfl rfl 0).register (p := p 1) rfl rfl 0
    have h₄ := (h₂.register (p := p 2) rfl rfl 0).register (p := p 3) rfl rfl 0
    exact h₄.register (p := p 4) rfl rfl 0
  have hds : ∀ d ∈ [2, -32668, 5, 2, 0, 3], -32668 ≤ d ∧ d ≤ (w.inFlight : Int) := by decide
  obtain ⟨w', hall, -, hone, hany⟩ := h.acknowledgeAll_eq 9 hds
  have hlast : w.base.shift ([2, -32668, 5, 2, 0, 3].foldr max 0) = 3 := by decide
  rw [hlast] at hone
  exact ⟨w', hall, hone (by decide), hany [5, 0, 3, 2, -32668] (by simp; grind)⟩

end SendWindow

end DatagramStreams
