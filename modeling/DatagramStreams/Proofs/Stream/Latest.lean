import DatagramStreams.Proofs.Stream.Numbering
import DatagramStreams.Proofs.Stream.Transmission
import DatagramStreams.Stream.Unreliable

/-! An unreliable stream between its sender and its receiver. The sender numbers without bound what travels
with sixteen-bit sequences, and the network brings any of it in any order and any number of times, as long as
nothing arrives from more than half a ring away.
Main statement: `UnreliableLog.Reached.latest_wins`, the receiver hands over what is newer than all before.
-/

set_option autoImplicit false

namespace DatagramStreams

section Records

def records (l : List Nat) : List Nat :=
  (l.zipIdx.filter fun x => (l.take x.2).all (· < x.1)).map Prod.fst

def watermark (l : List Nat) : Nat := l.foldl (fun m n => max m (n + 1)) 0

variable {l : List Nat} {n : Nat}

theorem watermark_append (l : List Nat) (n : Nat) : watermark (l ++ [n]) = max (watermark l) (n + 1) := by
  simp [watermark]

theorem watermark_le_iff : watermark l ≤ n ↔ ∀ m ∈ l, m < n := by
  have hfold (k : Nat) : l.foldl (fun m n => max m (n + 1)) k ≤ n ↔ k ≤ n ∧ ∀ m ∈ l, m < n := by
    induction l generalizing k with
    | nil => simp
    | cons x rest ih => simp only [List.foldl_cons, ih, Nat.max_le, List.forall_mem_cons, and_assoc, Nat.succ_le_iff]
  exact (hfold 0).trans (and_iff_right (Nat.zero_le n))

theorem records_append (l : List Nat) (n : Nat) :
    records (l ++ [n]) = records l ++ if watermark l ≤ n then [n] else [] := by
  have hbefore : (l.zipIdx.filter fun x => ((l ++ [n]).take x.2).all (· < x.1)) =
      l.zipIdx.filter fun x => (l.take x.2).all (· < x.1) := by
    refine List.filter_congr fun x hx => ?_
    have hlt : x.2 < l.length := by
      have := (List.mem_zipIdx hx).2.1
      omega
    rw [List.take_append_of_le_length (Nat.le_of_lt hlt)]
  have hlast : l.all (· < n) = decide (watermark l ≤ n) := by
    rw [Bool.eq_iff_iff]
    simp [watermark_le_iff]
  simp only [records, List.zipIdx_append, List.filter_append, List.map_append, hbefore, List.zipIdx_singleton,
    List.filter_cons, List.filter_nil, Nat.zero_add, List.take_left, hlast]
  by_cases hnew : watermark l ≤ n <;> simp [hnew]

theorem records_sublist (l : List Nat) : (records l).Sublist l := by
  have h : (records l).Sublist (l.zipIdx.map Prod.fst) := List.filter_sublist.map Prod.fst
  rwa [List.zipIdx_map_fst] at h

theorem records_increasing (l : List Nat) : (records l).Pairwise (· < ·) := by
  rw [← l.reverse_reverse]
  induction l.reverse with
  | nil => exact .nil
  | cons n rest ih =>
    rw [List.reverse_cons, records_append]
    split
    · rename_i hnew
      refine List.pairwise_append.mpr ⟨ih, List.pairwise_singleton _ _, fun m hm x hx => ?_⟩
      rw [List.mem_singleton.mp hx]
      exact watermark_le_iff.mp hnew m ((records_sublist _).mem hm)
    · rwa [List.append_nil]

end Records

namespace UnreliableStream

theorem send_cases (u : UnreliableStream) (l : Link) (payload : Octets) (now : Instant) (s : Recorder) :
    ∃ result u' l' s', u.send Recorder.socket l payload now s = (result, u', l', s') ∧
      match Packet.payloadError? payload with
      | some _ => u' = u ∧ s' = s
      | none => u' = { u with sequenceOut := Seq.next u.sequenceOut } ∧ ∃ p,
          s'.attempts.toList.map Recorder.Attempt.packet = s.attempts.toList.map Recorder.Attempt.packet ++ [p] ∧
            p.sequence = u.sequenceOut ∧ p.payload = some payload := by
  have hdata := Packet.data_eq false u.sequenceOut payload
  unfold send
  cases hx : Packet.payloadError? payload with
  | some e =>
    rw [hx] at hdata
    rw [hdata]
    exact ⟨_, u, l, s, rfl, rfl, rfl⟩
  | none =>
    rw [hx] at hdata
    rw [hdata]
    obtain ⟨failure, l', s', hs, -, hn⟩ := l.send_noted (.carrying false u.sequenceOut payload) now s
    have hnoted : s'.attempts.toList.map Recorder.Attempt.packet = s.attempts.toList.map Recorder.Attempt.packet ++
        [Link.loaded (.carrying false u.sequenceOut payload) (l.attach (.carrying false u.sequenceOut payload)).1] := by
      rw [hn, List.map_append, List.map_singleton]
    simp only [hs]
    cases Offer.answer ⟨.carrying false u.sequenceOut payload, failure⟩ with
    | error e => exact ⟨_, _, l', s', rfl, rfl, _, hnoted, by cases (l.attach _).1 <;> exact ⟨rfl, rfl⟩⟩
    | ok b => exact ⟨_, _, l', s', rfl, rfl, _, hnoted, by cases (l.attach _).1 <;> exact ⟨rfl, rfl⟩⟩

end UnreliableStream

/-- The two ends of an unreliable stream, and what has passed between them. -/
structure UnreliableLog where
  sender : UnreliableStream
  receiver : UnreliableStream
  given : List Octets := []
  sent : List Packet := []
  /-- The places of the packets that have arrived, in the order of their arrival. -/
  arrivals : List Nat := []
  read : List Octets := []

namespace UnreliableLog

def send (r : UnreliableLog) (payload : Octets) (l : Link) (plan : List (Option IoKind)) (now : Instant) :
    UnreliableLog :=
  let (_, sender, _, s) := r.sender.send Recorder.socket l payload now { plan }
  { r with
    sender
    given := r.given ++ if (Packet.payloadError? payload).isNone then [payload] else []
    sent := r.sent ++ s.attempts.toList.map Recorder.Attempt.packet }

def arrive (r : UnreliableLog) (n : Nat) (p : Packet) : UnreliableLog :=
  { r with receiver := r.receiver.receive p, arrivals := r.arrivals ++ [n] }

def handOver (r : UnreliableLog) : UnreliableLog :=
  let (got, receiver) := r.receiver.takeDelivered
  { r with receiver, read := r.read ++ got }

/-- The sender begins where the receiver does. It finds its link and its socket in any state, for others use
them as well. -/
inductive Reached (first : Seq) : UnreliableLog → Prop
  | start (a b : Seq) : Reached first { sender := .new a first, receiver := .new first b }
  | send {r : UnreliableLog} (hr : Reached first r) (payload : Octets) (l : Link) (plan : List (Option IoKind))
      (now : Instant) : Reached first (r.send payload l plan now)
  | arrive {r : UnreliableLog} (hr : Reached first r) {n : Nat} {p : Packet} (hp : r.sent[n]? = some p)
      (hahead : n < watermark r.arrivals + Seq.halfSpace) (hbehind : watermark r.arrivals ≤ n + Seq.halfSpace) :
      Reached first (r.arrive n p)
  | handOver {r : UnreliableLog} (hr : Reached first r) : Reached first r.handOver

structure Numbered (first : Seq) (r : UnreliableLog) : Prop where
  next : r.sender.sequenceOut = first.after r.sent.length
  numbered : ∀ n p, r.sent[n]? = some p → p.sequence = first.after n
  carried : r.sent.map Packet.payload = r.given.map some
  expected : r.receiver.sequenceIn = first.after (watermark r.arrivals)
  known : ∀ n ∈ r.arrivals, n < r.given.length
  handed : (r.read ++ r.receiver.delivered.toList).map some = (records r.arrivals).map (r.given[·]?)

variable {first : Seq} {r : UnreliableLog}

theorem Numbered.length (h : r.Numbered first) : r.sent.length = r.given.length := by
  simpa using congrArg List.length h.carried

theorem Numbered.payload (h : r.Numbered first) {n : Nat} {p : Packet} (hp : r.sent[n]? = some p) :
    p.payload = r.given[n]? := by
  have hn := congrArg (·[n]?) h.carried
  simp only [List.getElem?_map, hp, Option.map_some] at hn
  cases hg : r.given[n]? with
  | none => simp [hg] at hn
  | some x => simpa [hg] using hn

theorem Numbered.send (h : r.Numbered first) (payload : Octets) (l : Link) (plan : List (Option IoKind))
    (now : Instant) : (r.send payload l plan now).Numbered first := by
  obtain ⟨result, u, l', s, hs, hsent⟩ := r.sender.send_cases l payload now { plan }
  simp only [UnreliableLog.send, hs]
  cases hx : Packet.payloadError? payload with
  | some e =>
    simp only [hx] at hsent
    obtain ⟨rfl, rfl⟩ := hsent
    simpa using h
  | none =>
    simp only [hx] at hsent
    obtain ⟨rfl, p, hattempts, hsequence, hpayload⟩ := hsent
    have hnew : s.attempts.toList.map Recorder.Attempt.packet = [p] := hattempts
    rw [hnew]
    refine ⟨?_, fun n q hq => ?_, ?_, h.expected, fun n hn => ?_, ?_⟩
    · simp only [h.next, Seq.next_after, List.length_append, List.length_singleton]
    · rcases Nat.lt_or_ge n r.sent.length with hn | hn
      · rw [List.getElem?_append_left hn] at hq
        exact h.numbered n q hq
      · rw [List.getElem?_append_right hn] at hq
        obtain ⟨hzero, rfl⟩ : n - r.sent.length = 0 ∧ p = q := by
          cases hk : n - r.sent.length <;> simp_all
        rw [hsequence, h.next]
        congr 1
        omega
    · simp [h.carried, hpayload]
    · have := h.known n hn
      simp only [List.length_append]
      omega
    · refine h.handed.trans (List.map_congr_left fun n hn => ?_)
      exact (List.getElem?_append_left (h.known n ((records_sublist _).mem hn))).symm

theorem Numbered.arrive (h : r.Numbered first) {n : Nat} {p : Packet} (hp : r.sent[n]? = some p)
    (hahead : n < watermark r.arrivals + Seq.halfSpace) (hbehind : watermark r.arrivals ≤ n + Seq.halfSpace) :
    (r.arrive n p).Numbered first := by
  have hn : n < r.given.length := h.length ▸ (List.getElem?_eq_some_iff.mp hp).1
  have hpayload : p.payload = some r.given[n] := (h.payload hp).trans (List.getElem?_eq_getElem hn)
  have hknown : ∀ m ∈ r.arrivals ++ [n], m < r.given.length := fun m hm => by
    rcases List.mem_append.mp hm with hm | hm
    · exact h.known m hm
    · exact List.mem_singleton.mp hm ▸ hn
  -- Within half a ring the order of sequences is the order of numbers.
  have hreceive : r.receiver.receive p = if watermark r.arrivals ≤ n then
      { r.receiver with
        sequenceIn := first.after (n + 1), delivered := r.receiver.delivered.push r.given[n] }
      else r.receiver := by
    simp only [UnreliableStream.receive, hpayload, h.expected, h.numbered n p hp, Packet.nextSequence, Seq.next_after]
    rcases Nat.lt_or_ge n (watermark r.arrivals) with hlt | hle
    · obtain ⟨d, hd⟩ := Nat.exists_eq_add_of_lt hlt
      rw [hd, Nat.add_assoc, Seq.not_isNew_after_add _ _ (Nat.succ_pos d) (by omega), if_neg (by simp),
        if_neg (by omega)]
    · obtain ⟨d, rfl⟩ := Nat.exists_eq_add_of_le hle
      rw [Seq.isNew_after_add _ _ (by omega), if_pos rfl, if_pos hle]
  refine ⟨h.next, h.numbered, h.carried, ?_, hknown, ?_⟩
  · simp only [UnreliableLog.arrive, hreceive, watermark_append]
    split
    · rw [Nat.max_eq_right (by omega)]
    · rw [Nat.max_eq_left (by omega), h.expected]
  · simp only [UnreliableLog.arrive, hreceive, records_append]
    split
    · rw [Queue.toList_push, ← List.append_assoc, List.map_append, h.handed, List.map_append, List.map_singleton,
        List.map_singleton, List.getElem?_eq_getElem hn]
    · rw [List.append_nil]
      exact h.handed

theorem Reached.numbered (h : Reached first r) : r.Numbered first := by
  induction h with
  | start a b => exact ⟨(Seq.after_zero first).symm, nofun, rfl, (Seq.after_zero first).symm, nofun, rfl⟩
  | send _ payload l plan now ih => exact ih.send payload l plan now
  | arrive _ hp hahead hbehind ih => exact ih.arrive hp hahead hbehind
  | handOver _ ih =>
    refine ⟨ih.next, ih.numbered, ih.carried, ih.expected, ih.known, ?_⟩
    simpa [UnreliableLog.handOver, UnreliableStream.takeDelivered] using ih.handed

/-- The payloads that the receiver has handed over, and would hand over now, are those of the arrivals that are
newer than all before, in the order of their arrival, each once. Their places are those in which the sender was
given the payloads, and its packets carry them with the sequences from the first one on. -/
theorem Reached.latest_wins (h : Reached first r) :
    (r.read ++ r.receiver.takeDelivered.1).map some = (records r.arrivals).map (r.given[·]?) ∧
      (records r.arrivals).Pairwise (· < ·) ∧
      ∀ n p, r.sent[n]? = some p → p.sequence = first.after n ∧ p.payload = r.given[n]? := by
  have hk := h.numbered
  exact ⟨hk.handed, records_increasing _, fun n p hp => ⟨hk.numbered n p hp, hk.payload hp⟩⟩

/-- One packet is lost, one overtakes another and arrives twice. -/
theorem Reached.latest_wins_wrapped : ∃ r, Reached 65534 r ∧ r.sent.map Packet.sequence = [65534, 65535, 0, 1] ∧
    r.arrivals = [1, 3, 2, 3] ∧ r.read.map some = [some [11], some [13]] := by
  let l : Link := { peer := Recorder.address, acks := { delay := 0 } }
  have hsent : Reached 65534 _ := ((((Reached.start 0 0).send [10] l [some .wouldBlock] 0).send [11] l [] 0).send
    [12] l [] 0).send [13] l [] 0
  have hcome : Reached 65534 _ := (hsent.arrive (n := 1) rfl (by decide +kernel) (by decide +kernel)).arrive
    (n := 3) rfl (by decide +kernel) (by decide +kernel)
  have h : Reached 65534 _ := ((hcome.arrive (n := 2) rfl (by decide +kernel) (by decide +kernel)).arrive
    (n := 3) rfl (by decide +kernel) (by decide +kernel)).handOver
  obtain ⟨hhanded, -⟩ := h.latest_wins
  refine ⟨_, h, by decide +kernel, by decide +kernel, ?_⟩
  exact (congrArg (List.map some) (List.append_nil _).symm).trans (hhanded.trans (by decide +kernel))

end UnreliableLog

end DatagramStreams
