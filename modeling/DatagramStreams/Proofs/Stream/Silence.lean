import DatagramStreams.Proofs.Stream.Acts
import DatagramStreams.Proofs.Stream.Window

/-! How long a peer may leave packets unacknowledged. An observer of a stream sees how many packets are in
flight, and notes when an ACK last removed some and when the window was last filled from nothing.
Main statement: `SilenceWatch.Reached.dead_iff`, that the later of the two decides when the peer counts as dead.
-/

set_option autoImplicit false

namespace DatagramStreams

namespace SendWindow

def SilentSince (t : Instant) (w : SendWindow) : Prop := w.closeTimer = timerAfter w.sent t

/-- Since when the timer runs if packets leave at `now` and it ran since `t` before. -/
def since (w : SendWindow) (t now : Instant) : Instant := if w.inFlight = 0 then now else t

variable {w : SendWindow} {t now : Instant}

theorem since_of_pos (h : 0 < w.inFlight) (t now : Instant) : w.since t now = t :=
  if_neg (Nat.ne_of_gt h)

theorem silentSince_of_empty (h : w.SilentSince t) (hw : w.inFlight = 0) (u : Instant) :
    w.SilentSince u := by
  have hempty := inFlight_eq_zero_iff.mp hw
  simp only [SilentSince, timerAfter, hempty, if_true] at h ⊢
  exact h

theorem SilentSince.since (h : w.SilentSince t) (now : Instant) : w.SilentSince (w.since t now) := by
  unfold SendWindow.since
  split
  · rename_i hw
    exact silentSince_of_empty h hw now
  · exact h

theorem SilentSince.register (h : w.SilentSince t) (p : Packet) (now : Instant) :
    (w.register p now).SilentSince (w.since t now) := by
  change w.closeTimer.ensureStarted now = _
  rw [h, w.ensureStarted_timerAfter p]
  rfl

theorem SilentSince.retransmitDue (h : w.SilentSince t) (now : Instant) :
    (w.retransmitDue now).2.SilentSince t := by
  unfold SendWindow.retransmitDue
  split
  · exact h
  · split <;> exact h

theorem SilentSince.markResent (h : w.SilentSince t) (now : Instant) : (w.markResent now).SilentSince t := by
  simpa [SilentSince, SendWindow.markResent, timerAfter] using h

theorem SilentSince.acknowledge (h : w.SilentSince t) (ack : Seq) (now : Instant) :
    (w.acknowledge ack now).2.SilentSince
      (if (w.acknowledge ack now).2.inFlight < w.inFlight then now else t) := by
  obtain ⟨-, -, -, -, -, hcount⟩ := countRepeat_frame (w := w) 0
  exact timer_acknowledge closeTimer hcount (fun _ _ => rfl) h ack

theorem inFlight_acknowledge_le (w : SendWindow) (ack : Seq) (now : Instant) :
    (w.acknowledge ack now).2.inFlight ≤ w.inFlight := by
  rcases w.acknowledge_cases ack now with ⟨-, hw⟩ | ⟨n, -, -, hw⟩ | ⟨-, hw⟩
  · exact Nat.le_of_eq (hw ▸ w.inFlight_countRepeat 0)
  · rw [hw, inFlight_remove, inFlight_countRepeat]
    exact Nat.sub_le _ _
  · exact Nat.le_of_eq (congrArg inFlight hw)

theorem SilentSince.isDead_iff (h : w.SilentSince t) (now : Instant) (limit : Span) :
    w.isDead now limit = true ↔ 0 < w.inFlight ∧ t + limit < now := by
  rw [isDead, h, hasPassed_timerAfter]

end SendWindow

namespace Outbound

variable {σ : Type} {t now : Instant}

theorem flush_silentSince (sock : Socket σ) (now : Instant) (queue : List Packet) {w : SendWindow}
    (h : w.SilentSince t) (l : Link) (s : σ) : ∃ result queue' w' l' s',
      flush sock now queue w l s = (result, queue', w', l', s') ∧ w'.SilentSince (w.since t now) := by
  induction queue generalizing w t l s with
  | nil => exact ⟨_, _, w, l, s, rfl, h.since now⟩
  | cons p rest ih =>
    unfold flush
    split
    · exact ⟨_, _, w, l, s, rfl, h.since now⟩
    · rcases l.send sock p now s with ⟨e | _ | _, l', s'⟩
      · exact ⟨_, _, w, l', s', rfl, h.since now⟩
      · exact ⟨_, _, w, l', s', rfl, h.since now⟩
      · obtain ⟨result, queue', w', l'', s'', hs, hsince⟩ := ih (h.register p now) l' s'
        have hpos : 0 < (w.register p now).inFlight := by
          rw [SendWindow.inFlight_register]
          omega
        rw [SendWindow.since_of_pos hpos] at hsince
        exact ⟨result, queue', w', l'', s'', hs, hsince⟩

theorem retransmit_silentSince (sock : Socket σ) {o : Outbound} (h : o.window.SilentSince t) (l : Link)
    (now : Instant) (s : σ) : ∃ result o' l' s', o.retransmit sock l now s = (result, o', l', s') ∧
      o'.window.SilentSince t ∧ o'.window.inFlight = o.window.inFlight ∧ o'.sendTimeout = o.sendTimeout := by
  have hdue := h.retransmitDue now
  have hcount : (o.window.retransmitDue now).2.inFlight = o.window.inFlight := by
    rw [← SendWindow.length_packets, SendWindow.packets_retransmitDue, SendWindow.length_packets]
  unfold retransmit
  split <;> rename_i w hw <;> rw [hw] at hdue hcount
  · exact ⟨_, _, l, s, rfl, hdue, hcount, rfl⟩
  · refine ⟨_, _, _, _, rfl, hdue.markResent now, ?_, rfl⟩
    simpa [SendWindow.markResent, SendWindow.inFlight] using hcount

theorem drive_silentSince (sock : Socket σ) {o : Outbound} (h : o.window.SilentSince t) (l : Link)
    (now : Instant) (s : σ) : ∃ result o' l' s', o.drive sock l now s = (result, o', l', s') ∧
      o'.window.SilentSince (o.window.since t now) ∧ o'.sendTimeout = o.sendTimeout := by
  obtain ⟨result, o₁, l₁, s₁, hs, hsince, hcount, hlimit⟩ := retransmit_silentSince sock h l now s
  have hsame : o₁.window.since t now = o.window.since t now := by
    rw [SendWindow.since, hcount, SendWindow.since]
  rw [← hsame, ← hlimit]
  simp only [drive, hs]
  cases result with
  | error e => exact ⟨_, o₁, l₁, s₁, rfl, hsince.since now, rfl⟩
  | ok u =>
    obtain ⟨result, queue, w, l₂, s₂, hs, hw⟩ :=
      flush_silentSince sock now o₁.queue.toList hsince l₁ s₁
    simp only [hs]
    exact ⟨_, _, l₂, s₂, rfl, hw, rfl⟩

theorem send_silentSince (sock : Socket σ) {o : Outbound} (h : o.window.SilentSince t) (l : Link)
    (payload : Octets) (now : Instant) (s : σ) : ∃ result o' l' s',
      o.send sock l payload now s = (result, o', l', s') ∧ o'.window.SilentSince (o.window.since t now) ∧
        o'.sendTimeout = o.sendTimeout := by
  unfold send
  split
  · exact ⟨_, o, l, s, rfl, h.since now, rfl⟩
  · rename_i p _
    unfold submit
    split
    · exact ⟨_, _, l, s, rfl, h.since now, rfl⟩
    · rcases l.send sock p now s with ⟨e | _ | _, l', s'⟩
      · exact ⟨_, _, l', s', rfl, h.since now, rfl⟩
      · exact ⟨_, _, l', s', rfl, h.since now, rfl⟩
      · exact ⟨_, _, l', s', rfl, h.register p now, rfl⟩

end Outbound

namespace ReliableStream

variable {σ : Type} {t now : Instant}

theorem poll_silentSince (sock : Socket σ) {r : ReliableStream} (h : r.outbound.window.SilentSince t)
    (l : Link) (now : Instant) (s : σ) : ∃ result o l' s',
      r.poll sock l now s = (result, { r with outbound := o }, l', s') ∧
        o.window.SilentSince (r.outbound.window.since t now) ∧ o.sendTimeout = r.outbound.sendTimeout := by
  obtain ⟨result, o, l', s', hs, ho⟩ := Outbound.drive_silentSince sock h l now s
  unfold poll
  split
  · exact ⟨_, r.outbound, l, s, rfl, h.since now, rfl⟩
  · rw [hs]
    cases result <;> exact ⟨_, o, _, _, rfl, ho⟩

theorem receive_silentSince (sock : Socket σ) {r r' : ReliableStream} (h : r.outbound.window.SilentSince t)
    {l : Link} {p : Packet} {now : Instant} {s : σ} (hr : (r.receive sock l p now s).2.1 = r') :
    r'.outbound.window.SilentSince
        (if r'.outbound.window.inFlight < r.outbound.window.inFlight then now else t) ∧
      r'.outbound.window.inFlight ≤ r.outbound.window.inFlight ∧
      r'.outbound.sendTimeout = r.outbound.sendTimeout := by
  have hout : r'.outbound = (r.receiveAck p.ack now).2.outbound := hr ▸ outbound_receive sock r l p now s
  rw [hout]
  cases p.ack with
  | none =>
    refine ⟨?_, Nat.le_refl _, rfl⟩
    have hsame : ¬ (r.receiveAck none now).2.outbound.window.inFlight < r.outbound.window.inFlight :=
      Nat.lt_irrefl _
    rw [if_neg hsame]
    exact h
  | some a => exact ⟨h.acknowledge a now, SendWindow.inFlight_acknowledge_le _ a now, rfl⟩

end ReliableStream

/-- A stream and what its observer has noted. -/
structure SilenceWatch where
  stream : ReliableStream
  clock : Instant := 0
  limit : Span
  /-- When an ACK last removed packets. -/
  released : Instant := 0
  /-- When the window last went from empty to not empty. -/
  begun : Instant := 0

namespace SilenceWatch

open ReliableStream (Act)

variable {σ : Type} {sock : Socket σ}

def inFlight (o : SilenceWatch) : Nat := o.stream.outbound.window.inFlight

def latest (o : SilenceWatch) : Instant := max o.released o.begun

def act (sock : Socket σ) (o : SilenceWatch) (what : Act) (now : Instant) (l : Link) (s : σ) : SilenceWatch :=
  let stream := o.stream.act sock what now l s
  let inFlight := stream.outbound.window.inFlight
  { stream
    clock := now
    limit := match what with
      | .setSendTimeout limit => limit
      | _ => o.limit
    released := match what with
      | .receive _ => if inFlight < o.inFlight then now else o.released
      | _ => o.released
    begun := if o.inFlight = 0 ∧ 0 < inFlight then now else o.begun }

/-- Acts in any order on a clock that does not go back. Each finds the link and the socket in any state. -/
inductive Reached (sock : Socket σ) : SilenceWatch → Prop
  | start (sequenceIn sequenceOut : Seq) (config : Settings) :
      Reached sock { stream := .new sequenceIn sequenceOut config, limit := config.sendTimeout }
  | act {o : SilenceWatch} (h : Reached sock o) (what : Act) {now : Instant} (ht : o.clock ≤ now) (l : Link) (s : σ) :
      Reached sock (o.act sock what now l s)

structure Accurate (o : SilenceWatch) : Prop where
  silent : o.stream.outbound.window.SilentSince o.latest
  limit : o.stream.outbound.sendTimeout = o.limit
  past : o.latest ≤ o.clock

variable {o : SilenceWatch} {now : Instant}

theorem accurate_start (sequenceIn sequenceOut : Seq) (config : Settings) :
    Accurate { stream := .new sequenceIn sequenceOut config, limit := config.sendTimeout } :=
  ⟨rfl, rfl, Nat.le_refl _⟩

theorem Accurate.leave (h : o.Accurate) (ht : o.clock ≤ now) {w : SendWindow}
    (hw : w.SilentSince (o.stream.outbound.window.since o.latest now)) :
    let begun := if o.inFlight = 0 ∧ 0 < w.inFlight then now else o.begun
    w.SilentSince (max o.released begun) ∧ max o.released begun ≤ now := by
  intro begun
  have hreleased : o.released ≤ now := Nat.le_trans (Nat.le_max_left _ _) (Nat.le_trans h.past ht)
  have hbegun : begun ≤ now := by
    simp only [begun]
    split
    · exact Nat.le_refl now
    · exact Nat.le_trans (Nat.le_max_right _ _) (Nat.le_trans h.past ht)
  refine ⟨?_, Nat.max_le.mpr ⟨hreleased, hbegun⟩⟩
  by_cases hzero : o.inFlight = 0
  · by_cases hnone : w.inFlight = 0
    · exact SendWindow.silentSince_of_empty hw hnone _
    · have hnow : begun = now := if_pos ⟨hzero, Nat.pos_of_ne_zero hnone⟩
      have hsince : o.stream.outbound.window.since o.latest now = now := if_pos hzero
      rwa [hnow, Nat.max_eq_right hreleased, ← hsince]
  · have hsame : begun = o.begun := if_neg fun hc => hzero hc.1
    have hsince : o.stream.outbound.window.since o.latest now = o.latest := if_neg hzero
    rw [hsame]
    rwa [hsince] at hw

theorem Accurate.hear (h : o.Accurate) (ht : o.clock ≤ now) {w : SendWindow}
    (hw : w.SilentSince (if w.inFlight < o.inFlight then now else o.latest)) (hle : w.inFlight ≤ o.inFlight) :
    let released := if w.inFlight < o.inFlight then now else o.released
    let begun := if o.inFlight = 0 ∧ 0 < w.inFlight then now else o.begun
    w.SilentSince (max released begun) ∧ max released begun ≤ now := by
  intro released begun
  have hsame : begun = o.begun := if_neg (by omega)
  have hbegun : o.begun ≤ now := Nat.le_trans (Nat.le_max_right _ _) (Nat.le_trans h.past ht)
  rw [hsame]
  by_cases hless : w.inFlight < o.inFlight
  · have hnow : released = now := if_pos hless
    rw [if_pos hless] at hw
    rw [hnow, Nat.max_eq_left hbegun]
    exact ⟨hw, Nat.le_refl now⟩
  · have hold : released = o.released := if_neg hless
    rw [if_neg hless] at hw
    rw [hold]
    exact ⟨hw, Nat.le_trans h.past ht⟩

theorem Accurate.act (h : o.Accurate) (what : Act) (ht : o.clock ≤ now) (l : Link) (s : σ) :
    (o.act sock what now l s).Accurate := by
  cases what with
  | send payload =>
    obtain ⟨_, out, _, _, hs, hw, hlimit⟩ := Outbound.send_silentSince sock h.silent l payload now s
    obtain ⟨hsilent, hbound⟩ := h.leave ht hw
    simp only [SilenceWatch.act, ReliableStream.act, ReliableStream.send, hs]
    exact ⟨hsilent, hlimit.trans h.limit, hbound⟩
  | poll =>
    obtain ⟨_, out, _, _, hs, hw, hlimit⟩ := ReliableStream.poll_silentSince sock h.silent l now s
    obtain ⟨hsilent, hbound⟩ := h.leave ht hw
    simp only [SilenceWatch.act, ReliableStream.act, hs]
    exact ⟨hsilent, hlimit.trans h.limit, hbound⟩
  | receive p =>
    obtain ⟨stream, hs⟩ : ∃ stream, (o.stream.receive sock l p now s).2.1 = stream := ⟨_, rfl⟩
    obtain ⟨hw, hle, hlimit⟩ := ReliableStream.receive_silentSince sock h.silent hs
    obtain ⟨hsilent, hbound⟩ := h.hear ht hw hle
    simp only [SilenceWatch.act, ReliableStream.act, hs]
    exact ⟨hsilent, hlimit.trans h.limit, hbound⟩
  | handOver =>
    obtain ⟨hsilent, hbound⟩ := h.leave ht (h.silent.since now)
    exact ⟨hsilent, h.limit, hbound⟩
  | setSendTimeout limit =>
    obtain ⟨hsilent, hbound⟩ := h.leave ht (h.silent.since now)
    exact ⟨hsilent, rfl, hbound⟩

theorem Reached.accurate (h : Reached sock o) : o.Accurate := by
  induction h with
  | start sequenceIn sequenceOut config => exact accurate_start sequenceIn sequenceOut config
  | act _ what ht l s ih => exact ih.act what ht l s

theorem Accurate.reports_dead_iff (h : o.Accurate) (sock : Socket σ) (l : Link) (now : Instant) (s : σ) :
    (o.stream.poll sock l now s).1 = .ok .dead ↔ 0 < o.inFlight ∧ o.latest + o.limit < now := by
  rw [ReliableStream.poll_eq_dead_iff, Outbound.isDead, h.limit]
  exact h.silent.isDead_iff now o.limit

/-- A poll reports that the peer is dead if packets are in flight, and more than the send timeout has passed
since an ACK last removed some and since there were none. What neither removes packets nor sends the first one
makes no difference to any later poll. -/
theorem Reached.dead_iff (h : Reached sock o) (l : Link) (now : Instant) (s : σ) :
    ((o.stream.poll sock l now s).1 = .ok .dead ↔ 0 < o.inFlight ∧ o.latest + o.limit < now) ∧
    ∀ what t l' s', let o' := o.act sock what t l' s'
      o.clock ≤ t → o'.limit = o.limit → 0 < o.inFlight → o.inFlight ≤ o'.inFlight →
        ((o'.stream.poll sock l now s).1 = .ok .dead ↔ (o.stream.poll sock l now s).1 = .ok .dead) := by
  refine ⟨h.accurate.reports_dead_iff sock l now s, fun what t l' s' => ?_⟩
  intro o' ht hlimit hpos hle
  have hbegun : o'.begun = o.begun := if_neg fun hc => Nat.ne_of_gt hpos hc.1
  have hreleased : o'.released = o.released := by
    cases what with
    | receive p => exact if_neg (Nat.not_lt.mpr hle)
    | _ => rfl
  have hlatest : o'.latest = o.latest := by rw [latest, hreleased, hbegun, latest]
  rw [h.accurate.reports_dead_iff, (h.act what ht l' s').accurate.reports_dead_iff, hlatest, hlimit]
  exact ⟨fun hd => ⟨hpos, hd.2⟩, fun hd => ⟨Nat.lt_of_lt_of_le hpos hle, hd.2⟩⟩

/-- Two packets leave and the peer repeats its ACK. A poll at 600 sends both of them again, and yet the peer counts
as dead once 1000 have passed since the first of them left. -/
theorem Reached.dead_iff_retransmitted :
    let l : Link := { peer := Recorder.address, acks := { delay := 0 } }
    ∃ o, Reached Recorder.socket o ∧ o.inFlight = 2 ∧
      (o.stream.poll Recorder.socket l 600 {}).2.2.2.attempts.size = 2 ∧
      ((o.act Recorder.socket .poll 600 l {}).stream.poll Recorder.socket l 1000 {}).1 ≠ .ok .dead ∧
      ((o.act Recorder.socket .poll 600 l {}).stream.poll Recorder.socket l 1001 {}).1 = .ok .dead := by
  intro l
  have hstart : Reached Recorder.socket _ := .start 0 65535 { initialTimeout := 500, sendTimeout := 1000 }
  have hsent := (hstart.act (.send [1]) (Nat.le_refl 0) l {}).act (.send [2]) (Nat.zero_le 10) l {}
  have h := hsent.act (.receive (.ackOnly 65535)) (show 10 ≤ 400 by decide) l {}
  obtain ⟨hlate, hsame⟩ := h.dead_iff l 1001 {}
  have hagain := hsame .poll 600 l {} (by decide +kernel) (by decide +kernel) (by decide +kernel)
    (by decide +kernel)
  refine ⟨_, h, by decide +kernel, by decide +kernel, ?_, hagain.mpr (hlate.mpr (by decide +kernel))⟩
  rw [Ne, ((h.act .poll (show 400 ≤ 600 by decide) l {}).dead_iff l 1000 {}).1]
  decide +kernel

end SilenceWatch

end DatagramStreams
