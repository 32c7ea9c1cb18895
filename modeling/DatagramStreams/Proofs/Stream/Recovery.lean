import DatagramStreams.Proofs.Stream.Waiting
import DatagramStreams.Proofs.Stream.Willing

/-! One undisturbed round between two endpoints, after whatever has happened before: everything in flight
is sent again, accepted, and acknowledged.
Main statement: `clean_round`.
-/

set_option autoImplicit false

namespace DatagramStreams

def Endpoint.Recent (e : Endpoint) (d : Departure) : Prop :=
  d ∈ e.departures ∧ e.released.length ≤ d.number ∧ d.accepted = e.heard.length

def Endpoint.hearAll (e : Endpoint) : List (Departure × Instant) → Endpoint
  | [] => e
  | (d, now) :: rest => hearAll (e.hear d [] now).2 rest

@[simp] theorem Endpoint.hearAll_nil (e : Endpoint) : e.hearAll [] = e := rfl

theorem Endpoint.hearAll_cons (e : Endpoint) (x : Departure × Instant) (rest : List (Departure × Instant)) :
    e.hearAll (x :: rest) = (e.hear x.1 [] x.2).2.hearAll rest := rfl

theorem Endpoint.hearAll_append (e : Endpoint) (ds ds' : List (Departure × Instant)) :
    e.hearAll (ds ++ ds') = (e.hearAll ds).hearAll ds' := by
  induction ds generalizing e with
  | nil => rfl
  | cons x rest ih => rw [List.cons_append, hearAll_cons, hearAll_cons, ih]

/-- The next action of `e` at `u` will find that it owes an ACK of all it has heard, and that it has
waited long enough to go out on its own. -/
def Endpoint.Owes (u : Instant) (e : Endpoint) : Prop :=
  e.link.acks.ack = some e.stream.inbound.sequence ∧ e.link.acks.timer.hasPassed u e.link.acks.delay = true

theorem SendWindow.retransmitDue_of_hasPassed {w : SendWindow} {now : Instant}
    (h : w.retransmitTimer.hasPassed now w.timeout = true) : (w.retransmitDue now).1 = true := by
  unfold retransmitDue
  split
  · rfl
  · rfl

namespace Endpoint

variable {out inn : Seq} {e : Endpoint}

theorem Sound.poll_clean (h : e.Sound out inn) {now : Instant}
    (hlive : e.stream.outbound.isDead now = false) : ∃ ps tail,
      (e.poll [] now).2.departures =
        e.departures ++ (Link.load e.link.acks.ack ps ++ tail).map (e.poll [] now).2.depart ∧
      (∀ p ∈ tail, p.reliable = false) ∧
      ((e.window.retransmitDue now).1 = true ∨ e.window.inFlight = 0 →
        ps = (e.poll [] now).2.window.packets) ∧
      ∀ a, e.link.acks.ack = some a → e.link.acks.timer.hasPassed now e.link.acks.delay = true →
        ∃ q rest, Link.load e.link.acks.ack ps ++ tail = q :: rest ∧ q.ack = some a := by
  obtain ⟨r', l', s', ps, tail, hr, hpassed, htail, hall, hack⟩ :=
    ReliableStream.poll_willing h.carries e.link hlive Recorder.willing_playing
  refine ⟨ps, tail, ?_, htail, fun hdue => ?_, hack⟩
  · simp only [poll, hr]
    exact departures_emit _ hpassed
  · simp only [poll, hr]
    exact hall hdue

theorem recent_poll {now : Instant} {new : List Packet}
    (hd : (e.poll [] now).2.departures = e.departures ++ new.map (e.poll [] now).2.depart) {d : Departure}
    (hm : d ∈ (e.poll [] now).2.departures.drop e.departures.length) : (e.poll [] now).2.Recent d := by
  have hmem := List.mem_of_mem_drop hm
  rw [hd, List.drop_left] at hm
  obtain ⟨p, -, rfl⟩ := List.mem_map.mp hm
  exact ⟨hmem, Nat.le_add_right _ _, rfl⟩

theorem isDead_of_poll {now : Instant} (h : (e.poll [] now).1 ≠ .ok .dead) :
    e.stream.outbound.isDead now = false := by
  cases hdead : e.stream.outbound.isDead now with
  | false => rfl
  | true => exact absurd (by simp [poll, ReliableStream.poll, hdead]) h

theorem Sound.retransmitDue_or_empty (h : e.Sound out inn) {now : Instant}
    (ht : ∀ s, e.window.retransmitTimer.started = some s → e.window.timeout < Span.elapsed s now) :
    (e.window.retransmitDue now).1 = true ∨ e.window.inFlight = 0 := by
  have hactive : e.window.retransmitTimer.isActive = !e.window.sent.isEmpty :=
    h.carries.regular.retransmit_active
  cases hs : e.window.sent with
  | nil => exact .inr (by rw [SendWindow.inFlight, hs]; rfl)
  | cons x rest =>
    rw [hs] at hactive
    exact .inl (SendWindow.retransmitDue_of_hasPassed (Timer.hasPassed_of_isActive hactive ht))

theorem Sound.number_window (h : e.Sound out inn) {i : Nat} {p : Packet}
    (hp : e.window.packets[i]? = some p) (x : Option Seq) :
    (e.depart (Link.loaded p x)).packet.reliable = true ∧
      (e.depart (Link.loaded p x)).number = e.released.length + i := by
  have hbears := (SendWindow.Holds.bears_window h.carries hp).1.loaded x
  have hi := (List.getElem?_eq_some_iff.mp hp).1
  rw [SendWindow.length_packets] at hi
  have hnumber := number_depart h.carries hbears (Nat.le_add_right _ _) (by omega)
  obtain ⟨y, -, -, -, hr, -⟩ := hbears
  exact ⟨hr, hnumber⟩

end Endpoint

namespace Paired

variable {out inn : Seq} {a b : Endpoint}

theorem fresh_of_recent (h : Paired out inn a b) {d : Departure} (hd : b.Recent d) : a.Fresh d := by
  have h1 := h.outward.released_le
  have h2 := h.inward.heard_le
  have hmax : b.window.inFlight ≤ SendWindow.maxSize := h.right.carries.regular.inFlight_le
  obtain ⟨-, hnum, hacc⟩ := hd
  simp only [SendWindow.maxSize] at hmax
  constructor <;> intro _ <;> simp only [Seq.halfSpace] <;> omega

theorem hear_recent (h : Paired out inn a b) {d : Departure} (hd : b.Recent d) (now : Instant) :
    ∃ n, Paired out inn (a.hear d [] now).2 b ∧
      (a.hear d [] now).2.window.inFlight + n = a.window.inFlight ∧
      (d.packet.hasAck = true → n = b.heard.length - a.released.length) := by
  have hf := h.fresh_of_recent hd
  obtain ⟨n, hn, -, hh, -, hp⟩ := h.receive hd.1 hf [] now
  obtain ⟨k, hk, -, hall⟩ := h.acknowledged hd.1 hf now
  obtain rfl : k = n := by
    rw [hk] at hn
    exact Except.ok.inj hn
  rw [h.hear_eq hd.1]
  exact ⟨k, hp, hh.inFlight, fun ha => hd.2.2 ▸ hall ha⟩

theorem hear_near (h : Paired out inn a b) {d : Departure} (hd : b.Recent d)
    (hnear : d.packet.reliable = true → d.number ≤ a.heard.length) (now : Instant) :
    Paired out inn (a.hear d [] now).2 b ∧
      (d.packet.reliable = true →
        (a.hear d [] now).2.heard.length = max a.heard.length (d.number + 1) ∧
        (a.hear d [] now).2.link =
          ReliableStream.owe a.link (a.hear d [] now).2.stream.inbound.sequence now) ∧
      (d.packet.reliable = false →
        (a.hear d [] now).2.heard = a.heard ∧ (a.hear d [] now).2.link = a.link) := by
  have hf := h.fresh_of_recent hd
  obtain ⟨n, -, hok, hh, -, hp⟩ := h.receive hd.1 hf [] now
  rw [h.hear_eq hd.1]
  -- It is the next one or one heard before, by its place on the ring too.
  have hclass : d.packet.reliable = true → a.stream.inbound.classify d.packet.sequence ≠ .ahead := by
    intro hr
    obtain ⟨-, x, -, -, hs, -⟩ := (h.right.honest d hd.1).payload hr
    have hold := hf.1 hr
    have hle := hnear hr
    rw [Inbound.classify, h.left.inbound, hs]
    by_cases heq : d.number = a.heard.length
    · simp [heq]
    · have hnew := Seq.not_isNew_after_add inn d.number (d := a.heard.length - d.number) (by omega) (by omega)
      rw [Nat.add_sub_cancel' hle] at hnew
      split <;> simp [hnew]
  have hok' : (a.stream.receive Recorder.socket a.link d.packet now (.playing [])).1 = .ok () := hok
  have hlink := ReliableStream.receive_near hok' hclass
  refine ⟨hp, fun hr => ⟨?_, ?_⟩, fun hr => ⟨?_, ?_⟩⟩
  · have hle := hnear hr
    rcases h.heard_of_hears hd.1 hf hh with ⟨-, hn, x, -, he⟩ | ⟨hn, he⟩
    · rw [he, List.length_append, List.length_singleton]
      omega
    · have hne : d.number ≠ a.heard.length := fun heq => hn ⟨hr, heq⟩
      rw [he]
      omega
  · obtain ⟨-, x, -, hx, -⟩ := (h.right.honest d hd.1).payload hr
    rw [hr, hx] at hlink
    exact hlink
  · rcases h.heard_of_hears hd.1 hf hh with ⟨hc, -⟩ | ⟨-, he⟩
    · simp [hr] at hc
    · exact he
  · rw [hr] at hlink
    exact hlink

theorem hearAll_recent (h : Paired out inn a b) (ds : List (Departure × Instant))
    (hds : ∀ x ∈ ds, b.Recent x.1) :
    Paired out inn (a.hearAll ds) b ∧ (a.hearAll ds).window.inFlight ≤ a.window.inFlight := by
  induction ds generalizing a with
  | nil => exact ⟨h, Nat.le_refl _⟩
  | cons x rest ih =>
    obtain ⟨n, hp, hi, -⟩ := h.hear_recent (hds x List.mem_cons_self) x.2
    obtain ⟨hp', hi'⟩ := ih hp fun y hy => hds y (List.mem_cons_of_mem _ hy)
    rw [Endpoint.hearAll_cons]
    exact ⟨hp', by omega⟩

/-- Payloads that arrive in order from one already heard on are heard up to the last, and the last of
them is owed an ACK. -/
theorem hearAll_data (h : Paired out inn a b) {delay : Span} {u : Instant}
    (ds : List (Departure × Instant)) {n : Nat}
    (hds : ∀ (i : Nat) (x : Departure × Instant), ds[i]? = some x →
      b.Recent x.1 ∧ x.1.packet.reliable = true ∧ x.1.number = n + i)
    (hn : n ≤ a.heard.length) (hle : a.heard.length ≤ n + ds.length) (hl : a.link.DueBy delay u)
    (ht : ∀ x ∈ ds, x.2 + delay < u) :
    Paired out inn (a.hearAll ds) b ∧ (a.hearAll ds).heard.length = n + ds.length ∧
      (ds ≠ [] → (a.hearAll ds).Owes u) := by
  induction ds generalizing a n with
  | nil => exact ⟨h, Nat.le_antisymm hle hn, fun hne => absurd rfl hne⟩
  | cons x rest ih =>
    simp only [List.length_cons] at hle ⊢
    obtain ⟨hrecent, hr, hnum⟩ := hds 0 x rfl
    rw [Nat.add_zero] at hnum
    obtain ⟨hp, hdata, -⟩ := h.hear_near hrecent (fun _ => hnum ▸ hn) x.2
    obtain ⟨hlen, hlink⟩ := hdata hr
    obtain ⟨hdue, hpassed⟩ := hl.owe (ht x List.mem_cons_self) (a.hear x.1 [] x.2).2.stream.inbound.sequence
    rw [← hlink] at hdue
    obtain ⟨hp', hlen', howes⟩ := ih hp (n := n + 1)
      (fun i y hy => by
        have hnext := hds (i + 1) y hy
        rwa [show n + (i + 1) = n + 1 + i by omega] at hnext)
      (by omega) (by omega) hdue (fun y hy => ht y (List.mem_cons_of_mem _ hy))
    rw [Endpoint.hearAll_cons]
    refine ⟨hp', by omega, fun _ => ?_⟩
    -- The ACK that is owed in the end is the one for the last payload.
    cases rest with
    | nil => exact ⟨by rw [Endpoint.hearAll_nil, hlink]; rfl, by
        rw [Endpoint.hearAll_nil, hlink, ← hl.1] at *
        exact hpassed⟩
    | cons y rest => exact howes (by simp)

theorem hearAll_other (h : Paired out inn a b) (ds : List (Departure × Instant))
    (hds : ∀ x ∈ ds, b.Recent x.1 ∧ x.1.packet.reliable = false) :
    Paired out inn (a.hearAll ds) b ∧ (a.hearAll ds).heard = a.heard ∧
      (a.hearAll ds).link = a.link := by
  induction ds generalizing a with
  | nil => exact ⟨h, rfl, rfl⟩
  | cons x rest ih =>
    obtain ⟨hrecent, hr⟩ := hds x List.mem_cons_self
    obtain ⟨hp, -, hsame⟩ := h.hear_near hrecent (fun hc => by simp [hr] at hc) x.2
    obtain ⟨hheard, hlink⟩ := hsame hr
    obtain ⟨hp', hheard', hlink'⟩ := ih hp fun y hy => hds y (List.mem_cons_of_mem _ hy)
    rw [Endpoint.hearAll_cons]
    exact ⟨hp', hheard'.trans hheard, hlink'.trans hlink⟩

end Paired

namespace Paired

variable {out inn : Seq} {a b : Endpoint}

theorem hearAll_copies (h : Paired out inn a b) {delay : Span} {u : Instant} {ack : Option Seq}
    {ds : List (Departure × Instant)}
    (hds : ds.map Prod.fst = (Link.load ack b.window.packets).map b.depart)
    (hrecent : ∀ x ∈ ds, b.Recent x.1) (hl : ∀ x ∈ ds, a.link.DueBy delay u ∧ x.2 + delay < u) :
    Paired out inn (a.hearAll ds) b ∧
      (a.hearAll ds).heard.length = b.released.length + b.window.inFlight ∧
      (b.window.inFlight ≠ 0 → (a.hearAll ds).Owes u) := by
  have hlen : ds.length = b.window.inFlight := by simpa using congrArg List.length hds
  have hnumbers : ∀ (i : Nat) (x : Departure × Instant), ds[i]? = some x →
      b.Recent x.1 ∧ x.1.packet.reliable = true ∧ x.1.number = b.released.length + i := by
    intro i x hx
    have hmap := congrArg (fun l => l[i]?) hds
    simp only [List.getElem?_map, hx, Option.map_some] at hmap
    obtain ⟨q, hq, hdepart⟩ := Option.map_eq_some_iff.mp hmap.symm
    obtain ⟨p, y, hp, rfl⟩ := Link.getElem?_load hq
    have hnum := h.right.number_window hp y
    rw [hdepart] at hnum
    exact ⟨hrecent x (List.mem_of_getElem? hx), hnum⟩
  have hstart := h.inward.released_le
  have hend := h.inward.heard_le
  rw [← hlen] at hend ⊢
  cases ds with
  | nil => exact ⟨h, Nat.le_antisymm hend hstart, fun hne => absurd rfl hne⟩
  | cons x rest =>
    obtain ⟨hp, hheard, howes⟩ := h.hearAll_data (x :: rest) hnumbers hstart hend
      (hl x List.mem_cons_self).1 fun y hy => (hl y hy).2
    exact ⟨hp, hheard, fun _ => howes (List.cons_ne_nil x rest)⟩

theorem hearAll_window (h : Paired out inn a b) {delay : Span} {u : Instant} {ack : Option Seq}
    {tail : List Packet} {ds : List (Departure × Instant)}
    (hds : ds.map Prod.fst = (Link.load ack b.window.packets ++ tail).map b.depart)
    (hrecent : ∀ x ∈ ds, b.Recent x.1) (htail : ∀ p ∈ tail, p.reliable = false)
    (hl : ∀ x ∈ ds, a.link.DueBy delay u ∧ x.2 + delay < u) :
    Paired out inn (a.hearAll ds) b ∧
      (a.hearAll ds).heard.length = b.released.length + b.window.inFlight ∧
      (b.window.inFlight ≠ 0 → (a.hearAll ds).Owes u) := by
  rw [List.map_append, List.map_eq_append_iff] at hds
  obtain ⟨data, other, rfl, hdata, hother⟩ := hds
  obtain ⟨hp, hheard, howes⟩ := h.hearAll_copies hdata
    (fun x hx => hrecent x (List.mem_append_left _ hx)) fun x hx => hl x (List.mem_append_left _ hx)
  have hothers : ∀ x ∈ other, b.Recent x.1 ∧ x.1.packet.reliable = false := by
    intro x hx
    refine ⟨hrecent x (List.mem_append_right _ hx), ?_⟩
    have hm := List.mem_map_of_mem (f := Prod.fst) hx
    rw [hother] at hm
    obtain ⟨p, hp, hdepart⟩ := List.mem_map.mp hm
    rw [← hdepart]
    exact htail p hp
  obtain ⟨hp', hheard', hlink'⟩ := hp.hearAll_other other hothers
  rw [Endpoint.hearAll_append]
  refine ⟨hp', by rw [hheard', hheard], fun hne => ?_⟩
  have hseq : ((a.hearAll data).hearAll other).stream.inbound.sequence =
      (a.hearAll data).stream.inbound.sequence := by
    rw [hp'.left.inbound, hp.left.inbound, hheard']
  obtain ⟨hack, hwait⟩ := howes hne
  exact ⟨by rw [hlink', hseq]; exact hack, by rw [hlink']; exact hwait⟩

end Paired

namespace Paired

variable {out inn : Seq} {a b : Endpoint}

theorem hearAll_ack (h : Paired out inn a b) {q : Packet} {rest : List Packet}
    {ds : List (Departure × Instant)} (hds : ds.map Prod.fst = (q :: rest).map b.depart)
    (hrecent : ∀ x ∈ ds, b.Recent x.1) (hq : q.hasAck = true)
    (hall : b.heard.length = a.released.length + a.window.inFlight) :
    (a.hearAll ds).window.inFlight = 0 := by
  cases ds with
  | nil => simp at hds
  | cons x ds =>
    obtain ⟨hx, -⟩ := List.cons.inj hds
    obtain ⟨n, hp, hi, hn⟩ := h.hear_recent (hrecent x List.mem_cons_self) x.2
    have hcounts := hn (by rw [hx]; exact hq)
    obtain ⟨-, hle⟩ := hp.hearAll_recent ds fun y hy => hrecent y (List.mem_cons_of_mem _ hy)
    rw [Endpoint.hearAll_cons]
    omega

theorem heard_eq (h : Paired out inn a b)
    (hall : b.heard.length = a.released.length + a.window.inFlight) :
    b.heard = a.released ++ Packet.payloads a.window.packets := by
  have hsent : a.released ++ Packet.payloads a.window.packets <+: a.taken := by
    rw [h.left.taken_eq, ← List.append_assoc]
    exact List.prefix_append _ _
  have hlen : b.heard.length = (a.released ++ Packet.payloads a.window.packets).length := by
    rw [List.length_append, hall]
    exact congrArg _ (SendWindow.Holds.length_payloads h.left.carries).symm
  exact (List.prefix_of_prefix_length_le h.outward.heard hsent (Nat.le_of_eq hlen)).eq_of_length hlen

end Paired

/-- One undisturbed round after any history. `a` polls when nothing is in flight or its retransmission
is due, and not too late; `b` hears every packet of that poll in order, and polls when the delay of ACKs
has passed; `a` hears every packet of that poll in order. Then `b` has heard all that was in flight, and
nothing is in flight any more. -/
theorem clean_round {a b : Endpoint} (h : Reached (· ≤ ·) a b) {t u : Instant}
    (hdue : a.window.inFlight = 0 ∨
      ∀ s, a.window.retransmitTimer.started = some s → a.window.timeout < Span.elapsed s t)
    (hlive : ∀ s, a.window.closeTimer.started = some s →
      Span.elapsed s t ≤ a.stream.outbound.sendTimeout)
    {there back : List (Departure × Instant)}
    (hthere : there.map Prod.fst = (a.poll [] t).2.departures.drop a.departures.length)
    (htimes : ∀ x ∈ there, b.clock ≤ x.2 ∧ x.2 + b.link.acks.delay < u)
    (hlive' : ((b.hearAll there).poll [] u).1 ≠ .ok .dead)
    (hback : back.map Prod.fst =
      ((b.hearAll there).poll [] u).2.departures.drop (b.hearAll there).departures.length) :
    ((b.hearAll there).poll [] u).2.heard =
        (a.poll [] t).2.released ++ Packet.payloads (a.poll [] t).2.window.packets ∧
      ((a.poll [] t).2.hearAll back).window.packets = [] := by
  obtain ⟨out, inn, hp, -, -⟩ := h.paired
  obtain ⟨hsound, hgrow, -⟩ := Endpoint.poll_sound hp.left [] t
  have hp₁ := (hp.grow hsound hgrow).symm
  -- `a` is alive, and everything in flight leaves again.
  have halive : a.stream.outbound.isDead t = false :=
    Timer.hasPassed_eq_false hlive
  have hresend : (a.window.retransmitDue t).1 = true ∨ a.window.inFlight = 0 :=
    hdue.elim .inr hp.left.retransmitDue_or_empty
  obtain ⟨ps, tail, hdepartures, htail, hall, -⟩ := hp.left.poll_clean halive
  obtain rfl := hall hresend
  -- `b` hears all of it and then owes an ACK.
  have hdueBy : ∀ x ∈ there, b.link.DueBy b.link.acks.delay u ∧ x.2 + b.link.acks.delay < u := by
    intro x hx
    obtain ⟨hclock, hu⟩ := htimes x hx
    exact ⟨(h.onTime.2.mono hclock).dueBy rfl hu, hu⟩
  obtain ⟨hp₂, hheard, howes⟩ := hp₁.hearAll_window
    (by rw [hthere, hdepartures, List.drop_left])
    (fun x hx => Endpoint.recent_poll hdepartures (hthere ▸ List.mem_map_of_mem hx)) htail hdueBy
  obtain ⟨hsound', hgrow', -⟩ := Endpoint.poll_sound hp₂.left [] u
  have hp₃ := (hp₂.grow hsound' hgrow').symm
  rw [← hgrow'.heard] at hheard
  refine ⟨hp₃.heard_eq hheard, ?_⟩
  -- Its first packet carries that ACK.
  obtain ⟨ps', tail', hdepartures', -, -, hack⟩ := hp₂.left.poll_clean (Endpoint.isDead_of_poll hlive')
  have hrecent : ∀ x ∈ back, ((b.hearAll there).poll [] u).2.Recent x.1 :=
    fun x hx => Endpoint.recent_poll hdepartures' (hback ▸ List.mem_map_of_mem hx)
  rw [hdepartures', List.drop_left] at hback
  apply List.eq_nil_of_length_eq_zero
  rw [SendWindow.length_packets]
  by_cases hempty : (a.poll [] t).2.window.inFlight = 0
  · obtain ⟨-, hle⟩ := hp₃.hearAll_recent back hrecent
    omega
  · obtain ⟨hwaits, hpassed⟩ := howes hempty
    obtain ⟨q, rest, hnew, hq⟩ := hack _ hwaits hpassed
    rw [hnew] at hback
    exact hp₃.hearAll_ack hback hrecent (by simp [Packet.hasAck, hq]) hheard

/-- The only packet of `a` is lost and leaves again once the timeout has passed. -/
theorem clean_round_after_loss :
    let a := ((Endpoint.start 7 65535 {} Recorder.address).send [1] [] 0).2
    let b := Endpoint.start 65535 7 {} Recorder.address
    let a₁ := (a.poll [] (2 * Span.second)).2
    let there := (a₁.departures.drop a.departures.length).map fun d => (d, 3 * Span.second)
    let b₁ := b.hearAll there
    let b₂ := (b₁.poll [] (4 * Span.second)).2
    let back := (b₂.departures.drop b₁.departures.length).map fun d => (d, 5 * Span.second)
    there.length = 1 ∧ back.length = 1 ∧ b₂.heard = [[1]] ∧ (a₁.hearAll back).window.packets = [] := by
  have hpairs : ∀ (ds : List Departure) (t : Instant), (ds.map fun d => (d, t)).map Prod.fst = ds := by
    simp [Function.comp_def]
  refine ⟨rfl, rfl, clean_round (t := 2 * Span.second) (u := 4 * Span.second)
    (.send (.start 7 65535 {} {} Recorder.address Recorder.address) [1] (by simp [Mild]) (Nat.le_refl 0))
    (.inr (by decide)) (by decide) (hpairs _ _) (by decide) (fun hdead => ?_) (hpairs _ _)⟩
  have halive : (Except.ok .alive : Except IoError StreamHealth) = .ok .dead := hdead
  cases halive

end DatagramStreams
