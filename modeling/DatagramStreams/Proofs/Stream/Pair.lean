import DatagramStreams.Proofs.Stream.Endpoint

/-! Two endpoints of a reliable stream over a network that may lose, repeat, reorder and delay packets.
Each is sound by itself and feeds the other (`Feeds`): released ≤ accepted ≤ sent.
Main statement: `Paired.receive`, a packet that is not too old is read as what it was sent for.
-/

set_option autoImplicit false

namespace DatagramStreams

namespace Endpoint

structure Feeds (a b : Endpoint) : Prop where
  heard : b.heard <+: a.taken
  released_le : a.released.length ≤ b.heard.length
  heard_le : b.heard.length ≤ a.released.length + a.window.inFlight

theorem Feeds.grow_left {a a' b : Endpoint} (h : Feeds a b) (hg : Grows a a') : Feeds a' b where
  heard := h.heard.trans hg.taken
  released_le := hg.released ▸ h.released_le
  heard_le := by
    have h1 := h.heard_le
    have h2 := hg.inFlight
    rw [hg.released]
    omega

theorem Feeds.grow_right {a b b' : Endpoint} (h : Feeds a b) (hg : Grows b b') : Feeds a b' where
  heard := hg.heard ▸ h.heard
  released_le := hg.heard ▸ h.released_le
  heard_le := hg.heard ▸ h.heard_le

end Endpoint

/-- Both endpoints are sound and feed each other; `out` is the sequence of number 0 from `a` to `b`. -/
structure Paired (out inn : Seq) (a b : Endpoint) : Prop where
  left : a.Sound out inn
  right : b.Sound inn out
  outward : a.Feeds b
  inward : b.Feeds a

/-- A payload is accepted exactly when its number is the next one: no other that is near has its
sequence. -/
theorem Departure.Honest.reading {out inn : Seq} {taken : List Octets} {sent heard m : Nat} {i : Inbound}
    {d : Departure} (h : d.Honest inn out taken sent heard) (hi : i.sequence = inn.after m)
    (hold : d.packet.reliable = true → m ≤ d.number + Seq.halfSpace)
    (hnew : d.packet.reliable = true → d.number < m + Seq.halfSpace) :
    (d.packet.reliable = true ∧ d.number = m ∧
      ∃ x, taken[m]? = some x ∧ ReliableStream.reading i d.packet = i.accept x) ∨
    (¬ (d.packet.reliable = true ∧ d.number = m) ∧ ReliableStream.reading i d.packet = i) := by
  cases hr : d.packet.reliable with
  | false => exact .inr ⟨by simp, by simp [ReliableStream.reading, hr]⟩
  | true =>
    obtain ⟨-, x, hx, hp, hs, -⟩ := h.payload hr
    by_cases hm : d.number = m
    · refine .inl ⟨rfl, hm, x, hm ▸ hx, ?_⟩
      simp [ReliableStream.reading, hr, hp, hs, hi, hm]
    · refine .inr ⟨fun hc => hm hc.2, ?_⟩
      have hne : d.packet.sequence ≠ i.sequence := by
        rw [hs, hi]
        intro he
        have h1 := hold hr
        have h2 := hnew hr
        simp only [Seq.halfSpace] at h1 h2
        exact hm (Seq.after_inj he (by simp only [Seq.space]; omega) (by simp only [Seq.space]; omega))
      simp [ReliableStream.reading, hr, hp, hne]

namespace Paired

variable {out inn : Seq} {a b : Endpoint}

theorem symm (h : Paired out inn a b) : Paired inn out b a := ⟨h.right, h.left, h.inward, h.outward⟩

theorem start (inn out : Seq) (config config' : Settings) (peer peer' : Address) :
    Paired out inn (.start inn out config peer) (.start out inn config' peer') :=
  ⟨Endpoint.sound_start config peer, Endpoint.sound_start config' peer',
    ⟨List.prefix_rfl, Nat.le_refl _, Nat.zero_le _⟩, ⟨List.prefix_rfl, Nat.le_refl _, Nat.zero_le _⟩⟩

theorem grow (h : Paired out inn a b) {a' : Endpoint} (hs : a'.Sound out inn) (hg : a.Grows a') :
    Paired out inn a' b :=
  ⟨hs, h.right, h.outward.grow_left hg, h.inward.grow_right hg⟩

theorem number_lt (h : Paired out inn a b) {d : Departure} (hd : d ∈ b.departures)
    (hr : d.packet.reliable = true) :
    d.number < b.released.length + b.window.inFlight ∧ d.number < a.heard.length + Seq.halfSpace := by
  have hn := ((h.right.honest d hd).payload hr).1
  have hmax : b.window.inFlight ≤ SendWindow.maxSize := h.right.carries.regular.inFlight_le
  have hle := h.inward.released_le
  simp only [SendWindow.maxSize, Seq.halfSpace] at *
  omega

theorem acknowledged (h : Paired out inn a b) {d : Departure} (hd : d ∈ b.departures) (hf : a.Fresh d)
    (now : Instant) : ∃ n, a.stream.acknowledged d.packet.ack now = .ok n ∧
      a.released.length + n ≤ b.heard.length ∧
      (d.packet.hasAck = true → n = d.accepted - a.released.length) := by
  have hrel := h.outward.released_le
  cases hx : d.packet.ack with
  | none => exact ⟨0, rfl, hrel, by simp [Packet.hasAck, hx]⟩
  | some x =>
    obtain ⟨rfl, hle⟩ := (h.right.honest d hd).ack x hx
    have hsent := h.outward.heard_le
    have hold := hf.2 (by simp [Packet.hasAck, hx])
    have ha := SendWindow.Holds.acknowledge_number h.left.carries (m := d.accepted) (by
      show d.accepted ≤ a.released.length + a.window.inFlight
      omega) hold now
    exact ⟨d.accepted - a.released.length, ha, by omega, fun _ => rfl⟩

theorem heard_of_hears (h : Paired out inn a b) {d : Departure} (hd : d ∈ b.departures) (hf : a.Fresh d)
    {n : Nat} {a' : Endpoint} (hh : a.Hears d.packet n a') :
    (d.packet.reliable = true ∧ d.number = a.heard.length ∧
      ∃ x, b.taken[a.heard.length]? = some x ∧ a'.heard = a.heard ++ [x]) ∨
    (¬ (d.packet.reliable = true ∧ d.number = a.heard.length) ∧ a'.heard = a.heard) := by
  have hread := (h.right.honest d hd).reading h.left.inbound hf.1 (fun hr => (h.number_lt hd hr).2)
  rw [hh.heard]
  rcases hread with ⟨hr, hn, x, hx, he⟩ | ⟨hn, he⟩
  · exact .inl ⟨hr, hn, x, hx, by simp [he, Endpoint.heard]⟩
  · exact .inr ⟨hn, by rw [he]; rfl⟩

theorem hears (h : Paired out inn a b) {d : Departure} (hd : d ∈ b.departures) (hf : a.Fresh d)
    {now : Instant} {n : Nat} (hn : a.stream.acknowledged d.packet.ack now = .ok n) {a' : Endpoint}
    (hs : a'.Sound out inn) (hh : a.Hears d.packet n a') : Paired out inn a' b := by
  obtain ⟨k, hk, hrel, -⟩ := h.acknowledged hd hf now
  obtain rfl : k = n := by
    rw [hk] at hn
    exact Except.ok.inj hn
  have hinflight := hh.inFlight
  have hsent := h.outward.heard_le
  refine ⟨hs, h.right, ⟨hh.taken ▸ h.outward.heard, hh.released ▸ hrel, ?_⟩, ?_⟩
  · rw [hh.released]
    omega
  · have hpre := h.inward.heard
    have hle := h.inward.released_le
    have hlt := h.inward.heard_le
    rcases h.heard_of_hears hd hf hh with ⟨hr, hnum, x, hx, he⟩ | ⟨-, he⟩
    · have hnumber := (h.number_lt hd hr).1
      have hlen : a'.heard.length = a.heard.length + 1 := by simp [he]
      refine ⟨?_, by omega, by omega⟩
      obtain ⟨more, hmore⟩ := hpre
      rw [← hmore, List.getElem?_append_right (Nat.le_refl _), Nat.sub_self] at hx
      obtain ⟨rest, rfl⟩ : ∃ rest, more = x :: rest := by
        cases more with
        | nil => simp at hx
        | cons y rest => exact ⟨rest, by simpa using hx⟩
      exact ⟨rest, by rw [he, ← hmore, List.append_assoc]; rfl⟩
    · rw [← he] at hpre hle hlt
      exact ⟨hpre, hle, hlt⟩

theorem receive (h : Paired out inn a b) {d : Departure} (hd : d ∈ b.departures) (hf : a.Fresh d)
    (plan : List (Option IoKind)) (now : Instant) : ∃ n, a.stream.acknowledged d.packet.ack now = .ok n ∧
      (a.receive d.packet plan now).1 = .ok () ∧ a.Hears d.packet n (a.receive d.packet plan now).2 ∧
      (a.receive d.packet plan now).2.stream.outbound.sequence = a.stream.outbound.sequence ∧
      Paired out inn (a.receive d.packet plan now).2 b := by
  obtain ⟨k, hk, -⟩ := h.acknowledged hd hf now
  rcases Endpoint.receive_sound h.left d.packet plan now with ⟨fault, ha, -⟩ | ⟨n, ha, hr, hs, hh, hseq⟩
  · rw [hk] at ha
    cases ha
  · exact ⟨n, ha, hr, hh, hseq, h.hears hd hf ha hs hh⟩

end Paired

end DatagramStreams
