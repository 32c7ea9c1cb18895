import DatagramStreams.Proofs.Stream.Exchange

/-! An endpoint of a reliable stream, with the packets that have left it. Sequences on the wire have
sixteen bits; here every payload has a number that never wraps, and every packet that has left remembers
the number it stands for.
Main statements: an endpoint stays `Sound` whatever it sends (`send_sound`, `poll_sound`, `carry_sound`)
and whatever it receives (`receive_sound`).
-/

set_option autoImplicit false

namespace DatagramStreams

/-- A packet that has left an endpoint; the network may deliver it at any time from then on, any number
of times or never. -/
structure Departure where
  packet : Packet
  /-- Number of the payload in it, among all that its sender has taken. -/
  number : Nat
  /-- How many payloads its sender had accepted when it left. -/
  accepted : Nat

namespace Departure

def numbers (ds : List Departure) : List Nat :=
  (ds.filter fun d => d.packet.reliable).map number

@[simp] theorem numbers_append (ds ds' : List Departure) :
    numbers (ds ++ ds') = numbers ds ++ numbers ds' := by
  simp [numbers]

theorem numbers_cons {d : Departure} (h : d.packet.reliable = true) (ds : List Departure) :
    numbers (d :: ds) = d.number :: numbers ds := by
  simp [numbers, h]

theorem eraseDups_append_singleton (l : List Nat) (n : Nat) :
    (l ++ [n]).eraseDups = if n ∈ l then l.eraseDups else l.eraseDups ++ [n] := by
  rw [List.eraseDups_append, List.removeAll]
  split
  · simp_all
  · simp_all [List.eraseDups_cons]

end Departure

/-- A reliable stream on its link, with what has happened to both. -/
structure Endpoint where
  stream : ReliableStream
  link : Link
  taken : List Octets := []
  handed : List Octets := []
  released : List Octets := []
  departures : List Departure := []
  clock : Instant := 0

def SendWindow.departed (before after : SendWindow) : List Packet :=
  before.packets.take (before.inFlight - after.inFlight)

namespace Endpoint

def start (inn out : Seq) (config : Settings) (peer : Address) : Endpoint where
  stream := .new inn out config
  link := { peer, acks := { delay := config.ackDelay } }

def window (e : Endpoint) : SendWindow := e.stream.outbound.window

def heard (e : Endpoint) : List Octets := e.handed ++ e.stream.inbound.delivered.toList

/-- The base of the window stands for the number of payloads released, and counts up from there. -/
def depart (e : Endpoint) (p : Packet) : Departure where
  packet := p
  number := e.released.length + Seq.distance e.window.base p.sequence
  accepted := e.heard.length

def emit (e : Endpoint) (r : Recorder) : Endpoint :=
  { e with departures := e.departures ++ r.passed.map e.depart }

def send (e : Endpoint) (payload : Octets) (plan : List (Option IoKind)) (now : Instant) :
    Except ConnectionError Unit × Endpoint :=
  let (result, stream, link, r) := e.stream.send Recorder.socket e.link payload now (.playing plan)
  (result,
    { e with stream, link, taken := e.taken ++ Outbound.taking payload result, clock := now }.emit r)

def poll (e : Endpoint) (plan : List (Option IoKind)) (now : Instant) :
    Except IoError StreamHealth × Endpoint :=
  let (result, stream, link, r) := e.stream.poll Recorder.socket e.link now (.playing plan)
  (result, { e with stream, link, clock := now }.emit r)

def carry (e : Endpoint) (p : Packet) (plan : List (Option IoKind)) (now : Instant) : Endpoint :=
  let (link, r) := e.link.sendQuietly Recorder.socket p now (.playing plan)
  { e with link, clock := now }.emit r

def handOver (e : Endpoint) : Endpoint :=
  let (payloads, stream) := e.stream.takeDelivered
  { e with stream, handed := e.handed ++ payloads }

def receive (e : Endpoint) (p : Packet) (plan : List (Option IoKind)) (now : Instant) :
    Except ConnectionError Unit × Endpoint :=
  let (result, stream, link, r) := e.stream.receive Recorder.socket e.link p now (.playing plan)
  (result,
    { e with
      stream
      link
      released := e.released ++ Packet.payloads (e.window.departed stream.outbound.window)
      clock := now }.emit r)

def hear (e : Endpoint) (d : Departure) (plan : List (Option IoKind)) (now : Instant) :
    Except ConnectionError Unit × Endpoint :=
  match Packet.decode d.packet.encode with
  | .ok p => e.receive p plan now
  | .error _ => (.ok (), e)

/-- Not too old to be told apart on the ring: its payload lies at most half a ring behind the number of
payloads accepted, its ACK at most half a ring behind the base of the window. -/
def Fresh (e : Endpoint) (d : Departure) : Prop :=
  (d.packet.reliable = true → e.heard.length ≤ d.number + Seq.halfSpace) ∧
    (d.packet.hasAck = true → e.released.length ≤ d.accepted + Seq.halfSpace)

end Endpoint

/-- What a packet that has left says is true: its payload is the one of its number, which its sender has
sent, and its ACK counts payloads that its sender has accepted. -/
structure Departure.Honest (out inn : Seq) (taken : List Octets) (sent heard : Nat) (d : Departure) :
    Prop where
  fits : d.packet.Fits
  ack : ∀ x, d.packet.ack = some x → x = inn.after d.accepted ∧ d.accepted ≤ heard
  payload : d.packet.reliable = true → d.number < sent ∧ d.packet.Bears out taken d.number

theorem Departure.Honest.mono {out inn : Seq} {taken taken' : List Octets} {sent sent' heard heard' : Nat}
    {d : Departure} (h : d.Honest out inn taken sent heard) (ht : taken <+: taken') (hs : sent ≤ sent')
    (hh : heard ≤ heard') : d.Honest out inn taken' sent' heard' where
  fits := h.fits
  ack x hx := ⟨(h.ack x hx).1, Nat.le_trans (h.ack x hx).2 hh⟩
  payload hr := by
    obtain ⟨hn, x, hx, hp⟩ := h.payload hr
    obtain ⟨more, rfl⟩ := ht
    have hl := (List.getElem?_eq_some_iff.mp hx).1
    exact ⟨by omega, x, by rw [List.getElem?_append_left hl]; exact hx, hp⟩

namespace Endpoint

structure Sound (out inn : Seq) (e : Endpoint) : Prop where
  carries : e.stream.outbound.Carries out e.released.length e.taken
  released : e.released <+: e.taken
  inbound : e.stream.inbound.sequence = inn.after e.heard.length
  offers : e.link.acks.Offers e.stream.inbound.sequence
  honest : ∀ d ∈ e.departures,
    d.Honest out inn e.taken (e.released.length + e.window.inFlight) e.heard.length
  order : (Departure.numbers e.departures).eraseDups =
    List.range (e.released.length + e.window.inFlight)

structure Grows (e e' : Endpoint) : Prop where
  taken : e.taken <+: e'.taken
  heard : e'.heard = e.heard
  released : e'.released = e.released
  inFlight : e.window.inFlight ≤ e'.window.inFlight

variable {out inn : Seq} {e e' : Endpoint}

theorem departures_emit (e : Endpoint) {r : Recorder} {new : List Packet} (h : r.passed = new) :
    (e.emit r).departures = e.departures ++ new.map (e.emit r).depart := by
  subst h
  rfl

/-- The next payload gets the number it has among all that were taken. A failing socket breaks this. -/
def Aligned (out : Seq) (e : Endpoint) : Prop :=
  e.stream.outbound.sequence = out.after e.taken.length

theorem sound_start (config : Settings) (peer : Address) :
    (start inn out config peer).Sound out inn where
  carries :=
    { count := rfl
      packets := rfl
      base := (Seq.after_zero out).symm
      regular := SendWindow.regular_new out config.initialTimeout config.fastRetransmit
      used := rfl
      fits := by simp [start] }
  released := List.prefix_rfl
  inbound := (Seq.after_zero inn).symm
  offers := by intro x hx; simp [start] at hx
  honest := by simp [start]
  order := rfl

theorem number_depart (hc : e.stream.outbound.Carries out e.released.length e.taken) {n : Nat} {p : Packet}
    (hp : p.Bears out e.taken n) (hb : e.released.length ≤ n)
    (hn : n < e.released.length + e.window.inFlight) : (e.depart p).number = n := by
  obtain ⟨x, -, -, hs, -⟩ := hp
  have hbase : e.window.base = out.after e.released.length := hc.base
  have hmax : e.window.inFlight ≤ SendWindow.maxSize := hc.regular.inFlight_le
  have hdist := Seq.distance_after_add out e.released.length (d := n - e.released.length)
    (by simp only [SendWindow.maxSize, Seq.space] at *; omega)
  rw [Nat.add_sub_cancel' hb] at hdist
  simp only [depart, hbase, hs, hdist]
  omega

theorem numbers_emits (hc : e.stream.outbound.Carries out e.released.length e.taken) {a : Seq} {k k' : Nat}
    {new : List Packet} (he : Emits out e.taken e.released.length a k new k')
    (hk : k' ≤ e.released.length + e.window.inFlight) {l : List Nat} (hl : l.eraseDups = List.range k) :
    (l ++ Departure.numbers (new.map e.depart)).eraseDups = List.range k' := by
  induction he generalizing l with
  | nil k => simpa [Departure.numbers] using hl
  | other hr _ _ _ ih => simpa [Departure.numbers, depart, hr] using ih hk hl
  | @again k k' n p ps hb hn hp _ rest ih =>
    have hle := rest.le
    have hnumber := number_depart hc hp hb (by omega)
    -- Sent before: its number adds nothing.
    have hmem : n ∈ l := List.mem_eraseDups.mp (by rw [hl]; exact List.mem_range.mpr hn)
    have hl' : (l ++ [n]).eraseDups = List.range k := by
      rw [Departure.eraseDups_append_singleton, if_pos hmem, hl]
    obtain ⟨x, -, -, -, hr, -⟩ := hp
    have hrest := ih hk hl'
    rw [List.append_assoc] at hrest
    rw [List.map_cons, Departure.numbers_cons hr, hnumber]
    exact hrest
  | @next k k' p ps hb hp _ rest ih =>
    have hle := rest.le
    have hnumber := number_depart hc hp hb (by omega)
    -- Sent for the first time: its number is the one after all that have been.
    have hmem : k ∉ l := fun hm => by
      have hrange := List.mem_eraseDups.mpr hm
      rw [hl] at hrange
      simp at hrange
    have hl' : (l ++ [k]).eraseDups = List.range (k + 1) := by
      rw [Departure.eraseDups_append_singleton, if_neg hmem, hl, List.range_succ]
    obtain ⟨x, -, -, -, hr, -⟩ := hp
    have hrest := ih hk hl'
    rw [List.append_assoc] at hrest
    rw [List.map_cons, Departure.numbers_cons hr, hnumber]
    exact hrest

theorem honest_depart {k : Nat} {new : List Packet}
    (hc : e.stream.outbound.Carries out e.released.length e.taken)
    (hi : e.stream.inbound.sequence = inn.after e.heard.length)
    (he : Emits out e.taken e.released.length e.stream.inbound.sequence k new
      (e.released.length + e.window.inFlight)) :
    ∀ d ∈ new.map e.depart, d.Honest out inn e.taken (e.released.length + e.window.inFlight)
      e.heard.length := by
  intro d hd
  obtain ⟨p, hp, rfl⟩ := List.mem_map.mp hd
  obtain ⟨hf, ha, hn⟩ := he.of_mem hp
  refine ⟨hf, fun x hx => ⟨hi ▸ ha x hx, Nat.le_refl _⟩, fun hr => ?_⟩
  obtain ⟨n, hb, hlt, hbears⟩ := hn hr
  have hnumber := number_depart hc hbears hb hlt
  exact ⟨hnumber ▸ hlt, hnumber ▸ hbears⟩

theorem Sound.grow (h : e.Sound out inn) (hg : Grows e e') {new : List Packet}
    (hc : e'.stream.outbound.Carries out e.released.length e'.taken)
    (hi : e'.stream.inbound.sequence = e.stream.inbound.sequence)
    (ho : e'.link.acks.Offers e.stream.inbound.sequence)
    (hd : e'.departures = e.departures ++ new.map e'.depart)
    (he : Emits out e'.taken e.released.length e.stream.inbound.sequence
      (e.released.length + e.window.inFlight) new (e.released.length + e'.window.inFlight)) :
    e'.Sound out inn := by
  have hc' : e'.stream.outbound.Carries out e'.released.length e'.taken := hg.released ▸ hc
  have hi' : e'.stream.inbound.sequence = inn.after e'.heard.length := by rw [hi, hg.heard, h.inbound]
  have hle := he.le
  rw [← hg.released, ← hi] at he
  refine ⟨hc', hg.released ▸ h.released.trans hg.taken, hi', hi ▸ ho, fun d hm => ?_, ?_⟩
  · rw [hd] at hm
    rcases List.mem_append.mp hm with hm | hm
    · exact (h.honest d hm).mono hg.taken (hg.released ▸ hle) (hg.heard ▸ Nat.le_refl _)
    · exact honest_depart hc' hi' he d hm
  · rw [hd, Departure.numbers_append]
    exact numbers_emits hc' he (Nat.le_refl _) (hg.released ▸ h.order)

theorem send_sound (h : e.Sound out inn) (ha : e.Aligned out) (payload : Octets)
    (plan : List (Option IoKind)) (now : Instant) :
    (e.send payload plan now).2.Sound out inn ∧ e.Grows (e.send payload plan now).2 ∧
      (∀ I, Link.Stable now I → I e.link → I (e.send payload plan now).2.link) ∧
      ((e.send payload plan now).2.Aligned out ∨
        ∃ k, (e.send payload plan now).1 = .error (.io (.injected k)) ∧ k ≠ .wouldBlock ∧
          some k ∈ plan) := by
  obtain ⟨result, o, l', s', new, hr, hc, hh, he, hs⟩ :=
    Outbound.send_carries h.carries ha h.offers payload now (.playing plan)
  have hpassed : s'.passed = new := by simpa using hh.passed
  simp only [send, ReliableStream.send, hr]
  have hg : e.Grows ({ e with
      stream := ⟨o, e.stream.inbound⟩
      link := l'
      taken := e.taken ++ Outbound.taking payload result
      clock := now }.emit s') :=
    ⟨List.prefix_append _ _, rfl, rfl, Nat.le_of_add_le_add_left he.le⟩
  refine ⟨h.grow hg hc rfl (hh.offers h.offers) (departures_emit _ hpassed) he, hg, hh.stable, ?_⟩
  rcases hs with hs | ⟨k, hk, hne, hall⟩
  · exact .inl hs
  · exact .inr ⟨k, hk, hne, hall (fun k => some k ∈ plan) (Recorder.allows_playing fun _ hm => hm)⟩

theorem poll_sound (h : e.Sound out inn) (plan : List (Option IoKind)) (now : Instant) :
    (e.poll plan now).2.Sound out inn ∧ e.Grows (e.poll plan now).2 ∧
      (∀ I, Link.Stable now I → I e.link → I (e.poll plan now).2.link) ∧
      (e.poll plan now).2.stream.outbound.sequence = e.stream.outbound.sequence := by
  obtain ⟨result, r', l', s', new, hr, hi, hc, hs, hh, he⟩ :=
    ReliableStream.poll_emits h.carries h.offers now (.playing plan)
  have hpassed : s'.passed = new := by simpa using hh.passed
  simp only [poll, hr]
  have hg : e.Grows ({ e with stream := r', link := l', clock := now }.emit s') :=
    ⟨List.prefix_rfl, by simp only [heard, emit, hi], rfl, Nat.le_of_add_le_add_left he.le⟩
  exact ⟨h.grow hg hc (congrArg Inbound.sequence hi) (hh.offers h.offers) (departures_emit _ hpassed) he,
    hg, hh.stable, hs⟩

theorem carry_sound (h : e.Sound out inn) {p : Packet} (hp : p.Minor e.stream.inbound.sequence)
    (plan : List (Option IoKind)) (now : Instant) :
    (e.carry p plan now).Sound out inn ∧ e.Grows (e.carry p plan now) ∧
      ∀ I, Link.Stable now I → I e.link → I (e.carry p plan now).link := by
  obtain ⟨l', s', new, hs, hh, hm⟩ := Link.sendQuietly_minor h.offers hp now (.playing plan)
  have hpassed : s'.passed = new := by simpa using hh.passed
  simp only [carry, hs]
  have hg : e.Grows ({ e with link := l', clock := now }.emit s') :=
    ⟨List.prefix_rfl, rfl, rfl, Nat.le_refl _⟩
  exact ⟨h.grow hg h.carries rfl (hh.offers h.offers) (departures_emit _ hpassed) (.of_minor _ hm), hg,
    hh.stable⟩

theorem handOver_sound (h : e.Sound out inn) :
    e.handOver.Sound out inn ∧ e.Grows e.handOver := by
  have hheard : e.handOver.heard = e.heard := by
    simp [handOver, heard, ReliableStream.takeDelivered, Inbound.takeDelivered]
  have hg : e.Grows e.handOver := ⟨List.prefix_rfl, hheard, rfl, Nat.le_refl _⟩
  have hd : e.handOver.departures = e.departures ++ ([] : List Packet).map e.handOver.depart := by
    simp [handOver]
  exact ⟨h.grow hg h.carries rfl h.offers hd (.nil _), hg⟩

theorem Sound.taken_eq (h : e.Sound out inn) : e.taken = e.released ++
    (Packet.payloads e.window.packets ++ Packet.payloads e.stream.outbound.queue.toList) := by
  have hp : Packet.payloads (e.window.packets ++ e.stream.outbound.queue.toList) =
      e.taken.drop e.released.length := by
    rw [show e.window.packets ++ _ = _ from h.carries.packets, Packet.payloads_numbered]
  obtain ⟨more, hmore⟩ := h.released
  rw [← hmore, List.drop_left] at hp
  rw [← Packet.payloads_append, hp, hmore]

theorem released_departed {o o' : Outbound} {b n : Nat} {taken : List Octets}
    (hc : o.Carries out b taken) (hi : o'.window.inFlight + n = o.window.inFlight) :
    Packet.payloads (o.window.departed o'.window) = (taken.drop b).take n := by
  have hn : o.window.inFlight - o'.window.inFlight = n := by omega
  rw [SendWindow.departed, hn]
  exact SendWindow.Holds.payloads_take hc (by omega)

structure Hears (e : Endpoint) (p : Packet) (n : Nat) (e' : Endpoint) : Prop where
  taken : e'.taken = e.taken
  heard : e'.heard = e.handed ++ (ReliableStream.reading e.stream.inbound p).delivered.toList
  released : e'.released.length = e.released.length + n
  inFlight : e'.window.inFlight + n = e.window.inFlight

theorem Sound.hears (h : e.Sound out inn) (e' : Endpoint) {p : Packet} {n : Nat} {new : List Packet}
    (hi : e'.stream.inbound = ReliableStream.reading e.stream.inbound p)
    (hc : e'.stream.outbound.Carries out (e.released.length + n) e.taken)
    (hw : e'.window.inFlight + n = e.window.inFlight) (ht : e'.taken = e.taken)
    (hh : e'.handed = e.handed)
    (hr : e'.released = e.released ++ Packet.payloads (e.window.departed e'.window))
    (ho : e'.link.acks.Offers e'.stream.inbound.sequence)
    (hd : e'.departures = e.departures ++ new.map e'.depart)
    (hm : ∀ q ∈ new, q.Minor e'.stream.inbound.sequence) : e'.Sound out inn ∧ e.Hears p n e' := by
  have hpay : Packet.payloads (e.window.departed e'.window) = (e.taken.drop e.released.length).take n :=
    released_departed h.carries hw
  have hcount : e.released.length + e.window.inFlight + e.stream.outbound.queue.toList.length =
      e.taken.length := h.carries.count
  have hrel : e'.released.length = e.released.length + n := by
    rw [hr, hpay]
    simp only [List.length_append, List.length_take, List.length_drop]
    omega
  obtain ⟨more, hmore, hread⟩ := ReliableStream.reading_extends h.inbound p
  have hheard : e'.heard = e.heard ++ more := by
    rw [heard, hi, hh, hmore, ← List.append_assoc, heard]
  have hlen : e'.heard.length = e.heard.length + more.length := by
    rw [hheard, List.length_append]
  have hseq : e'.stream.inbound.sequence = inn.after e'.heard.length := by
    rw [hi, hread, hlen]
  have hc' : e'.stream.outbound.Carries out e'.released.length e'.taken := by rw [hrel, ht]; exact hc
  -- What is acknowledged leaves the window and counts as released: the sum of both stays.
  have horder : (Departure.numbers e.departures).eraseDups =
      List.range (e'.released.length + e'.window.inFlight) := by
    rw [h.order]
    congr 1
    omega
  refine ⟨⟨hc', ?_, hseq, ho, fun d hmem => ?_, ?_⟩, ht, by rw [heard, hi, hh], hrel, hw⟩
  · obtain ⟨more, hmore⟩ := h.released
    rw [hr, hpay, ht, ← hmore, List.drop_left]
    exact (List.prefix_append_right_inj _).mpr (List.take_prefix _ _)
  · rw [hd] at hmem
    rcases List.mem_append.mp hmem with hmem | hmem
    · exact (h.honest d hmem).mono (ht ▸ List.prefix_rfl) (by omega) (by omega)
    · exact honest_depart hc' hseq (.of_minor _ hm) d hmem
  · rw [hd, Departure.numbers_append]
    exact numbers_emits hc' (.of_minor _ hm) (Nat.le_refl _) horder

theorem receive_sound (h : e.Sound out inn) (p : Packet) (plan : List (Option IoKind)) (now : Instant) :
    (∃ fault, e.stream.acknowledged p.ack now = .error fault ∧
      e.receive p plan now = (.error fault, { e with clock := now })) ∨
    ∃ n, e.stream.acknowledged p.ack now = .ok n ∧ (e.receive p plan now).1 = .ok () ∧
      (e.receive p plan now).2.Sound out inn ∧ e.Hears p n (e.receive p plan now).2 ∧
      (e.receive p plan now).2.stream.outbound.sequence = e.stream.outbound.sequence := by
  rcases ReliableStream.receive_emits h.carries h.offers p now (.playing plan) with
    ⟨fault, ha, hr⟩ | ⟨o, n, l', s', new, ha, hr, hc, hs, hw, ho, hpassed, hm⟩
  · refine .inl ⟨fault, ha, ?_⟩
    simp [receive, hr, emit, SendWindow.departed, window, Packet.payloads]
  · refine .inr ⟨n, ha, ?_⟩
    simp only [receive, hr]
    have hsound := h.hears ({ e with
        stream := ⟨o, ReliableStream.reading e.stream.inbound p⟩
        link := l'
        released := e.released ++ Packet.payloads (e.window.departed o.window)
        clock := now }.emit s')
      rfl hc hw rfl rfl rfl ho (departures_emit _ (by simpa using hpassed)) hm
    exact ⟨trivial, hsound.1, hsound.2, hs⟩

end Endpoint

end DatagramStreams
