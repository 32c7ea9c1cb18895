import DatagramStreams.Proofs.Server.Ledger

/-! Who becomes a client of a server, and when. A connection begins with the last ACK of a handshake that
the server has answered, and that has neither been used before nor grown too old.
Main statement: `Reached.admission`.
-/

set_option autoImplicit false

namespace DatagramStreams

namespace Server

variable {v v' : Server} {e : Event} {fate : Outlet.Fate} {now : Instant} {o o' : Outlet} {ds : List Deed}

theorem length_identities (v : Server) : v.identities.length = v.created.length := by
  simp [identities]

theorem Rests.connection?_lt (h : v.Rests v') {n : Nat} {c : Connection} (hc : v'.connection? n = some c) :
    n < v.created.length := by
  rw [← v.length_identities, ← h.identities, v'.length_identities]
  exact (List.getElem?_eq_some_iff.mp hc).1

theorem Deals.newborn (hd : Deals fate v o now e v' o' ds) {n : Nat} {c : Connection}
    (hn : v.created.length ≤ n) (hc : v'.connection? n = some c) :
    n = v.created.length ∧ ∃ key, .opened key c ∈ ds := by
  cases hd with
  | quiet hrests => exact absurd (hrests.connection?_lt hc) (Nat.not_lt.mpr hn)
  | answered => exact absurd (List.getElem?_eq_some_iff.mp hc).1 (Nat.not_lt.mpr hn)
  | opened =>
    have hlt := (List.getElem?_eq_some_iff.mp hc).1
    rw [List.length_append, List.length_singleton] at hlt
    obtain rfl : n = v.created.length := Nat.le_antisymm (Nat.le_of_lt_succ hlt) hn
    rw [connection?, List.getElem?_concat_length] at hc
    cases hc
    exact ⟨rfl, _, .head _⟩
  | swept hrests => exact absurd (hrests.connection?_lt hc) (Nat.not_lt.mpr hn)

theorem Deals.opened_mem (hd : Deals fate v o now e v' o' ds) {key : PendingKey} {c : Connection}
    (hm : .opened key c ∈ ds) : ∃ octets draws p entry, e = .datagram key.client octets draws ∧
      Packet.decode? octets = some p ∧ p.ack = some key.ack ∧ v.pending.find? key = some entry ∧
      c = v.newborn key.client entry.sequenceIn key.ack := by
  cases hd with
  | quiet => simp at hm
  | answered => simp at hm
  | @opened source octets draws p ack entry hdecode hack _ hentry =>
    cases List.mem_singleton.mp hm
    exact ⟨octets, draws, p, entry, rfl, hdecode, hack, hentry, rfl⟩
  | swept => simp at hm

theorem Deals.pending_eq {source : Address} {octets : Octets} {draws : Draws} {p : Packet} {ack : Seq}
    (hd : Deals fate v o now (.datagram source octets draws) v' o' ds)
    (hdecode : Packet.decode? octets = some p) (hack : p.ack = some ack) {key : PendingKey}
    (hkey : key ≠ ⟨source, ack⟩) : v'.pending.find? key = v.pending.find? key := by
  cases hd with
  | quiet _ hsame => rw [hsame]
  | answered hdecode' hack' =>
    rw [hdecode, Option.some.injEq] at hdecode'
    rw [← hdecode', hack] at hack'
    cases hack'
  | opened hdecode' hack' =>
    rw [hdecode, Option.some.injEq] at hdecode'
    rw [← hdecode', hack, Option.some.injEq] at hack'
    rw [Pending.find?_complete, if_neg (hack' ▸ hkey)]

theorem Deals.clients_eq (hd : Deals fate v o now e v' o' ds) {a : Address} {n m : Nat}
    (hn : v.clients.find? a = some n) (hm : v'.clients.find? a = some m) : m = n := by
  have hsame : v.clients.find? a = some m → m = n := fun h => Option.some.inj (h.symm.trans hn)
  cases hd with
  | quiet hrests => exact hsame (hrests.clients a m hm)
  | answered => exact hsame hm
  | @opened source _ _ _ _ _ _ _ hsource =>
    have ha : a ≠ source := fun ha => by simp [← ha, hn] at hsource
    rw [Table.find?_put_ne _ ha] at hm
    exact hsame hm
  | swept hrests => exact hsame (hrests.clients a m hm)

end Server

namespace Service

variable {config : Settings} {handlers : HandlerFactory} {admits : Address → Bool} {h : Service}

structure Admission (config : Settings) (handlers : HandlerFactory) (admits : Address → Bool) (h : Service) :
    Prop where
  /-- A connection begins on an ACK that follows the reply to a request of the same address, which
  nothing has taken out of the pending handshakes since, and with the sequences of these two. -/
  born : ∀ {now e}, h.Possible now e → ∀ fate n c, h.server.created.length ≤ n →
    (h.next fate now e).server.connection? n = some c → n = h.server.created.length ∧
      ∃ source octets draws p request reply since, e = .datagram source octets draws ∧
        Packet.decode? octets = some p ∧ p.ack = some (Seq.next reply) ∧
        Granted source request reply since h.history ∧
        c = .establish source (Seq.next request) (Seq.next reply) config (handlers n source) false
  answered : ∀ client request reply moment, .answered client request reply moment ∈ h.history →
    admits client = true ∧ ∃ x ∈ h.outlet.attempts,
      x.target = client ∧ x.packet = .reply reply (Seq.next request)
  counted : ∀ a, h.server.created.countP (fun c => c.peer = a) ≤
    h.history.countP (Deed.answers fun key => key.client = a)
  kept : ∀ {now e}, h.Possible now e → ∀ fate a n m, h.server.clients.find? a = some n →
    (h.next fate now e).server.clients.find? a = some m → m = n
  /-- Whoever is sent anything has made a request that was admitted. -/
  sent : ∀ x ∈ h.outlet.attempts, ∃ request reply moment,
    .answered x.target request reply moment ∈ h.history

/-- A connection begins on an ACK that follows a reply which still stands. -/
theorem Ledger.opened_mem {now : Instant} {e : Server.Event} {fate : Outlet.Fate} {v' : Server}
    {o' : Outlet} {ds : List Deed} (hl : h.Ledger config handlers admits)
    (hd : Server.Deals fate h.server h.outlet now e v' o' ds) {key : PendingKey} {c : Connection}
    (hm : .opened key c ∈ ds) : ∃ octets draws p request reply since,
      e = .datagram key.client octets draws ∧ Packet.decode? octets = some p ∧
        p.ack = some (Seq.next reply) ∧ key = ⟨key.client, Seq.next reply⟩ ∧
        Granted key.client request reply since h.history ∧
        c = .establish key.client (Seq.next request) (Seq.next reply) config
          (handlers h.server.created.length key.client) false := by
  obtain ⟨octets, draws, p, entry, he, hdecode, hack, hentry, rfl⟩ := hd.opened_mem hm
  rw [hl.pending] at hentry
  obtain ⟨request, reply, hgranted, hkey, hin⟩ := backed_of_standing hentry
  have hreply : key.ack = Seq.next reply := congrArg PendingKey.ack hkey
  refine ⟨octets, draws, p, request, reply, entry.created, he, hdecode, hreply ▸ hack, hkey, hgranted, ?_⟩
  rw [Server.newborn, hin, hreply, hl.constant.config, hl.constant.handlers]
  rfl

theorem Ledger.countP_peer (hl : h.Ledger config handlers admits) (a : Address) :
    h.server.created.countP (fun c => c.peer = a) =
      h.history.countP (Deed.opens fun key => key.client = a) := by
  have hcount : h.server.created.countP (fun c => c.peer = a) =
      h.server.identities.countP fun i => i.1 = a := by
    rw [Server.identities, List.countP_map]
    rfl
  rw [hcount, hl.born, List.countP_map, ← countP_births]
  rfl

theorem Ledger.answered_of_mem (hl : h.Ledger config handlers admits) {a : Address}
    (ha : (a, false) ∈ h.server.identities) :
    ∃ request reply moment, .answered a request reply moment ∈ h.history := by
  rw [hl.born] at ha
  obtain ⟨key, hkey, hpeer⟩ := List.mem_map.mp ha
  have hbirth : 0 < (births h.history).countP fun k => k.client = a :=
    List.countP_pos_iff.mpr ⟨key, hkey, decide_eq_true (congrArg Prod.fst hpeer)⟩
  have hcounted := hl.counted fun k => k.client = a
  rw [← countP_births] at hcounted
  have hpos : 0 < h.history.countP (Deed.answers fun k => k.client = a) := by omega
  obtain ⟨d, hd, hanswers⟩ := List.countP_pos_iff.mp hpos
  cases d with
  | answered client request reply moment =>
    obtain rfl : client = a := of_decide_eq_true hanswers
    exact ⟨request, reply, moment, hd⟩
  | opened key newborn => simp [Deed.answers] at hanswers
  | swept moment life => simp [Deed.answers] at hanswers

/-- In the life of a server nobody becomes its client but by a handshake that it has admitted, answered and
not let go, each handshake makes one connection at most, and nobody else is ever sent anything. -/
theorem Reached.admission (hr : Reached config handlers admits h) : h.Admission config handlers admits where
  born hp fate n c hn hc := by
    obtain ⟨ds, -, hd⟩ := next_deals hr.sound hp fate
    obtain ⟨hlength, key, hm⟩ := hd.newborn hn hc
    obtain ⟨octets, draws, p, request, reply, since, he, hdecode, hack, -, hgranted, hc⟩ :=
      hr.ledger.opened_mem hd hm
    exact ⟨hlength, key.client, octets, draws, p, request, reply, since, he, hdecode, hack, hgranted, hlength ▸ hc⟩
  answered := hr.ledger.answered
  counted a := by
    have hcounted := hr.ledger.counted fun key => key.client = a
    rw [hr.ledger.countP_peer]
    omega
  kept hp fate a n m hn hm := by
    obtain ⟨ds, -, hd⟩ := next_deals hr.sound hp fate
    exact hd.clients_eq hn hm
  sent x hx := by
    rcases hr.ledger.sent x hx with hpeer | ⟨request, reply, moment, hd, -⟩
    · exact hr.ledger.answered_of_mem hpeer
    · exact ⟨request, reply, moment, hd⟩

/-- Alice answers the first reply too late and the second in time, and Mallory is not admitted. -/
theorem Reached.admission_after_expiry :
    let alice : Address := { ip := .v4Loopback, port := 3 }
    let mallory : Address := { ip := .v4Loopback, port := 4 }
    let admits : Address → Bool := fun a => a ≠ mallory
    let handlers : HandlerFactory := fun _ _ => .ofScript {}
    let taken : Outlet.Fate := fun _ _ => none
    let late := Span.milliseconds 5001
    let expired := ((Service.start {} handlers admits).next taken 0
      (.datagram alice (Packet.request 10).encode ⟨[20]⟩)).next taken late (.poll [])
    let ignored := (expired.next taken late (.datagram alice (Packet.ackOnly 21).encode {})).next taken late
      (.datagram mallory (Packet.request 30).encode ⟨[40]⟩)
    let h := (ignored.next taken late (.datagram alice (Packet.request 12).encode ⟨[50]⟩)).next taken late
      (.datagram alice (Packet.ackOnly 51).encode {})
    ignored.server.created.length = 0 ∧ h.server.created.map Connection.peer = [alice] ∧
      h.outlet.sentTo mallory = [] ∧ h.Admission {} handlers admits := by
  intro alice mallory admits handlers taken late expired ignored h
  have hstart : Reached {} handlers admits _ := .start
  have hexpired := (hstart.next (.datagram 0 alice (Packet.request 10).encode ⟨[20]⟩ (by decide))
    taken).next (.poll late (by decide +kernel) (.refl [])) taken
  have hignored := (hexpired.next (.datagram late alice (Packet.ackOnly 21).encode {} (by decide +kernel))
    taken).next (.datagram late mallory (Packet.request 30).encode ⟨[40]⟩ (by decide +kernel)) taken
  have hr := (hignored.next (.datagram late alice (Packet.request 12).encode ⟨[50]⟩ (by decide +kernel))
    taken).next (.datagram late alice (Packet.ackOnly 51).encode {} (by decide +kernel)) taken
  exact ⟨by decide +kernel, by decide +kernel, by decide +kernel, hr.admission⟩

end Service

end DatagramStreams
