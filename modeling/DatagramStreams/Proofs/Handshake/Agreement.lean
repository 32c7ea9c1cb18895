import DatagramStreams.Proofs.Handshake.Client
import DatagramStreams.Proofs.Server.Admission
import DatagramStreams.Proofs.Session.Party

/-! A client and a server that agree on both first sequences. The network between them may lose, repeat,
reorder and delay whatever it has been given, the server has other clients, and the client goes on as a
connection once it has its reply. What keeps the pair together is that until the server has made a
connection for the client, it has sent it nothing but replies, and so the only ACK that the client can have
sent is the last one of its handshake.
Main statement: `Reached.agreement`.
-/

set_option autoImplicit false

namespace DatagramStreams

section Record

def replies (client : Address) (history : List Deed) : List Seq :=
  history.filterMap fun
    | .answered a _ reply _ => if a = client then some reply else none
    | _ => none

def firstborn? (client : Address) (history : List Deed) : Option Connection :=
  history.reverse.findSome? fun
    | .opened key c => if key.client = client then some c else none
    | _ => none

variable {client : Address} {history ds : List Deed}

theorem replies_append (ds history : List Deed) :
    replies client (ds ++ history) = replies client ds ++ replies client history :=
  List.filterMap_append ..

theorem mem_replies {request reply : Seq} {moment : Instant}
    (h : .answered client request reply moment ∈ history) : reply ∈ replies client history :=
  List.mem_filterMap.mpr ⟨_, h, if_pos rfl⟩

theorem firstborn?_append (ds history : List Deed) :
    firstborn? client (ds ++ history) = (firstborn? client history).or (firstborn? client ds) := by
  simp only [firstborn?, List.reverse_append, List.findSome?_append]

theorem opened_mem_of_firstborn? {c : Connection} (h : firstborn? client history = some c) :
    ∃ key, key.client = client ∧ .opened key c ∈ history := by
  obtain ⟨d, hd, hc⟩ := List.exists_of_findSome?_eq_some h
  cases d with
  | answered => simp at hc
  | opened key newborn =>
    simp only [Option.ite_none_right_eq_some, Option.some.injEq] at hc
    obtain ⟨hkey, rfl⟩ := hc
    exact ⟨key, hkey, List.mem_reverse.mp hd⟩
  | swept => simp at hc

theorem Service.Ledger.firstborn?_isSome {config : Settings} {handlers : HandlerFactory}
    {admits : Address → Bool} {h : Service} (hl : h.Ledger config handlers admits)
    (hc : (client, false) ∈ h.server.identities) : (firstborn? client h.history).isSome := by
  rw [hl.born] at hc
  obtain ⟨key, hkey, hclient⟩ := List.mem_map.mp hc
  obtain rfl : key.client = client := congrArg Prod.fst hclient
  obtain ⟨d, hd, hd'⟩ := List.mem_filterMap.mp (List.mem_reverse.mp hkey)
  cases d with
  | answered => simp at hd'
  | opened key' c =>
    obtain rfl : key' = key := Option.some.inj hd'
    refine List.findSome?_isSome_iff.mpr ⟨_, List.mem_reverse.mpr hd, ?_⟩
    simp
  | swept => simp at hd'

theorem Service.Ledger.mem_identities {config : Settings} {handlers : HandlerFactory} {admits : Address → Bool}
    {h : Service} (hl : h.Ledger config handlers admits) {key : PendingKey} {c : Connection}
    (hm : .opened key c ∈ h.history) : (key.client, false) ∈ h.server.identities := by
  rw [hl.born]
  refine List.mem_map.mpr ⟨key, List.mem_reverse.mpr (List.mem_filterMap.mpr ⟨_, hm, rfl⟩), rfl⟩

def Server.firstNumber (v : Server) (client : Address) : Nat := v.created.findIdx fun c => c.peer = client

theorem Server.firstNumber_eq (v : Server) (client : Address) :
    v.firstNumber client = v.identities.findIdx fun i => i.1 = client := by
  rw [identities, List.findIdx_map]
  rfl

section Numbers

variable {fate : Outlet.Fate} {v v' : Server} {o o' : Outlet} {now : Instant} {e : Server.Event}

theorem Server.Deals.firstNumber_of_mem (hd : Server.Deals fate v o now e v' o' ds)
    (hc : (client, false) ∈ v.identities) : v'.firstNumber client = v.firstNumber client := by
  have hlt := List.findIdx_lt_length_of_exists (p := fun i => i.1 = client) ⟨_, hc, decide_eq_true rfl⟩
  rw [v'.firstNumber_eq, v.firstNumber_eq, hd.identities, List.findIdx_append, if_pos hlt]

theorem Server.Deals.firstNumber_of_opened (hd : Server.Deals fate v o now e v' o' ds)
    (hnone : ∀ i ∈ v.identities, i.1 ≠ client) {key : PendingKey} {c : Connection} (hm : .opened key c ∈ ds)
    (hkey : key.client = client) : v'.firstNumber client = v.created.length := by
  have hlength : v.identities.findIdx (fun i => decide (i.1 = client)) = v.identities.length :=
    List.findIdx_eq_length_of_false fun i hi => decide_eq_false (hnone i hi)
  have hids := hd.identities
  cases hd with
  | quiet => simp at hm
  | answered => simp at hm
  | opened =>
    cases List.mem_singleton.mp hm
    rw [Server.firstNumber_eq, hids, List.findIdx_append, hlength, if_neg (Nat.lt_irrefl _),
      v.length_identities]
    simpa [births] using hkey
  | swept => simp at hm

end Numbers

theorem request_unique (hnodup : (replies client history).Nodup) {request request' reply : Seq}
    {moment moment' : Instant} (h : .answered client request reply moment ∈ history)
    (h' : .answered client request' reply moment' ∈ history) : request = request' := by
  induction history with
  | nil => simp at h
  | cons d rest ih =>
    rw [show d :: rest = [d] ++ rest from rfl, replies_append] at hnodup
    obtain ⟨-, hrest, hdisjoint⟩ := List.nodup_append.mp hnodup
    rcases List.mem_cons.mp h with hhead | htail <;> rcases List.mem_cons.mp h' with hhead' | htail'
    · cases hhead.trans hhead'.symm
      rfl
    · have hd := mem_replies (List.mem_singleton.mpr hhead)
      exact absurd rfl (hdisjoint reply hd reply (mem_replies htail'))
    · have hd := mem_replies (List.mem_singleton.mpr hhead')
      exact absurd rfl (hdisjoint reply hd reply (mem_replies htail))
    · exact ih hrest htail htail'

theorem next_inj {s t : Seq} (h : Seq.next s = Seq.next t) : s = t := by
  have h' : s + 1 - 1 = t + 1 - 1 := congrArg (· - 1) h
  simpa using h'

theorem countP_answers_le_one (hnodup : (replies client history).Nodup) (ack : Seq) :
    history.countP (Deed.answers (· = ⟨client, ack⟩)) ≤ 1 := by
  induction history with
  | nil => simp
  | cons d rest ih =>
    rw [show d :: rest = [d] ++ rest from rfl, replies_append] at hnodup
    obtain ⟨-, hrest, hdisjoint⟩ := List.nodup_append.mp hnodup
    rw [List.countP_cons]
    split
    · rename_i hd
      suffices hnone : rest.countP (Deed.answers (· = ⟨client, ack⟩)) = 0 by omega
      refine List.countP_eq_zero.mpr fun d' hd' hanswers => ?_
      cases d <;> simp only [Deed.answers, decide_eq_true_eq, PendingKey.mk.injEq, Bool.false_eq_true] at hd
      cases d' <;>
        simp only [Deed.answers, decide_eq_true_eq, PendingKey.mk.injEq, Bool.false_eq_true] at hanswers
      obtain ⟨rfl, rfl⟩ := hd
      obtain ⟨rfl, hnext⟩ := hanswers
      obtain rfl := next_inj hnext
      exact hdisjoint _ (mem_replies (.head _)) _ (mem_replies hd') rfl
    · have := ih hrest
      omega

end Record

namespace Party

variable {p : Party} {peer : Address} {owned : Bool}

theorem bound_act (h : p.conn.Bound peer owned) (what : Act) (plan : List (Option IoKind)) (now : Instant) :
    (p.act what plan now).conn.Bound peer owned := by
  have ha := Socket.alike_refl Recorder.socket peer owned
  cases what with
  | sendReliable payload => exact (Connection.sendReliable_lockstep ha h rfl payload now).2.bound
  | sendUnreliable payload => exact (Connection.sendUnreliable_lockstep ha h rfl payload now).2.bound
  | poll => exact (Connection.poll_lockstep ha h rfl now).2.bound
  | close => exact (Connection.close_lockstep ha h rfl now).bound

theorem bound_deliver (h : p.conn.Bound peer owned) (source : Address) (q : Packet)
    (plan : List (Option IoKind)) (now : Instant) :
    (p.deliver source q plan now).conn.Bound peer owned :=
  (Connection.receive_lockstep (Socket.alike_refl Recorder.socket peer owned) h rfl source q now).2.bound

theorem heard_deliver {source : Address} {q : Packet}
    (h : q.connectRequest = true ∨ source ≠ p.conn.peer) (plan : List (Option IoKind)) (now : Instant) :
    (p.deliver source q plan now).endpoint.heard = p.endpoint.heard := by
  have hreceive : p.conn.receive Recorder.socket source q now (.playing plan) =
      (.ok (), p.conn, .playing plan) := by
    rcases h with h | h <;> simp [Connection.receive, h]
  simp only [deliver, hreceive]
  rfl

end Party

def Mail (ps : List Packet) (octets : Octets) : Prop := ∃ p ∈ ps, octets = p.encode

theorem Packet.decode?_encode {p : Packet} (h : p.Fits) : decode? p.encode = some p := by
  rw [decode?, decode_encode_of_fits h]
  rfl

theorem Packet.fits_of_payload_none {p : Packet} (h : p.payload = none) : p.Fits := by
  simp [Fits, h]

structure Scene where
  config : Settings
  handlers : HandlerFactory
  admits : Address → Bool
  /-- Nobody but the client sends from here. -/
  client : Address
  clientConfig : Settings
  clientHandler : Handler
  target : Address
  timeout : Span
  request : Seq
  begun : Instant

def Scene.party? (w : Scene) : Opening.Phase → Option Party
  | .finished (.ok agreed) =>
    some (.establish w.target agreed.sequenceIn agreed.sequenceOut w.clientConfig w.clientHandler true)
  | _ => none

theorem Scene.party?_eq_none {w : Scene} {phase : Opening.Phase}
    (h : ∀ agreed, phase ≠ .finished (.ok agreed)) : w.party? phase = none := by
  unfold party?
  split
  · exact absurd rfl (h _)
  · rfl

structure Meeting where
  service : Service
  opening : Opening
  said : List Packet := []
  party : Option Party := none

namespace Meeting

def sent (m : Meeting) : List Packet :=
  m.said ++ m.party.elim [] fun p => p.departures.map Departure.packet

def begin (w : Scene) : Meeting where
  service := .start w.config w.handlers w.admits
  opening := .start w.target w.timeout w.clientConfig.retryInterval w.request w.begun

/-- A step of the opening, on a socket that may do anything. -/
def advance (w : Scene) (m : Meeting) (now : Instant) (r : Recorder) : Meeting :=
  let ((opening, _), r) := m.opening.step Recorder.socket now r
  { m with
    opening
    said := m.said ++ r.passed
    party := m.party.or (w.party? opening.phase) }

/-- Everything that can happen, with a network that brings nothing from either side but what it has sent. -/
inductive Reached (w : Scene) : Meeting → Prop where
  | begin : Reached w (begin w)
  | serve {m : Meeting} (hm : Reached w m) {now : Instant} {e : Server.Event} (hp : m.service.Possible now e)
      (hmail : ∀ octets draws, e = .datagram w.client octets draws → Mail m.sent octets)
      (fate : Outlet.Fate) : Reached w { m with service := m.service.next fate now e }
  | advance {m : Meeting} (hm : Reached w m) (now : Instant) {r : Recorder} (hfresh : r.passed = [])
      (hmail : ∀ octets, .datagram w.target octets ∈ r.arrivals →
        Mail (m.service.outlet.passedTo w.client) octets) : Reached w (m.advance w now r)
  | act {m : Meeting} {p : Party} (hm : Reached w m) (hp : m.party = some p) (what : Party.Act)
      (plan : List (Option IoKind)) (now : Instant) : Reached w { m with party := some (p.act what plan now) }
  | deliver {m : Meeting} {p : Party} (hm : Reached w m) (hp : m.party = some p) {source : Address}
      {octets : Octets} {q : Packet} (hdecode : Packet.decode? octets = some q)
      (hmail : source = w.target → Mail (m.service.outlet.passedTo w.client) octets)
      (plan : List (Option IoKind)) (now : Instant) :
      Reached w { m with party := some (p.deliver source q plan now) }

/-- As long as the server has no connection for the client, all it has sent there are replies. -/
theorem reply_of_unborn {config : Settings} {handlers : HandlerFactory} {admits : Address → Bool} {h : Service}
    (hl : h.Ledger config handlers admits) {client : Address} (hu : firstborn? client h.history = none)
    {p : Packet} (hp : p ∈ h.outlet.passedTo client) : ∃ request reply moment,
      .answered client request reply moment ∈ h.history ∧ p = .reply reply (Seq.next request) := by
  obtain ⟨x, hx, rfl⟩ := List.mem_map.mp hp
  obtain ⟨hattempt, htarget⟩ := List.mem_filter.mp (List.mem_filter.mp hx).1
  obtain rfl : x.target = client := of_decide_eq_true htarget
  refine (hl.sent x hattempt).resolve_left fun hpeer => ?_
  have hsome := hl.firstborn?_isSome hpeer
  simp [hu] at hsome

/-- The client's connection acknowledges nothing but the reply until it hears from the server's. -/
structure Joined (w : Scene) (m : Meeting) (p : Party) (agreed : Agreement) : Prop where
  done : m.opening.phase = .finished (.ok agreed)
  acks : ∀ q ∈ m.said, q.Acks agreed.sequenceIn
  sound : p.Sound agreed.sequenceOut agreed.sequenceIn
  bound : p.conn.Bound w.target true
  deaf : firstborn? w.client m.service.history = none → p.endpoint.heard = []

/-- Before the client has a connection it sends no ACK, and so cannot become the server's client. -/
structure Apart (w : Scene) (m : Meeting) : Prop where
  unborn : firstborn? w.client m.service.history = none
  acks : ∀ q ∈ m.said, q.ack = none
  undone : ∀ agreed, m.opening.phase ≠ .finished (.ok agreed)

structure Agreeing (w : Scene) (m : Meeting) : Prop where
  reach : m.service.Reached w.config w.handlers w.admits
  target : m.opening.target = w.target
  fits : ∀ q ∈ m.said, q.Fits
  agreed : ∀ agreed, m.opening.phase.agreed? = some agreed → ∃ request reply moment,
    .answered w.client request reply moment ∈ m.service.history ∧
      agreed = ⟨Seq.next reply, Seq.next request⟩
  apart : m.party = none → Apart w m
  joined : ∀ p, m.party = some p → ∃ agreed, Joined w m p agreed
  first : (replies w.client m.service.history).Nodup → ∀ c,
    firstborn? w.client m.service.history = some c → ∃ agreed,
      m.opening.phase = .finished (.ok agreed) ∧
        c = .establish w.client agreed.sequenceOut agreed.sequenceIn w.config
          (w.handlers (m.service.server.firstNumber w.client) w.client) false

variable {w : Scene} {m : Meeting}

theorem agreeing_begin (w : Scene) : Agreeing w (begin w) where
  reach := .start
  target := rfl
  fits _ hq := by simp [begin] at hq
  agreed _ ha := by simp [begin, Opening.start, Opening.Phase.agreed?] at ha
  apart _ := ⟨rfl, fun _ hq => by simp [begin] at hq, nofun⟩
  joined _ hp := by simp [begin] at hp
  first _ _ hc := by simp [begin, Service.start, firstborn?] at hc

theorem Joined.departure {p : Party} {agreed : Agreement} (h : Joined w m p agreed)
    (hu : firstborn? w.client m.service.history = none) {d : Departure} (hd : d ∈ p.departures) :
    d.packet.Fits ∧ d.packet.Acks agreed.sequenceIn := by
  have hhonest := h.sound.endpoint.honest d hd
  refine ⟨hhonest.fits, fun x hx => ?_⟩
  obtain ⟨hack, haccepted⟩ := hhonest.ack x hx
  rw [h.deaf hu, List.length_nil, Nat.le_zero] at haccepted
  rw [hack, haccepted, Seq.after_zero]

theorem Agreeing.sent (h : Agreeing w m) (hu : firstborn? w.client m.service.history = none) {q : Packet}
    (hq : q ∈ m.sent) : q.Fits ∧ ∀ x, q.ack = some x → ∃ agreed,
      m.opening.phase = .finished (.ok agreed) ∧ x = agreed.sequenceIn := by
  cases hp : m.party with
  | none =>
    have hsaid : q ∈ m.said := by simpa [Meeting.sent, hp] using hq
    exact ⟨h.fits q hsaid, fun x hx => by simp [(h.apart hp).acks q hsaid] at hx⟩
  | some p =>
    obtain ⟨agreed, hj⟩ := h.joined p hp
    rcases List.mem_append.mp hq with hsaid | hdeparted
    · exact ⟨h.fits q hsaid, fun x hx => ⟨agreed, hj.done, hj.acks q hsaid x hx⟩⟩
    · obtain ⟨d, hd, rfl⟩ : ∃ d ∈ p.departures, d.packet = q := by simpa [hp] using hdeparted
      obtain ⟨hfits, hacks⟩ := hj.departure hu hd
      exact ⟨hfits, fun x hx => ⟨agreed, hj.done, hacks x hx⟩⟩

theorem Agreeing.mirrored (h : Agreeing w m) (hnodup : (replies w.client m.service.history).Nodup)
    {agreed : Agreement} (hdone : m.opening.phase = .finished (.ok agreed)) {request reply : Seq}
    {since : Instant} (hanswered : .answered w.client request reply since ∈ m.service.history)
    (hack : Seq.next reply = agreed.sequenceIn) : Seq.next request = agreed.sequenceOut := by
  obtain ⟨request', reply', moment, hagreed, rfl⟩ := h.agreed agreed (by rw [hdone]; rfl)
  obtain rfl := next_inj hack
  rw [request_unique hnodup hanswered hagreed]

theorem Agreeing.stranger (h : Agreeing w m) (hu : firstborn? w.client m.service.history = none) :
    ∀ i ∈ m.service.server.identities, i.1 ≠ w.client := by
  rintro ⟨a, owned⟩ hi rfl
  obtain rfl : owned = false := h.reach.sound.shares _ hi
  have hsome := h.reach.ledger.firstborn?_isSome hi
  simp [hu] at hsome

theorem Agreeing.opens (h : Agreeing w m) {now : Instant} {e : Server.Event} {fate : Outlet.Fate}
    {v' : Server} {o' : Outlet} {ds : List Deed}
    (hmail : ∀ octets draws, e = .datagram w.client octets draws → Mail m.sent octets)
    (hd : Server.Deals fate m.service.server m.service.outlet now e v' o' ds)
    (hu : firstborn? w.client m.service.history = none) {c : Connection}
    (hc : firstborn? w.client ds = some c) : ∃ agreed, m.opening.phase = .finished (.ok agreed) ∧
      ((replies w.client m.service.history).Nodup →
        c = .establish w.client agreed.sequenceOut agreed.sequenceIn w.config
          (w.handlers (v'.firstNumber w.client) w.client) false) := by
  obtain ⟨key, hkey, hm⟩ := opened_mem_of_firstborn? hc
  obtain ⟨octets, draws, p, request, reply, since, he, hdecode, hack, -, hgranted, rfl⟩ :=
    h.reach.ledger.opened_mem hd hm
  rw [hkey] at he hgranted ⊢
  obtain ⟨q, hq, rfl⟩ := hmail octets draws he
  obtain ⟨hfits, hacks⟩ := h.sent hu hq
  rw [Packet.decode?_encode hfits, Option.some.injEq] at hdecode
  obtain ⟨agreed, hdone, hagreed⟩ := hacks _ (hdecode ▸ hack)
  refine ⟨agreed, hdone, fun hnodup => ?_⟩
  rw [h.mirrored hnodup hdone hgranted.mem hagreed, hagreed,
    hd.firstNumber_of_opened (h.stranger hu) hm hkey]

theorem Agreeing.serve (h : Agreeing w m) {now : Instant} {e : Server.Event} (hp : m.service.Possible now e)
    (hmail : ∀ octets draws, e = .datagram w.client octets draws → Mail m.sent octets)
    (fate : Outlet.Fate) : Agreeing w { m with service := m.service.next fate now e } := by
  obtain ⟨ds, hhistory, hd⟩ := Service.next_deals h.reach.sound hp fate
  have hunborn : firstborn? w.client (m.service.next fate now e).history = none →
      firstborn? w.client m.service.history = none := fun hu => by
    rw [hhistory, firstborn?_append, Option.or_eq_none_iff] at hu
    exact hu.1
  refine ⟨h.reach.next hp fate, h.target, h.fits, fun agreed ha => ?_, fun hparty => ?_, fun p hparty => ?_,
    fun hnodup c hc => ?_⟩
  · obtain ⟨request, reply, moment, hanswered, rfl⟩ := h.agreed agreed ha
    exact ⟨request, reply, moment, hhistory ▸ List.mem_append_right _ hanswered, rfl⟩
  · obtain ⟨hu, hacks, hundone⟩ := h.apart hparty
    refine ⟨?_, hacks, hundone⟩
    rw [hhistory, firstborn?_append, hu, Option.none_or]
    cases hc : firstborn? w.client ds with
    | none => rfl
    | some c =>
      obtain ⟨agreed, hdone, -⟩ := h.opens hmail hd hu hc
      exact absurd hdone (hundone agreed)
  · obtain ⟨agreed, hj⟩ := h.joined p hparty
    exact ⟨agreed, hj.done, hj.acks, hj.sound, hj.bound, fun hu => hj.deaf (hunborn hu)⟩
  · simp only [hhistory] at hnodup hc
    rw [replies_append] at hnodup
    have hbefore := (List.nodup_append.mp hnodup).2.1
    rw [firstborn?_append] at hc
    -- A firstborn stays the first, whatever is opened after it.
    cases hu : firstborn? w.client m.service.history with
    | none =>
      rw [hu, Option.none_or] at hc
      obtain ⟨agreed, hdone, hmirrored⟩ := h.opens hmail hd hu hc
      exact ⟨agreed, hdone, hmirrored hbefore⟩
    | some c' =>
      rw [hu, Option.some_or, Option.some.injEq] at hc
      obtain ⟨key, hkey, hm⟩ := opened_mem_of_firstborn? hu
      rw [hd.firstNumber_of_mem (hkey ▸ h.reach.ledger.mem_identities hm)]
      exact hc ▸ h.first hbefore c' hu

theorem Agreeing.heard (h : Agreeing w m) (hu : firstborn? w.client m.service.history = none)
    {octets : Octets} (hmail : Mail (m.service.outlet.passedTo w.client) octets) {t : Seq}
    (hreply : m.opening.replyIn? m.opening.target (octets.take Socket.bufferLength) = some t) :
    ∃ request moment, .answered w.client request t moment ∈ m.service.history ∧
      m.opening.expectedAck = Seq.next request := by
  obtain ⟨q, hq, rfl⟩ := hmail
  obtain ⟨request, reply, moment, hanswered, rfl⟩ := reply_of_unborn h.reach.ledger hu hq
  have hfits : (Packet.reply reply (Seq.next request)).Fits := Packet.fits_of_payload_none rfl
  have hlength : (Packet.reply reply (Seq.next request)).encode.length ≤ Socket.bufferLength := by
    rw [Packet.length_encode]
    exact (by decide : 5 ≤ Socket.bufferLength)
  rw [List.take_of_length_le hlength, Opening.replyIn?_eq_some, Packet.decode?_encode hfits] at hreply
  obtain ⟨-, q, hq, -, hack, rfl⟩ := hreply
  cases hq
  exact ⟨request, moment, hanswered, (Option.some.inj hack).symm⟩

theorem advance_of_finished {agreed : Agreement} (hdone : m.opening.phase = .finished (.ok agreed))
    {p : Party} (hp : m.party = some p) (now : Instant) {r : Recorder} (hfresh : r.passed = []) :
    m.advance w now r = m := by
  simp only [Meeting.advance, Opening.step_of_finished hdone, hfresh, List.append_nil, hp, Option.some_or]
  rw [← hp]

theorem Agreeing.stay (h : Agreeing w m) (ha : Apart w m) {o : Opening} {sent : List Packet}
    (htarget : o.target = m.opening.target) (hsent : ∀ q ∈ sent, q.Fits ∧ q.ack = none)
    (hagreed : ∀ agreed, o.phase.agreed? = some agreed → ∃ request reply moment,
      .answered w.client request reply moment ∈ m.service.history ∧
        agreed = ⟨Seq.next reply, Seq.next request⟩)
    (hundone : ∀ agreed, o.phase ≠ .finished (.ok agreed)) :
    Agreeing w { m with opening := o, said := m.said ++ sent, party := w.party? o.phase } where
  reach := h.reach
  target := htarget.trans h.target
  fits q hq := (List.mem_append.mp hq).elim (h.fits q) fun hq => (hsent q hq).1
  agreed := hagreed
  apart _ := ⟨ha.unborn, fun q hq => (List.mem_append.mp hq).elim (ha.acks q) fun hq => (hsent q hq).2,
    hundone⟩
  joined p hp := by simp [Scene.party?_eq_none hundone] at hp
  first _ c hc := by simp [ha.unborn] at hc

theorem Agreeing.join (h : Agreeing w m) (ha : Apart w m) {o : Opening} {sent : List Packet}
    {agreed : Agreement} (htarget : o.target = m.opening.target)
    (haim : m.opening.phase.aim = .confirming agreed) (hdone : o.phase = .finished (.ok agreed))
    (hsent : sent = [] ∨ sent = [.ackOnly agreed.sequenceIn]) :
    Agreeing w { m with opening := o, said := m.said ++ sent, party := w.party? o.phase } := by
  have hnew : ∀ q ∈ m.said ++ sent, q ∈ m.said ∨ q = .ackOnly agreed.sequenceIn := fun q hq => by
    rcases hsent with rfl | rfl
    · exact .inl (by simpa using hq)
    · simpa using hq
  have hparty : w.party? o.phase = some (.establish w.target agreed.sequenceIn agreed.sequenceOut
      w.clientConfig w.clientHandler true) := by rw [hdone]; rfl
  refine ⟨h.reach, htarget.trans h.target, fun q hq => ?_, fun agreed' ha => ?_, fun hp => ?_,
    fun p hp => ⟨agreed, hdone, fun q hq => ?_, ?_, ?_, ?_⟩, fun _ c hc => by simp [ha.unborn] at hc⟩
  · rcases hnew q hq with hq | rfl
    · exact h.fits q hq
    · exact Packet.fits_ackOnly _
  · obtain rfl : agreed = agreed' := by simpa [hdone, Opening.Phase.agreed?] using ha
    exact h.agreed agreed (by rw [← Opening.Phase.agreed?_aim, haim]; rfl)
  · simp [hparty] at hp
  · rcases hnew q hq with hq | rfl
    · intro a hack
      simp [ha.acks q hq] at hack
    · exact Packet.acks_ackOnly _
  all_goals obtain rfl := Option.some.inj (hparty.symm.trans hp)
  · exact Party.sound_establish _ _ _ _ _ _
  · exact ⟨rfl, rfl⟩
  · exact fun _ => rfl

theorem Agreeing.advance (h : Agreeing w m) (now : Instant) {r : Recorder} (hfresh : r.passed = [])
    (hmail : ∀ octets, .datagram w.target octets ∈ r.arrivals →
      Mail (m.service.outlet.passedTo w.client) octets) : Agreeing w (m.advance w now r) := by
  cases hparty : m.party with
  | some p =>
    obtain ⟨agreed, hj⟩ := h.joined p hparty
    rw [advance_of_finished hj.done hparty now hfresh]
    exact h
  | none =>
    -- Still apart: the client has not finished, and each thing its step can do leaves the two agreeing.
    have ha := h.apart hparty
    obtain ⟨htarget, hprogress⟩ := m.opening.step_progress now hfresh
    simp only [Meeting.advance, hparty, Option.none_or]
    generalize m.opening.step Recorder.socket now r = x at htarget hprogress ⊢
    generalize x.2.passed = sent at hprogress ⊢
    cases hprogress with
    | quiet hagreed hdone =>
      exact h.stay ha htarget (by simp) (fun agreed hp => h.agreed agreed (hagreed agreed hp))
        fun agreed hp => ha.undone agreed (hdone agreed hp)
    | requested hphase =>
      refine h.stay ha htarget (fun q hq => ?_) (fun agreed hp => by simp [hphase] at hp) fun agreed hp => ?_
      · rw [List.mem_singleton.mp hq]
        exact ⟨Packet.fits_of_payload_none rfl, rfl⟩
      · simp [hp, Opening.Phase.agreed?] at hphase
    | @heard octets t harrival hreply hphase =>
      obtain ⟨request, moment, hanswered, hack⟩ :=
        h.heard ha.unborn (hmail octets (h.target ▸ harrival)) hreply
      refine h.stay ha htarget (by simp) (fun agreed hp => ?_) fun agreed hp => by simp [hp] at hphase
      obtain rfl : _ = agreed := by simpa [hphase, Opening.Phase.agreed?] using hp
      exact ⟨request, t, moment, hanswered, by rw [hack]⟩
    | confirmed haim hdone hsent => exact h.join ha htarget haim hdone hsent

theorem Agreeing.proceed (h : Agreeing w m) {p p' : Party} (hp : m.party = some p)
    (hsound : ∀ out inn, p.Sound out inn → p'.Sound out inn) (hbound : p'.conn.Bound w.target true)
    (hdeaf : firstborn? w.client m.service.history = none → p'.endpoint.heard = p.endpoint.heard) :
    Agreeing w { m with party := some p' } where
  reach := h.reach
  target := h.target
  fits := h.fits
  agreed := h.agreed
  apart hnone := by simp at hnone
  joined q hq := by
    obtain rfl := Option.some.inj hq
    obtain ⟨agreed, hj⟩ := h.joined p hp
    exact ⟨agreed, hj.done, hj.acks, hsound _ _ hj.sound, hbound, fun hu => (hdeaf hu).trans (hj.deaf hu)⟩
  first := h.first

theorem Agreeing.act (h : Agreeing w m) {p : Party} (hp : m.party = some p) (what : Party.Act)
    (plan : List (Option IoKind)) (now : Instant) :
    Agreeing w { m with party := some (p.act what plan now) } := by
  obtain ⟨agreed, hj⟩ := h.joined p hp
  exact h.proceed hp (fun _ _ hs => (hs.act what plan now).1) (Party.bound_act hj.bound what plan now)
    fun _ => (hj.sound.act what plan now).2.heard

theorem Agreeing.deliver (h : Agreeing w m) {p : Party} (hp : m.party = some p) {source : Address}
    {octets : Octets} {q : Packet} (hdecode : Packet.decode? octets = some q)
    (hmail : source = w.target → Mail (m.service.outlet.passedTo w.client) octets)
    (plan : List (Option IoKind)) (now : Instant) :
    Agreeing w { m with party := some (p.deliver source q plan now) } := by
  obtain ⟨agreed, hj⟩ := h.joined p hp
  refine h.proceed hp (fun _ _ hs => (hs.deliver source q plan now).1)
    (Party.bound_deliver hj.bound source q plan now) fun hu => Party.heard_deliver ?_ plan now
  by_cases hsource : source = w.target
  · obtain ⟨x, hx, rfl⟩ := hmail hsource
    obtain ⟨request, reply, moment, -, rfl⟩ := reply_of_unborn h.reach.ledger hu hx
    rw [Packet.decode?_encode (Packet.fits_of_payload_none rfl), Option.some.injEq] at hdecode
    exact .inl (hdecode ▸ rfl)
  · exact .inr fun hpeer => hsource (hpeer.trans hj.bound.peer)

theorem Reached.agreeing (hr : Reached w m) : Agreeing w m := by
  induction hr with
  | begin => exact agreeing_begin w
  | serve _ hp hmail fate ih => exact ih.serve hp hmail fate
  | advance _ now hfresh hmail ih => exact ih.advance now hfresh hmail
  | act _ hp what plan now ih => exact ih.act hp what plan now
  | deliver _ hp hdecode hmail plan now ih => exact ih.deliver hp hdecode hmail plan now

/-- When the opening has succeeded and the server has made a connection for the client, the first one it
made mirrors what was agreed, if no reply was drawn twice for this client. The last ACK of the handshake
makes at most one connection however often it arrives, and takes no other handshake for its own. -/
theorem Reached.agreement (hr : Reached w m) {agreed : Agreement}
    (hdone : m.opening.phase = .finished (.ok agreed))
    (hdistinct : (replies w.client m.service.history).Nodup) :
    ((∃ c ∈ m.service.server.created, c.peer = w.client) → firstborn? w.client m.service.history =
      some (.establish w.client agreed.sequenceOut agreed.sequenceIn w.config
        (w.handlers (m.service.server.firstNumber w.client) w.client) false)) ∧
    m.service.history.countP (Deed.opens (· = ⟨w.client, agreed.sequenceIn⟩)) ≤ 1 ∧
    ∀ now draws fate, m.service.Possible now
        (.datagram w.client (Packet.ackOnly agreed.sequenceIn).encode draws) →
      let next := m.service.next fate now
        (.datagram w.client (Packet.ackOnly agreed.sequenceIn).encode draws)
      (∀ key, key ≠ ⟨w.client, agreed.sequenceIn⟩ →
        next.server.pending.find? key = m.service.server.pending.find? key) ∧
      ∀ n c, m.service.server.created.length ≤ n → next.server.connection? n = some c →
        c = .establish w.client agreed.sequenceOut agreed.sequenceIn w.config (w.handlers n w.client) false := by
  have h := hr.agreeing
  have hl := h.reach.ledger
  refine ⟨?_, ?_, fun now draws fate hp => ?_⟩
  · rintro ⟨c, hc, hpeer⟩
    obtain ⟨n, hn⟩ := List.getElem?_of_mem hc
    have hborn := hl.firstborn?_isSome (hpeer ▸ Server.mem_identities h.reach.sound.shares hn)
    obtain ⟨c', hc'⟩ := Option.isSome_iff_exists.mp hborn
    obtain ⟨agreed', hdone', rfl⟩ := h.first hdistinct c' hc'
    obtain rfl : agreed = agreed' := by simpa using hdone.symm.trans hdone'
    exact hc'
  · have hcounted := hl.counted (· = ⟨w.client, agreed.sequenceIn⟩)
    have hanswered := countP_answers_le_one hdistinct agreed.sequenceIn
    omega
  · have hdecode := Packet.decode?_encode (Packet.fits_ackOnly agreed.sequenceIn)
    obtain ⟨ds, -, hd⟩ := Service.next_deals h.reach.sound hp fate
    refine ⟨fun key hkey => ?_, fun n c hn hc => ?_⟩
    · exact hd.pending_eq hdecode rfl hkey
    -- A newborn has been granted by a reply to this client, and no other reply had that sequence.
    · obtain ⟨rfl, key, hm⟩ := hd.newborn hn hc
      obtain ⟨octets, draws', p, request, reply, since, he, hdecode', hack, -, hgranted, rfl⟩ :=
        hl.opened_mem hd hm
      simp only [Server.Event.datagram.injEq] at he
      obtain ⟨hclient, rfl, -⟩ := he
      rw [hdecode, Option.some.injEq] at hdecode'
      rw [← hdecode'] at hack
      have hreply : agreed.sequenceIn = Seq.next reply := Option.some.inj hack
      rw [← hclient] at hgranted ⊢
      rw [h.mirrored hdistinct hdone hgranted.mem hreply.symm, hreply]

/-- The reply to the first of two requests comes too late, and so does a second copy of that request. -/
theorem Reached.agreement_after_retry :
    let server : Address := { ip := .v4Loopback, port := 1 }
    let client : Address := { ip := .v4Loopback, port := 2 }
    let w : Scene :=
      { config := {}
        handlers := fun _ _ => .ofScript {}
        admits := fun _ => true
        client := client
        clientConfig := {}
        clientHandler := .ofScript {}
        target := server
        timeout := Span.second
        request := 10
        begun := 0 }
    let taken : Outlet.Fate := fun _ _ => none
    let late := Span.milliseconds 600
    let heard := fun (m : Meeting) (octets : Octets) (draws : Draws) =>
      { m with service := m.service.next taken late (.datagram client octets draws) }
    let quiet := fun m now => Meeting.advance w m now {}
    let asked := quiet (quiet (quiet (Meeting.begin w) 0) 0) 0
    let asked := quiet (quiet (quiet asked late) late) late
    let asked := heard asked (Packet.request 12).encode ⟨[20]⟩
    let asked := heard asked (Packet.request 10).encode ⟨[40]⟩
    let asked := quiet asked late
    let told := (asked.advance w late { arrivals := [.datagram server (Packet.reply 40 11).encode] }).advance
      w late { arrivals := [.datagram server (Packet.reply 20 13).encode] }
    let m := heard (quiet told late) (Packet.ackOnly 21).encode {}
    m.sent = [.request 10, .request 12, .ackOnly 21] ∧
      m.service.server.created.map Connection.peer = [client] ∧
      firstborn? client m.service.history = some (.establish client 13 21 {} (.ofScript {}) false) := by
  intro server client w taken late heard quiet asked₁ asked₂ asked₃ asked₄ asked told m
  have hquiet : ∀ {m : Meeting}, Reached w m → ∀ now, Reached w (quiet m now) := fun hm now =>
    hm.advance now rfl fun _ h => by cases h
  have hasked₁ : Reached w asked₁ := hquiet (hquiet (hquiet .begin 0) 0) 0
  have hasked₂ : Reached w asked₂ := hquiet (hquiet (hquiet hasked₁ late) late) late
  have hasked₃ : Reached w asked₃ := hasked₂.serve (.datagram _ _ _ _ (by decide +kernel))
    (fun octets draws he => by cases he; exact ⟨.request 12, by decide +kernel, rfl⟩) taken
  have hasked₄ : Reached w asked₄ := hasked₃.serve (.datagram _ _ _ _ (by decide +kernel))
    (fun octets draws he => by cases he; exact ⟨.request 10, by decide +kernel, rfl⟩) taken
  have htold : Reached w told := ((hquiet hasked₄ late).advance late rfl fun octets h => by
    simp only [List.mem_singleton, Recorder.Arrival.datagram.injEq] at h
    exact ⟨.reply 40 11, by decide +kernel, h.2⟩).advance late rfl fun octets h => by
      simp only [List.mem_singleton, Recorder.Arrival.datagram.injEq] at h
      exact ⟨.reply 20 13, by decide +kernel, h.2⟩
  have hm : Reached w m := (hquiet htold late).serve
    (.datagram _ _ _ _ (by decide +kernel))
    (fun octets draws he => by cases he; exact ⟨.ackOnly 21, by decide +kernel, rfl⟩) taken
  obtain ⟨p, hp⟩ := Option.isSome_iff_exists.mp (by decide +kernel : m.party.isSome = true)
  obtain ⟨agreed, hj⟩ := hm.agreeing.joined p hp
  have hagreed : m.opening.phase.agreed? = some ⟨21, 13⟩ := by decide +kernel
  obtain rfl : agreed = ⟨21, 13⟩ := by simpa [hj.done, Opening.Phase.agreed?] using hagreed
  have hcreated : m.service.server.created.map Connection.peer = [client] := by decide +kernel
  refine ⟨by decide +kernel, hcreated, (hm.agreement hj.done (by decide +kernel)).1 ?_⟩
  exact List.mem_map.mp (hcreated ▸ .head _)

end Meeting

end DatagramStreams
