import DatagramStreams.Proofs.Server.Service

/-! What the record of a server tells of its handshakes. All that happens is one of four kinds of step
(`deals`), and the record accounts for the pending table, for the connections and for every send.
Main statement: `Reached.ledger`.
-/

set_option autoImplicit false

namespace DatagramStreams

namespace Deed

def answers (P : PendingKey → Bool) : Deed → Bool
  | .answered client _ reply _ => P ⟨client, Seq.next reply⟩
  | _ => false

def opens (P : PendingKey → Bool) : Deed → Bool
  | .opened key _ => P key
  | _ => false

/-- This puts an end to what has been pending under the key since then. -/
def Settles (key : PendingKey) (since : Instant) : Deed → Prop
  | .answered client _ reply _ => ⟨client, Seq.next reply⟩ = key
  | .opened key' _ => key' = key
  | .swept moment life => life < Span.elapsed since moment

end Deed

/-- What is pending under a key, going by the record alone. -/
def standing (key : PendingKey) : List Deed → Option PendingEntry
  | [] => none
  | .answered client request reply moment :: rest =>
    if key = ⟨client, Seq.next reply⟩ then some { sequenceIn := Seq.next request, created := moment }
    else standing key rest
  | .opened key' _ :: rest => if key = key' then none else standing key rest
  | .swept moment life :: rest => (standing key rest).filter (Pending.survives moment life)

/-- The record has this request and the answer to it, and nothing since has put an end to it. -/
def Granted (client : Address) (request reply : Seq) (since : Instant) (history : List Deed) : Prop :=
  ∃ later earlier, history = later ++ .answered client request reply since :: earlier ∧
    ∀ d ∈ later, ¬ d.Settles ⟨client, Seq.next reply⟩ since

theorem Granted.cons {client : Address} {request reply : Seq} {since : Instant} {history : List Deed}
    {d : Deed} (h : Granted client request reply since history)
    (hd : ¬ d.Settles ⟨client, Seq.next reply⟩ since) :
    Granted client request reply since (d :: history) := by
  obtain ⟨later, earlier, rfl, hnone⟩ := h
  exact ⟨d :: later, earlier, rfl, List.forall_mem_cons.mpr ⟨hd, hnone⟩⟩

theorem Granted.mem {client : Address} {request reply : Seq} {since : Instant} {history : List Deed}
    (h : Granted client request reply since history) : .answered client request reply since ∈ history := by
  obtain ⟨later, earlier, rfl, -⟩ := h
  simp

/-- An answer in the record has put this entry under the key, and it still stands. -/
def Backed (key : PendingKey) (entry : PendingEntry) (history : List Deed) : Prop :=
  ∃ request reply, Granted key.client request reply entry.created history ∧ key = ⟨key.client, Seq.next reply⟩ ∧
    entry.sequenceIn = Seq.next request

theorem Backed.cons {key : PendingKey} {entry : PendingEntry} {history : List Deed} {d : Deed}
    (h : Backed key entry history) (hd : ¬ d.Settles key entry.created) : Backed key entry (d :: history) := by
  obtain ⟨request, reply, hgranted, hkey, hin⟩ := h
  exact ⟨request, reply, hgranted.cons (hkey ▸ hd), hkey, hin⟩

theorem backed_of_standing {key : PendingKey} {entry : PendingEntry} {history : List Deed}
    (h : standing key history = some entry) : Backed key entry history := by
  induction history with
  | nil => simp [standing] at h
  | cons d rest ih =>
    cases d with
    | answered client request reply moment =>
      unfold standing at h
      split at h
      · rename_i hkey
        subst hkey
        cases h
        exact ⟨request, reply, ⟨[], rest, rfl, by simp⟩, rfl, rfl⟩
      · exact (ih h).cons (Ne.symm ‹_›)
    | opened key' newborn =>
      unfold standing at h
      split at h
      · simp at h
      · exact (ih h).cons (Ne.symm ‹_›)
    | swept moment life =>
      obtain ⟨hrest, hlive⟩ := Option.filter_eq_some_iff.mp h
      exact (ih hrest).cons (Nat.not_lt.mpr (of_decide_eq_true hlive))

def births (history : List Deed) : List PendingKey :=
  (history.filterMap fun
    | .opened key _ => some key
    | _ => none).reverse

theorem births_append (ds history : List Deed) : births (ds ++ history) = births history ++ births ds := by
  simp [births]

theorem countP_births (P : PendingKey → Bool) (history : List Deed) :
    (births history).countP P = history.countP (Deed.opens P) := by
  rw [births, List.countP_reverse, List.countP_filterMap]
  refine List.countP_congr fun d _ => ?_
  cases d <;> simp [Deed.opens]

namespace Outlet

def Extends (P : Address → Prop) (o o' : Outlet) : Prop :=
  ∃ new, o'.attempts = o.attempts ++ new ∧ ∀ x ∈ new, P x.target

variable {P : Address → Prop} {o o' : Outlet}

theorem Extends.refl (o : Outlet) : Extends P o o := ⟨[], by simp, by simp⟩

theorem Extends.send (h : Extends P o o') {a : Address} (ha : P a) (fate : Fate) (p : Packet) :
    Extends P o (send fate a p o').2 := by
  obtain ⟨new, hnew, hP⟩ := h
  refine ⟨new ++ [⟨a, p, fate a (o'.sentTo a).length⟩], ?_, ?_⟩
  · rw [snd_send, attempts_note, hnew, List.append_assoc]
  · intro x hx
    rcases List.mem_append.mp hx with hx | hx
    · exact hP x hx
    · rw [List.mem_singleton.mp hx]
      exact ha

end Outlet

namespace Server

structure Constant (v v' : Server) : Prop where
  config : v'.config = v.config
  handlers : v'.handlers = v.handlers
  admits : v'.admits = v.admits

theorem Tends.constant {order : List Nat} {v v' : Server} (h : Tends order v v') : v.Constant v' :=
  ⟨by rw [h.frame], by rw [h.frame], by rw [h.frame]⟩

theorem Tends.pending {order : List Nat} {v v' : Server} (h : Tends order v v') :
    v'.pending = v.pending := by
  rw [h.frame]

/-- The same connections for the same clients, some of whom may have been given up. -/
structure Rests (v v' : Server) : Prop where
  constant : v.Constant v'
  identities : v'.identities = v.identities
  clients : ∀ a n, v'.clients.find? a = some n → v.clients.find? a = some n

theorem Rests.refl (v : Server) : v.Rests v := ⟨⟨rfl, rfl, rfl⟩, rfl, fun _ _ h => h⟩

theorem Tends.rests {order : List Nat} {v v' : Server} (h : Tends order v v') : v.Rests v' :=
  ⟨h.constant, h.identities, fun a n ha => by rwa [h.frame] at ha⟩

/-- What an event can do to the handshakes and the clients of a server, with the line it leaves in the
record. -/
inductive Deals (fate : Outlet.Fate) (v : Server) (o : Outlet) (now : Instant) :
    Event → Server → Outlet → List Deed → Prop where
  | quiet {e : Event} {v' : Server} {o' : Outlet} (hrests : v.Rests v') (hpending : v'.pending = v.pending)
      (hsent : o.Extends (fun a => (a, false) ∈ v.identities) o') : Deals fate v o now e v' o' []
  | answered {source : Address} {octets : Octets} {draws : Draws} {p : Packet}
      (hdecode : Packet.decode? octets = some p) (hack : p.ack = none)
      (hadmits : v.admits source = true) :
      Deals fate v o now (.datagram source octets draws)
        { v with pending := v.pending.insert ⟨source, Seq.next draws.draw.1⟩ p.nextSequence now }
        (Outlet.send fate source (.reply draws.draw.1 p.nextSequence) o).2
        [.answered source p.sequence draws.draw.1 now]
  | opened {source : Address} {octets : Octets} {draws : Draws} {p : Packet} {ack : Seq}
      {entry : PendingEntry} (hdecode : Packet.decode? octets = some p) (hack : p.ack = some ack)
      (hsource : v.clients.find? source = none) (hentry : v.pending.find? ⟨source, ack⟩ = some entry) :
      Deals fate v o now (.datagram source octets draws)
        { v with
          pending := (v.pending.complete ⟨source, ack⟩).2
          clients := v.clients.put source v.created.length
          created := v.created ++ [v.newborn source entry.sequenceIn ack] } o
        [.opened ⟨source, ack⟩ (v.newborn source entry.sequenceIn ack)]
  | swept {order : List Nat} {v' : Server} {o' : Outlet} (hrests : v.Rests v')
      (hpending : v'.pending = (v.pending.sweep now v.pendingLife).2)
      (hsent : o.Extends (fun a => (a, false) ∈ v.identities) o') :
      Deals fate v o now (.poll order) v' o' [.swept now v.pendingLife]

variable {v : Server} {e : Event} {fate : Outlet.Fate} {now : Instant} {o : Outlet}

theorem Sound.datagram_deals (hv : v.Sound) (source : Address) (octets : Octets) (draws : Draws) :
    ∃ v' o', v.react (Outlet.socket fate) now o (.datagram source octets draws) = (v', o') ∧
      Deals fate v o now (.datagram source octets draws) v' o'
        (v.deed? v' now (.datagram source octets draws)).toList := by
  cases hp : Packet.decode? octets with
  | none =>
    refine ⟨v, o, react_malformed hp _ v source now draws o, ?_⟩
    simp only [deed?, hp, Option.toList_none]
    exact .quiet (.refl v) rfl (.refl o)
  | some p =>
    obtain ⟨v', o', hv', ho', hr⟩ := receives (Outlet.socket fate) v source p now draws o
    refine ⟨v', o', (react_datagram hp _ v source now draws o).trans (Prod.ext hv' ho'), ?_⟩
    simp only [deed?, hp]
    cases hr with
    | @client n hn =>
      have hf := handling_receiveFrom (Outlet.socket fate) source p now
      have ht := update_tends hf hv.shares n o
      simp only [hn, Option.toList_none]
      refine .quiet ht.rests ht.pending ?_
      exact update_keeps (I := o.Extends _) hf hv.shares
        (fun c hc q o' ho => ho.send (mem_identities hv.shares hc) fate q) (.refl o)
    | @unmatched ack hn ha _ =>
      have hnew : v.connection? v.created.length = none := List.getElem?_eq_none (Nat.le_refl _)
      simp only [hn, ha, hnew, Option.map_none, Option.toList_none]
      exact .quiet (.refl v) rfl (.refl o)
    | refused hn ha hr =>
      simp only [hn, ha, hr, Bool.false_eq_true, if_false, Option.toList_none]
      exact .quiet (.refl v) rfl (.refl o)
    | answered hn ha hr =>
      simp only [hn, ha, hr, if_true, Option.toList_some]
      exact .answered hp ha (Bool.and_eq_true_iff.mp hr).2
    | @opened ack entry hn ha hentry =>
      have hnew : (v.created ++ [v.newborn source entry.sequenceIn ack])[v.created.length]? = some _ :=
        List.getElem?_concat_length ..
      simp only [hn, ha, connection?, hnew, Option.map_some, Option.toList_some]
      exact .opened hp ha hn hentry

theorem Sound.deals (hv : v.Sound) (he : e.Thorough v) (fate : Outlet.Fate) (now : Instant)
    (o : Outlet) : ∃ v' o', v.react (Outlet.socket fate) now o e = (v', o') ∧
      Deals fate v o now e v' o' (v.deed? v' now e).toList := by
  have hconn : ∀ a, (a, false) ∈ v.identities → ∀ q o', o.Extends (fun a => (a, false) ∈ v.identities) o' →
      o.Extends (fun a => (a, false) ∈ v.identities) ((Outlet.socket fate).send a q o').2 :=
    fun a ha q o' ho => ho.send ha fate q
  cases e with
  | datagram source octets draws => exact hv.datagram_deals source octets draws
  | poll order =>
    have hsent := hv.react_keeps (Outlet.socket fate) (e := .poll order) hconn (by simp) (by simp) now
      (.refl o)
    have ht := updateEach_tends (v := v.expire now) (handling_pollOne (Outlet.socket fate) now) hv.shares
      order o
    rw [react_poll] at hsent
    refine ⟨_, _, react_poll _ v order now o, .swept ?_ ?_ hsent⟩
    · exact ⟨⟨ht.constant.config, ht.constant.handlers, ht.constant.admits⟩, ht.identities,
        fun a n ha => ht.rests.clients a n (find?_forgetClosed.mp ha).1⟩
    · exact ht.pending
  | stop order =>
    have hsent := hv.react_keeps (Outlet.socket fate) (e := .stop order) hconn (by simp)
      (fun _ _ _ ho => ho) now (.refl o)
    have ht := updateEach_tends (v := { v with clients := .empty })
      (handling_dismiss (Outlet.socket fate) now) hv.shares order o
    rw [react_stop] at hsent
    refine ⟨_, _, react_stop _ v order now o, .quiet ?_ ?_ hsent⟩
    · refine ⟨⟨ht.constant.config, ht.constant.handlers, ht.constant.admits⟩, ht.identities,
        fun a n ha => ?_⟩
      rw [ht.frame] at ha
      simp at ha
    · rw [ht.frame]
  | setPendingLife life =>
    exact ⟨_, _, rfl, .quiet ⟨⟨rfl, rfl, rfl⟩, rfl, fun _ _ ha => ha⟩ rfl (.refl o)⟩
  | use n what =>
    have hsent := hv.react_keeps (Outlet.socket fate) (e := .use n what) hconn (by simp) (by simp) now
      (.refl o)
    have ht := update_tends (handling_use (Outlet.socket fate) what now) hv.shares n o
    exact ⟨_, _, rfl, .quiet ht.rests ht.pending hsent⟩

variable {v' : Server} {o' : Outlet} {ds history : List Deed}

theorem Deals.constant (hd : Deals fate v o now e v' o' ds) : v.Constant v' := by
  cases hd with
  | quiet hrests => exact hrests.constant
  | answered => exact ⟨rfl, rfl, rfl⟩
  | opened => exact ⟨rfl, rfl, rfl⟩
  | swept hrests => exact hrests.constant

theorem Deals.pending (hd : Deals fate v o now e v' o' ds) {clock : Instant}
    (ho : v.pending.Orderly clock) (hc : clock ≤ now)
    (hpending : ∀ key, v.pending.find? key = standing key history) :
    v'.pending.Orderly now ∧ ∀ key, v'.pending.find? key = standing key (ds ++ history) := by
  cases hd with
  | quiet _ hsame => exact ⟨hsame ▸ ho.mono hc, fun key => hsame ▸ hpending key⟩
  | answered =>
    refine ⟨ho.insert hc _ _, fun key => ?_⟩
    rw [Pending.find?_insert, hpending]
    rfl
  | opened =>
    refine ⟨(ho.mono hc).complete _, fun key => ?_⟩
    rw [Pending.find?_complete, hpending]
    rfl
  | swept _ hswept =>
    refine ⟨hswept ▸ (ho.mono hc).sweep _, fun key => ?_⟩
    rw [hswept, Pending.find?_sweep (ho.mono hc), hpending]
    rfl

theorem Deals.identities (hd : Deals fate v o now e v' o' ds) :
    v'.identities = v.identities ++ (births ds).map fun key => (key.client, false) := by
  cases hd with
  | quiet hrests => simp [hrests.identities, births]
  | answered => simp [Server.identities, births]
  | opened => simp [Server.identities, births, newborn, Connection.establish, Connection.peer]
  | swept hrests => simp [hrests.identities, births]

theorem Deals.counted (hd : Deals fate v o now e v' o' ds) (P : PendingKey → Bool) :
    ds.countP (Deed.opens P) + v'.pending.entries.keys.countP P ≤
      ds.countP (Deed.answers P) + v.pending.entries.keys.countP P := by
  cases hd with
  | quiet _ hsame => simp [hsame]
  | @answered source _ draws p =>
    have hput := v.pending.entries.countP_keys_put ⟨source, Seq.next draws.draw.1⟩
      { sequenceIn := p.nextSequence, created := now } P
    cases hP : P ⟨source, Seq.next draws.draw.1⟩ <;>
      simp [Deed.opens, Deed.answers, Pending.insert, hP] at hput ⊢ <;> omega
  | @opened source _ _ _ ack _ _ _ _ hentry =>
    have herase := Table.countP_keys_erase hentry P
    rw [Pending.complete_of_find? hentry]
    cases hP : P ⟨source, ack⟩ <;> simp [Deed.opens, Deed.answers, hP] at herase ⊢ <;> omega
  | swept _ hswept =>
    have hsweep := v.pending.countP_keys_sweep now v.pendingLife P
    simpa [Deed.opens, Deed.answers, hswept] using hsweep

theorem Deals.attempts (hd : Deals fate v o now e v' o' ds) : o.attempts <+: o'.attempts := by
  have hext : ∀ {P : Address → Prop}, o.Extends P o' → o.attempts <+: o'.attempts :=
    fun ⟨new, hnew, _⟩ => ⟨new, hnew.symm⟩
  cases hd with
  | quiet _ _ hsent => exact hext hsent
  | answered => exact ⟨_, rfl⟩
  | opened => exact List.prefix_rfl
  | swept _ _ hsent => exact hext hsent

theorem Deals.answered_mem (hd : Deals fate v o now e v' o' ds) {client : Address} {request reply : Seq}
    {moment : Instant} (hm : .answered client request reply moment ∈ ds) : v.admits client = true ∧
      ∃ x ∈ o'.attempts, x.target = client ∧ x.packet = .reply reply (Seq.next request) := by
  cases hd with
  | quiet => simp at hm
  | answered _ _ hadmits =>
    cases List.mem_singleton.mp hm
    exact ⟨hadmits, _, List.mem_append_right _ (.head _), rfl, rfl⟩
  | opened => simp at hm
  | swept => simp at hm

theorem Deals.sent (hd : Deals fate v o now e v' o' ds) {x : Recorder.Attempt} (hx : x ∈ o'.attempts) :
    x ∈ o.attempts ∨ (x.target, false) ∈ v.identities ∨ ∃ request reply moment,
      .answered x.target request reply moment ∈ ds ∧ x.packet = .reply reply (Seq.next request) := by
  have hext : o.Extends (fun a => (a, false) ∈ v.identities) o' →
      x ∈ o.attempts ∨ (x.target, false) ∈ v.identities := by
    rintro ⟨new, hnew, hP⟩
    rw [hnew] at hx
    exact (List.mem_append.mp hx).imp id (hP x)
  cases hd with
  | quiet _ _ hsent => exact (hext hsent).imp id .inl
  | answered =>
    rcases List.mem_append.mp hx with hx | hx
    · exact .inl hx
    · cases List.mem_singleton.mp hx
      exact .inr (.inr ⟨_, _, _, .head _, rfl⟩)
  | opened => exact .inl hx
  | swept _ _ hsent => exact (hext hsent).imp id .inl

end Server

/-- The record is true of the server and of what it has sent, and leaves nothing out. -/
structure Service.Ledger (config : Settings) (handlers : HandlerFactory) (admits : Address → Bool)
    (h : Service) : Prop where
  constant : (Server.new config handlers admits).Constant h.server
  pending : ∀ key, h.server.pending.find? key = standing key h.history
  orderly : h.server.pending.Orderly h.clock
  born : h.server.identities = (births h.history).map fun key => (key.client, false)
  counted : ∀ P, h.history.countP (Deed.opens P) + h.server.pending.entries.keys.countP P ≤
    h.history.countP (Deed.answers P)
  answered : ∀ client request reply moment, .answered client request reply moment ∈ h.history →
    admits client = true ∧ ∃ x ∈ h.outlet.attempts,
      x.target = client ∧ x.packet = .reply reply (Seq.next request)
  sent : ∀ x ∈ h.outlet.attempts, (x.target, false) ∈ h.server.identities ∨
    ∃ request reply moment, .answered x.target request reply moment ∈ h.history ∧
      x.packet = .reply reply (Seq.next request)

namespace Service

variable {config : Settings} {handlers : HandlerFactory} {admits : Address → Bool} {h : Service}
  {now : Instant} {e : Server.Event}

theorem ledger_start : (start config handlers admits).Ledger config handlers admits where
  constant := ⟨rfl, rfl, rfl⟩
  pending _ := rfl
  orderly := Pending.orderly_empty 0
  born := rfl
  counted _ := Nat.le_refl _
  answered _ _ _ _ hd := by simp [start] at hd
  sent _ hx := by simp [start] at hx

theorem next_deals (hv : h.server.Sound) (hp : h.Possible now e) (fate : Outlet.Fate) :
    ∃ ds, (h.next fate now e).history = ds ++ h.history ∧
      Server.Deals fate h.server h.outlet now e (h.next fate now e).server (h.next fate now e).outlet ds := by
  obtain ⟨v', o', hy, hd⟩ := hv.deals hp.thorough fate now h.outlet
  refine ⟨(h.server.deed? v' now e).toList, ?_, ?_⟩ <;> simp only [Service.next, hy]
  exact hd

theorem Ledger.next (hl : h.Ledger config handlers admits) (hv : h.server.Sound)
    (hp : h.Possible now e) (fate : Outlet.Fate) : (h.next fate now e).Ledger config handlers admits := by
  obtain ⟨ds, hhistory, hd⟩ := next_deals hv hp fate
  obtain ⟨horderly, hpending⟩ := hd.pending hl.orderly hp.later hl.pending
  have hconstant := hd.constant
  refine ⟨⟨?_, ?_, ?_⟩, ?_, horderly, ?_, fun P => ?_, ?_, ?_⟩
  · exact hconstant.config.trans hl.constant.config
  · exact hconstant.handlers.trans hl.constant.handlers
  · exact hconstant.admits.trans hl.constant.admits
  · rw [hhistory]
    exact hpending
  · rw [hd.identities, hl.born, hhistory, births_append, List.map_append]
  · have hcount := hd.counted P
    have hbefore := hl.counted P
    rw [hhistory, List.countP_append, List.countP_append]
    omega
  · rw [hhistory]
    intro client request reply moment hm
    rcases List.mem_append.mp hm with hm | hm
    · obtain ⟨hadmits, hx⟩ := hd.answered_mem hm
      exact ⟨(congrFun hl.constant.admits client).symm.trans hadmits, hx⟩
    · obtain ⟨hadmits, x, hx, hpacket⟩ := hl.answered client request reply moment hm
      exact ⟨hadmits, x, hd.attempts.subset hx, hpacket⟩
  · intro x hx
    rw [hhistory, hd.identities]
    rcases hd.sent hx with hx | hx | ⟨request, reply, moment, hm, hpacket⟩
    · rcases hl.sent x hx with hx | ⟨request, reply, moment, hm, hpacket⟩
      · exact .inl (List.mem_append_left _ hx)
      · exact .inr ⟨request, reply, moment, List.mem_append_right _ hm, hpacket⟩
    · exact .inl (List.mem_append_left _ hx)
    · exact .inr ⟨request, reply, moment, List.mem_append_left _ hm, hpacket⟩

theorem Reached.ledger (hr : Reached config handlers admits h) : h.Ledger config handlers admits := by
  induction hr with
  | start => exact ledger_start
  | next hr hp fate ih => exact ih.next hr.sound hp fate

end Service

end DatagramStreams
