import DatagramStreams.Proofs.Server.Service

/-! Clients of one server do not reach each other. What a client goes through is computed by a server that
has no other client, from the events that concern this client alone.
Main statements: `alone?_run`, the shared server does what the lonely one does, `Reached.isolated`, which
compares two runs, and `Server.Sound.datagram_spares`, what a packet leaves alone.
-/

set_option autoImplicit false

namespace DatagramStreams

inductive Concern where
  | packet (p : Packet)
  | poll
  | stop
  | use (what : Connection.Use)

namespace Concern

variable {σ τ : Type} {sock : Socket σ} {sock' : Socket τ}

def handle (sock : Socket σ) (client : Address) (now : Instant) : Concern → Connection → σ → Connection × σ
  | .packet p => Server.receiveFrom sock client p now
  | .poll => Server.pollOne sock now
  | .stop => Server.dismiss sock now
  | .use what => what.run sock now

def keeps (c : Connection) : Concern → Bool
  | .poll => c.state ≠ .closed
  | .stop => false
  | _ => true

theorem mirrors_handle (what : Concern) (client : Address) (now : Instant) :
    Server.Mirrors sock sock' (what.handle sock client now) (what.handle sock' client now) := by
  cases what with
  | packet p => exact Server.mirrors_receiveFrom client p now
  | poll => exact Server.mirrors_pollOne now
  | stop => exact Server.mirrors_dismiss now
  | use what => exact Server.mirrors_use what now

theorem handling_handle (sock : Socket σ) (what : Concern) (client : Address) (now : Instant) :
    Server.Handling sock (what.handle sock client now) := by
  cases what with
  | packet p => exact Server.handling_receiveFrom sock client p now
  | poll => exact Server.handling_pollOne sock now
  | stop => exact Server.handling_dismiss sock now
  | use what => exact Server.handling_use sock what now

end Concern

namespace Server

def Event.concern? (b : Address) (n : Nat) : Event → Option Concern
  | .datagram source octets _ => if source = b then (Packet.decode? octets).map .packet else none
  | .poll _ => some .poll
  | .stop _ => some .stop
  | .setPendingLife _ => none
  | .use m what => if m = n then some (.use what) else none

variable {v : Server} {b : Address} {n : Nat} {c : Connection}

theorem Sound.client_ne (hv : v.Sound) {a : Address} {m : Nat} (ha : v.clients.find? a = some m)
    (hb : v.clients.find? b = some n) (h : a ≠ b) : m ≠ n := by
  rintro rfl
  have hid := (hv.client a m ha).symm.trans (hv.client b m hb)
  exact h (congrArg Prod.fst (Option.some.inj hid))

theorem Sound.nodup_values (hv : v.Sound) : v.clients.values.Nodup := by
  refine List.pairwise_map.mpr ((List.pairwise_map.mp v.clients.unique).imp_of_mem ?_)
  intro x y hx hy hne
  exact hv.client_ne (Table.find?_of_mem_entries hx) (Table.find?_of_mem_entries hy) hne

theorem Sound.connection?_isSome (hv : v.Sound) (hb : v.clients.find? b = some n) :
    ∃ c, v.connection? n = some c := by
  have hid := hv.client b n hb
  rw [getElem?_identities] at hid
  obtain ⟨c, hc, -⟩ := Option.map_eq_some_iff.mp hid
  exact ⟨c, hc⟩

theorem Sound.bound (hv : v.Sound) (hb : v.clients.find? b = some n) (hn : v.connection? n = some c) :
    c.Bound b false := by
  have hid := hv.client b n hb
  rw [getElem?_identities, hn] at hid
  exact ⟨congrArg Prod.fst (Option.some.inj hid), congrArg Prod.snd (Option.some.inj hid)⟩

theorem aside_send_other {fate : Outlet.Fate} {o x : Outlet} {a : Address} (h : a ≠ b) (q : Packet) :
    o.aside b = x → ((Outlet.socket fate).send a q o).2.aside b = x := by
  rintro rfl
  exact congrArg (fun l => ({ attempts := l } : Outlet)) (Outlet.sentTo_send_other h q o)

theorem update_client (fate : Outlet.Fate) (now : Instant) (o : Outlet) (what : Concern)
    (hv : ∀ i ∈ v.identities, i.2 = false) (hb : c.Bound b false) (hn : v.connection? n = some c) :
    let y := v.update n (what.handle (Outlet.socket fate) b now) o
    let alone := what.handle (Outlet.socket fun _ => fate b) b now c (o.aside b)
    y.1.identities = v.identities ∧ y.1.connection? n = some alone.1 ∧ y.2.aside b = alone.2 := by
  have h := what.mirrors_handle b now b _ c o (o.aside b) (Outlet.alike_alone fate b) hb rfl
  refine ⟨(update_tends (Concern.handling_handle _ what b now) hv n o).identities, ?_, ?_⟩
  · rw [connection?_update_self hn, h.same]
  · rw [update_of_some hn]
    exact h.related.symm

theorem updateEach_others (fate : Outlet.Fate) (now : Instant) (o : Outlet) (what : Concern)
    (hv : ∀ i ∈ v.identities, i.2 = false) {order : List Nat} (hn : n ∉ order)
    (hothers : ∀ m ∈ order, ∀ i, v.identities[m]? = some i → i.1 ≠ b) :
    let y := updateEach (what.handle (Outlet.socket fate) b now) order v o
    y.1.identities = v.identities ∧ y.1.connection? n = v.connection? n ∧ y.2.aside b = o.aside b := by
  have hf := Concern.handling_handle (Outlet.socket fate) what b now
  have ht := updateEach_tends hf hv order o
  refine ⟨ht.identities, ht.others n hn, ?_⟩
  exact updateEach_keeps (I := fun o' => o'.aside b = o.aside b) hf hv
    (fun m hm i hi q _ => aside_send_other (hothers m hm i hi) q) rfl

/-- In a round a client is handled once; it makes no difference who comes before and who after. -/
theorem updateEach_client (fate : Outlet.Fate) (now : Instant) (o : Outlet) (what : Concern)
    (hv : ∀ i ∈ v.identities, i.2 = false) (hb : c.Bound b false) (hn : v.connection? n = some c)
    {order : List Nat} (hnodup : order.Nodup) (hmem : n ∈ order)
    (hothers : ∀ m ∈ order, m ≠ n → ∀ i, v.identities[m]? = some i → i.1 ≠ b) :
    let y := updateEach (what.handle (Outlet.socket fate) b now) order v o
    let alone := what.handle (Outlet.socket fun _ => fate b) b now c (o.aside b)
    y.1.connection? n = some alone.1 ∧ y.2.aside b = alone.2 := by
  obtain ⟨before, after, rfl⟩ := List.append_of_mem hmem
  obtain ⟨-, hafter, hdisjoint⟩ := List.nodup_append.mp hnodup
  have hnotbefore : n ∉ before := fun h => hdisjoint n h n List.mem_cons_self rfl
  have hnotafter : n ∉ after := (List.nodup_cons.mp hafter).1
  rw [updateEach_append]
  obtain ⟨hi₁, hc₁, ho₁⟩ := updateEach_others fate now o what hv hnotbefore
    fun m hm => hothers m (List.mem_append_left _ hm) fun he => hnotbefore (he ▸ hm)
  generalize updateEach (what.handle (Outlet.socket fate) b now) before v o = x at hi₁ hc₁ ho₁ ⊢
  obtain ⟨hi₂, hc₂, ho₂⟩ := update_client fate now x.2 what (hi₁ ▸ hv) hb (hc₁.trans hn)
  rw [updateEach_cons]
  generalize x.1.update n (what.handle (Outlet.socket fate) b now) x.2 = y at hi₂ hc₂ ho₂ ⊢
  have hids := hi₂.trans hi₁
  obtain ⟨-, hc₃, ho₃⟩ := updateEach_others fate now y.2 what (hids ▸ hv) hnotafter fun m hm =>
    hids ▸ hothers m (List.mem_append_right _ (List.mem_cons_of_mem _ hm)) fun he => hnotafter (he ▸ hm)
  rw [ho₁] at hc₂ ho₂
  exact ⟨hc₃.trans hc₂, ho₃.trans ho₂⟩

variable {e : Event} {what : Concern}

theorem Sound.visits (hv : v.Sound) (hb : v.clients.find? b = some n) {order : List Nat}
    (ho : order.Perm v.clients.values) : order.Nodup ∧ n ∈ order ∧
      ∀ m ∈ order, m ≠ n → ∀ i, v.identities[m]? = some i → i.1 ≠ b := by
  refine ⟨ho.nodup_iff.mpr hv.nodup_values, ho.mem_iff.mpr (Table.mem_values_of_find? hb), ?_⟩
  rintro m hm hne i hi rfl
  obtain ⟨a, ha⟩ := Table.exists_find?_of_mem_values (ho.mem_iff.mp hm)
  obtain rfl : (a, false) = i := Option.some.inj ((hv.client a m ha).symm.trans hi)
  exact hne (Option.some.inj (ha.symm.trans hb))

/-- What happens with a client is what would happen if there were no other. -/
theorem Sound.react_concern (fate : Outlet.Fate) (now : Instant) (o : Outlet) (hv : v.Sound)
    (hb : v.clients.find? b = some n) (hn : v.connection? n = some c) (he : e.Thorough v)
    (hw : e.concern? b n = some what) :
    let y := v.react (Outlet.socket fate) now o e
    let alone := what.handle (Outlet.socket fun _ => fate b) b now c (o.aside b)
    y.1.connection? n = some alone.1 ∧ y.2.aside b = alone.2 ∧
      decide (y.1.clients.find? b = some n) = what.keeps alone.1 := by
  have hbound := hv.bound hb hn
  cases e with
  | datagram source octets draws =>
    simp only [Event.concern?, Option.ite_none_right_eq_some, Option.map_eq_some_iff] at hw
    obtain ⟨rfl, p, hp, rfl⟩ := hw
    rw [react_datagram hp]
    obtain ⟨v', o', hv', ho', hr⟩ := receives (Outlet.socket fate) v source p now draws o
    rw [hv', ho']
    cases hr with
    | @client m hm =>
      obtain rfl : n = m := Option.some.inj (hb.symm.trans hm)
      obtain ⟨-, hc, ho⟩ := update_client fate now o (.packet p) hv.shares hbound hn
      refine ⟨hc, ho, decide_eq_true ?_⟩
      rw [(update_tends (handling_receiveFrom _ source p now) hv.shares n o).frame]
      exact hb
    -- The source has a client, so the server has nothing else to do with this datagram.
    | unmatched h => simp [hb] at h
    | opened h => simp [hb] at h
    | refused h => simp [hb] at h
    | answered h => simp [hb] at h
  | poll order =>
    obtain rfl := Option.some.inj hw
    obtain ⟨hnodup, hmem, hothers⟩ := hv.visits hb he
    obtain ⟨hc, ho⟩ := updateEach_client (v := v.expire now) fate now o .poll hv.shares hbound hn hnodup hmem
      hothers
    rw [react_poll]
    have ht := updateEach_tends (v := v.expire now) (handling_pollOne (Outlet.socket fate) now) hv.shares
      order o
    -- The sweep comes after all visits and goes by what the connection is then.
    refine ⟨hc, ho, decide_eq_decide.mpr (find?_forgetClosed.trans ⟨?_, fun hs => ?_⟩)⟩
    · rintro ⟨-, c', hc', hs⟩
      exact Option.some.inj (hc'.symm.trans hc) ▸ hs
    · exact ⟨by rw [ht.frame]; exact hb, _, hc, hs⟩
  | stop order =>
    obtain rfl := Option.some.inj hw
    obtain ⟨hnodup, hmem, hothers⟩ := hv.visits hb he
    obtain ⟨hc, ho⟩ := updateEach_client (v := { v with clients := .empty }) fate now o .stop hv.shares hbound hn
      hnodup hmem hothers
    rw [react_stop]
    have ht := updateEach_tends (v := { v with clients := .empty })
      (handling_dismiss (Outlet.socket fate) now) hv.shares order o
    refine ⟨hc, ho, decide_eq_false ?_⟩
    rw [ht.frame]
    simp
  | setPendingLife life => simp [Event.concern?] at hw
  | use m use =>
    simp only [Event.concern?, Option.ite_none_right_eq_some, Option.some.injEq] at hw
    obtain ⟨rfl, rfl⟩ := hw
    obtain ⟨-, hc, ho⟩ := update_client fate now o (.use use) hv.shares hbound hn
    refine ⟨hc, ho, decide_eq_true ?_⟩
    simp only [Server.react]
    rw [(update_tends (handling_use _ use now) hv.shares m o).frame]
    exact hb

/-- A packet changes nothing of what the server has of other addresses, and leaves the socket open. -/
structure Spares (source : Address) (v : Server) (o : Outlet) (v' : Server) (o' : Outlet) : Prop where
  connections : ∀ n c, v.connection? n = some c → c.peer ≠ source → v'.connection? n = some c
  clients : ∀ a, a ≠ source → v'.clients.find? a = v.clients.find? a
  pending : ∀ k, k.client ≠ source → v'.pending.find? k = v.pending.find? k
  sent : ∀ a, a ≠ source → o'.sentTo a = o.sentTo a
  closed : o'.closed = o.closed

theorem Sound.receive_spares (hv : v.Sound) (fate : Outlet.Fate) (source : Address) (p : Packet)
    (now : Instant) (draws : Draws) (o : Outlet) :
    Spares source v o (v.receive (Outlet.socket fate) source p now draws o).1
      (v.receive (Outlet.socket fate) source p now draws o).2.2 := by
  have hsent : ∀ a, a ≠ source →
      (v.receive (Outlet.socket fate) source p now draws o).2.2.sentTo a = o.sentTo a := fun a ha =>
    hv.receive_keeps (Outlet.socket fate) (I := fun (o' : Outlet) => o'.sentTo a = o.sentTo a)
      (fun q o' ho => (Outlet.sentTo_send_other ha.symm q o').trans ho) p now draws rfl
  have hclosed : (v.receive (Outlet.socket fate) source p now draws o).2.2.closed = o.closed :=
    hv.receive_keeps (Outlet.socket fate) (I := fun (o' : Outlet) => o'.closed = o.closed)
      (fun _ _ ho => ho) p now draws rfl
  -- What is sent goes to the source alone. What is left is what becomes of the server.
  obtain ⟨v', o', hv', ho', hr⟩ := receives (Outlet.socket fate) v source p now draws o
  rw [ho'] at hsent hclosed ⊢
  rw [hv']
  cases hr with
  | @client m hm =>
    have ht := update_tends (handling_receiveFrom (Outlet.socket fate) source p now) hv.shares m o
    refine ⟨fun n c hn hc => ?_, fun a _ => ?_, fun k _ => ?_, hsent, hclosed⟩
    · refine (ht.others n fun he => hc ?_).trans hn
      obtain rfl := List.mem_singleton.mp he
      exact (hv.bound hm hn).peer
    · rw [ht.frame]
    · rw [ht.frame]
  | unmatched => exact ⟨fun _ _ hn _ => hn, fun _ _ => rfl, fun _ _ => rfl, hsent, hclosed⟩
  | refused => exact ⟨fun _ _ hn _ => hn, fun _ _ => rfl, fun _ _ => rfl, hsent, hclosed⟩
  | opened =>
    refine ⟨fun n c hn _ => ?_, fun a ha => Table.find?_put_ne _ ha _, fun k hk => ?_, hsent, hclosed⟩
    · have hlt := (List.getElem?_eq_some_iff.mp hn).1
      exact (List.getElem?_append_left hlt).trans hn
    · rw [Pending.find?_complete, if_neg fun he => hk (congrArg PendingKey.client he)]
  | answered =>
    refine ⟨fun _ _ hn _ => hn, fun _ _ => rfl, fun k hk => ?_, hsent, hclosed⟩
    rw [Pending.find?_insert, if_neg fun he => hk (congrArg PendingKey.client he)]

theorem Sound.datagram_spares (hv : v.Sound) (fate : Outlet.Fate) (source : Address) (octets : Octets)
    (now : Instant) (draws : Draws) (o : Outlet) :
    Spares source v o (v.react (Outlet.socket fate) now o (.datagram source octets draws)).1
      (v.react (Outlet.socket fate) now o (.datagram source octets draws)).2 := by
  cases hp : Packet.decode? octets with
  | none =>
    rw [react_malformed hp]
    exact ⟨fun _ _ hn _ => hn, fun _ _ => rfl, fun _ _ => rfl, fun _ _ => rfl, rfl⟩
  | some p =>
    rw [react_datagram hp]
    exact hv.receive_spares fate source p now draws o

theorem Sound.react_other (fate : Outlet.Fate) (now : Instant) (o : Outlet) (hv : v.Sound)
    (hb : v.clients.find? b = some n) (hn : v.connection? n = some c) (hw : e.concern? b n = none) :
    let y := v.react (Outlet.socket fate) now o e
    y.1.connection? n = some c ∧ y.2.aside b = o.aside b ∧ y.1.clients.find? b = some n := by
  cases e with
  | datagram source octets draws =>
    cases hp : Packet.decode? octets with
    | none =>
      rw [react_malformed hp]
      exact ⟨hn, rfl, hb⟩
    | some p =>
      have hne : b ≠ source := by
        rintro rfl
        simp [Event.concern?, hp] at hw
      have h := hv.receive_spares fate source p now draws o
      rw [react_datagram hp]
      refine ⟨h.connections n c hn fun hp => hne ((hv.bound hb hn).peer.symm.trans hp), ?_,
        (h.clients b hne).trans hb⟩
      exact congrArg (fun l => ({ attempts := l } : Outlet)) (h.sent b hne)
  | poll order => simp [Event.concern?] at hw
  | stop order => simp [Event.concern?] at hw
  | setPendingLife life => exact ⟨hn, rfl, hb⟩
  | use m use =>
    have hne : n ≠ m := by
      rintro rfl
      simp [Event.concern?] at hw
    have ht := update_tends (handling_use (Outlet.socket fate) use now) hv.shares m o
    refine ⟨(ht.others n (by simpa using hne)).trans hn, ?_, ?_⟩
    · simp only [Server.react]
      cases hm : v.connection? m with
      | none => rw [update_of_none hm]
      | some c' =>
        -- A connection to the same peer that is no longer its client's is closed, and sends nothing.
        rcases hv.lost m c' hm with hclosed | hfind
        · rw [update_of_some hm, ((handling_use (Outlet.socket fate) use now).inert c' o hclosed).2]
        · refine update_keeps (I := fun (o' : Outlet) => o'.aside b = o.aside b) (handling_use _ use now)
            hv.shares (fun c'' hc'' q _ => ?_) rfl
          obtain rfl : c' = c'' := Option.some.inj (hm.symm.trans hc'')
          refine aside_send_other (fun hp => hne ?_) q
          exact Option.some.inj (hb.symm.trans (hp ▸ hfind))
    · simp only [Server.react]
      rw [ht.frame]
      exact hb

end Server

/-- A client as it is where there is no other: its connection, with the journal of its callbacks, the sends
to it, and whether the server still has it. -/
@[ext]
structure Alone where
  connection : Connection
  outlet : Outlet
  connected : Bool

namespace Alone

def next (fate : Nat → Option IoKind) (b : Address) (x : Alone) (moment : Instant × Concern) : Alone :=
  let (connection, outlet) :=
    moment.2.handle (Outlet.socket fun _ => fate) b moment.1 x.connection x.outlet
  { connection, outlet, connected := moment.2.keeps connection }

def course (fate : Nat → Option IoKind) (b : Address) : Alone → List (Instant × Concern) → List Alone
  | _, [] => []
  | x, moment :: rest => x.next fate b moment :: course fate b (x.next fate b moment) rest

def last (fate : Nat → Option IoKind) (b : Address) (x : Alone) (moments : List (Instant × Concern)) :
    Alone :=
  moments.foldl (next fate b) x

end Alone

namespace Service

variable {config : Settings} {handlers : HandlerFactory} {admits : Address → Bool} {h : Service}
  {fate : Outlet.Fate} {b : Address} {n : Nat} {x : Alone} {now : Instant} {e : Server.Event}

def alone? (h : Service) (b : Address) (n : Nat) : Option Alone :=
  (h.server.connection? n).map fun c =>
    { connection := c, outlet := h.outlet.aside b, connected := h.server.clients.find? b = some n }

def course (fate : Outlet.Fate) (b : Address) (n : Nat) :
    Service → List (Instant × Server.Event) → List (Option Alone)
  | _, [] => []
  | h, (now, e) :: rest =>
    let later := course fate b n (h.next fate now e) rest
    match e.concern? b n with
    | some _ => (h.next fate now e).alone? b n :: later
    | none => later

def concerns (b : Address) (n : Nat) (l : List (Instant × Server.Event)) : List (Instant × Concern) :=
  l.filterMap fun moment => (moment.2.concern? b n).map fun what => (moment.1, what)

inductive Serves (fate : Outlet.Fate) (b : Address) (n : Nat) :
    Service → List (Instant × Server.Event) → Service → Prop where
  | here (h : Service) : Serves fate b n h [] h
  | step {h last : Service} {now : Instant} {e : Server.Event} {rest : List (Instant × Server.Event)}
      (hb : h.server.clients.find? b = some n) (hp : h.Possible now e)
      (hl : Serves fate b n (h.next fate now e) rest last) :
      Serves fate b n h ((now, e) :: rest) last

theorem alone?_next_of_concern (fate : Outlet.Fate) (hv : h.server.Sound)
    (hb : h.server.clients.find? b = some n) (hx : h.alone? b n = some x) (hp : h.Possible now e)
    {what : Concern} (hw : e.concern? b n = some what) :
    (h.next fate now e).alone? b n = some (x.next (fate b) b (now, what)) := by
  obtain ⟨c, hc, rfl⟩ := Option.map_eq_some_iff.mp hx
  obtain ⟨hc', ho, hkeeps⟩ := hv.react_concern fate now h.outlet hb hc hp.thorough hw
  exact Option.map_eq_some_iff.mpr ⟨_, hc', Alone.ext rfl ho hkeeps⟩

theorem alone?_next_of_none (fate : Outlet.Fate) (now : Instant) (hv : h.server.Sound)
    (hb : h.server.clients.find? b = some n) (hx : h.alone? b n = some x) (hw : e.concern? b n = none) :
    (h.next fate now e).alone? b n = some x := by
  obtain ⟨c, hc, rfl⟩ := Option.map_eq_some_iff.mp hx
  obtain ⟨hc', ho, hb'⟩ := hv.react_other fate now h.outlet hb hc hw
  refine Option.map_eq_some_iff.mpr ⟨c, hc', Alone.ext rfl ho ?_⟩
  exact (decide_eq_true hb').trans (decide_eq_true hb).symm

/-- The induction is on the run: an event that concerns the client is a step of the lonely server, any other
is none. -/
theorem alone?_run {last : Service} {l : List (Instant × Server.Event)}
    (hr : Reached config handlers admits h) (hx : h.alone? b n = some x) (hl : h.Serves fate b n l last) :
    h.course fate b n l = (x.course (fate b) b (concerns b n l)).map some ∧
      last.alone? b n = some (x.last (fate b) b (concerns b n l)) := by
  induction hl generalizing x with
  | here h => exact ⟨rfl, hx⟩
  | @step h last now e rest hb hp _ ih =>
    cases hw : e.concern? b n with
    | some what =>
      have hnext := alone?_next_of_concern fate hr.sound hb hx hp hw
      obtain ⟨hcourse, hlast⟩ := ih (hr.next hp fate) hnext
      simp only [course, concerns, List.filterMap_cons, hw, Option.map_some, hnext]
      exact ⟨congrArg (_ :: ·) hcourse, hlast⟩
    | none =>
      have hnext := alone?_next_of_none fate now hr.sound hb hx hw
      obtain ⟨hcourse, hlast⟩ := ih (hr.next hp fate) hnext
      simp only [course, concerns, List.filterMap_cons, hw, Option.map_none]
      exact ⟨hcourse, hlast⟩

/-- Two continuations that mean the same to a client, with the same fate of the sends to it, are the same
for it; and whatever packet comes from elsewhere, what the server has of others is as before. -/
theorem Reached.isolated (hr : Reached config handlers admits h) (hb : h.server.clients.find? b = some n)
    {fate' : Outlet.Fate} (hfate : fate b = fate' b) {l l' : List (Instant × Server.Event)}
    {last last' : Service} (hl : h.Serves fate b n l last) (hl' : h.Serves fate' b n l' last')
    (hsame : concerns b n l = concerns b n l') :
    (h.course fate b n l = h.course fate' b n l' ∧ last.alone? b n = last'.alone? b n) ∧
      ∀ fate source octets now draws, Server.Spares source h.server h.outlet
        (h.next fate now (.datagram source octets draws)).server
        (h.next fate now (.datagram source octets draws)).outlet := by
  refine ⟨?_, fun fate source octets now draws =>
    hr.sound.datagram_spares fate source octets now draws h.outlet⟩
  obtain ⟨c, hc⟩ := hr.sound.connection?_isSome hb
  obtain ⟨x, hx⟩ : ∃ x, h.alone? b n = some x := ⟨_, by rw [alone?, hc]; rfl⟩
  obtain ⟨hcourse, hlast⟩ := alone?_run hr hx hl
  obtain ⟨hcourse', hlast'⟩ := alone?_run hr hx hl'
  exact ⟨by rw [hcourse, hcourse', hfate, hsame], by rw [hlast, hlast', hfate, hsame]⟩

/-- What Bob goes through is the same whether Alice acknowledges what was never sent and is closed for it,
or says nothing and is polled first. -/
theorem Reached.isolated_from_violation :
    let bob : Address := { ip := .v4Loopback, port := 2 }
    let alice : Address := { ip := .v4Loopback, port := 3 }
    let echo : Handler := .ofScript { reliable := [.sendReliable none] }
    let taken : Outlet.Fate := fun _ _ => none
    let failing : Outlet.Fate := fun a _ => if a = alice then some .other else none
    let handlers : HandlerFactory := fun _ a => if a = bob then echo else .ofScript {}
    let answered := ((Service.start {} handlers fun _ => true).next taken 0
      (.datagram bob (Packet.request 10).encode ⟨[20]⟩)).next taken 0
      (.datagram alice (Packet.request 30).encode ⟨[40]⟩)
    let h := (answered.next taken 0 (.datagram bob (Packet.ackOnly 21).encode {})).next taken 0
      (.datagram alice (Packet.ackOnly 41).encode {})
    let said := (Packet.carrying true 11 [1]).encode
    let loud : List (Instant × Server.Event) := [(4, .datagram alice (Packet.ackOnly 50).encode {}),
      (5, .datagram bob said {}), (9, .poll [0, 1])]
    let quiet : List (Instant × Server.Event) := [(5, .datagram bob said {}), (9, .poll [1, 0])]
    let last := ((h.next failing 4 (.datagram alice (Packet.ackOnly 50).encode {})).next failing 5
      (.datagram bob said {})).next failing 9 (.poll [0, 1])
    let last' := (h.next taken 5 (.datagram bob said {})).next taken 9 (.poll [1, 0])
    (last.server.connection? 1).map Connection.state = some .closed ∧
      (last'.server.connection? 1).map Connection.state = some .opened ∧
      (last.outlet.passedTo bob).getLast? = some ((Packet.carrying true 21 [1]).withAck 12) ∧
      h.course failing bob 0 loud = h.course taken bob 0 quiet ∧
      last.alone? bob 0 = last'.alone? bob 0 := by
  intro bob alice echo taken failing handlers answered h said loud quiet last last'
  have hstart : Reached {} handlers (fun _ => true) _ := .start
  have hanswered := (hstart.next (.datagram 0 bob (Packet.request 10).encode ⟨[20]⟩ (by decide))
    taken).next (.datagram 0 alice (Packet.request 30).encode ⟨[40]⟩ (by decide)) taken
  have hr := (hanswered.next (.datagram 0 bob (Packet.ackOnly 21).encode {} (by decide))
    taken).next (.datagram 0 alice (Packet.ackOnly 41).encode {} (by decide)) taken
  have hl : h.Serves failing bob 0 loud last :=
    .step (by decide +kernel) (.datagram _ _ _ _ (by decide +kernel))
      (.step (by decide +kernel) (.datagram _ _ _ _ (by decide +kernel))
        (.step (by decide +kernel) (.poll _ (by decide +kernel) (by decide +kernel)) (.here _)))
  have hl' : h.Serves taken bob 0 quiet last' :=
    .step (by decide +kernel) (.datagram _ _ _ _ (by decide +kernel))
      (.step (by decide +kernel) (.poll _ (by decide +kernel) (by decide +kernel)) (.here _))
  have hfate : failing bob = taken bob := rfl
  have hsame : concerns bob 0 loud = concerns bob 0 quiet := rfl
  exact ⟨by decide +kernel, by decide +kernel, by decide +kernel,
    (hr.isolated (by decide +kernel) hfate hl hl' hsame).1⟩

end Service

end DatagramStreams
