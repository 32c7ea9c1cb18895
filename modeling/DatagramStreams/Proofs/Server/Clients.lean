import DatagramStreams.Proofs.Handshake.Expiry
import DatagramStreams.Proofs.Session.Ended
import DatagramStreams.Proofs.Transport.Outlet

/-! What a server does with its clients, whatever the socket. Connections are handled one at a time, by
their numbers; none of them is ever another's business.
Main statements: `receives`, all that a packet can do, `Sound.react`, a client's connection has the client
for its peer whatever happens, and `Sound.react_keeps`, which sends an event can lead to.
-/

set_option autoImplicit false

namespace DatagramStreams

variable {σ τ : Type} {sock : Socket σ} {sock' : Socket τ} {s : σ} {t : τ} {now : Instant}

namespace Server

/-- Two ways to handle a connection, each on a socket of its own, that do the same to it. -/
def Mirrors (sock : Socket σ) (sock' : Socket τ) (f : Connection → σ → Connection × σ)
    (g : Connection → τ → Connection × τ) : Prop :=
  ∀ peer (R : σ → τ → Prop) c s t, sock.Alike sock' peer false R → c.Bound peer false → R s t →
    Connection.Lockstep peer false R (f c s) (g c t)

theorem mirrors_receiveFrom (source : Address) (p : Packet) (now : Instant) :
    Mirrors sock sock' (receiveFrom sock source p now) (receiveFrom sock' source p now) :=
  fun _ _ _ _ _ h hb hr => receiveFrom_lockstep h hb hr source p now

theorem mirrors_pollOne (now : Instant) : Mirrors sock sock' (pollOne sock now) (pollOne sock' now) :=
  fun _ _ _ _ _ h hb hr => pollOne_lockstep h hb hr now

theorem mirrors_dismiss (now : Instant) : Mirrors sock sock' (dismiss sock now) (dismiss sock' now) :=
  fun _ _ _ _ _ h hb hr => (Connection.close_lockstep h hb hr now).bind
    fun _ _ _ hb hr => (Connection.poll_lockstep h hb hr now).2

theorem mirrors_use (what : Connection.Use) (now : Instant) :
    Mirrors sock sock' (what.run sock now) (what.run sock' now) :=
  fun _ _ _ _ _ h hb hr => Connection.Use.run_lockstep h hb hr what now

theorem Mirrors.keeps {f : Connection → σ → Connection × σ} (hf : Mirrors sock sock f f) {peer : Address}
    {I : σ → Prop} (hI : ∀ p s, I s → I (sock.send peer p s).2) {c : Connection}
    (hb : c.Bound peer false) (hs : I s) : (f c s).1.Bound peer false ∧ I (f c s).2 := by
  have h := hf peer _ c s s (Socket.alike_self hI) hb ⟨rfl, hs⟩
  exact ⟨h.bound, h.related.2⟩

/-- What may be done to connections: a closed one stays closed, and nothing is sent for it. -/
structure Handling (sock : Socket σ) (f : Connection → σ → Connection × σ) : Prop where
  mirrors : Mirrors sock sock f f
  inert : ∀ c s, c.state = .closed → (f c s).1.state = .closed ∧ (f c s).2 = s

theorem handling_receiveFrom (sock : Socket σ) (source : Address) (p : Packet) (now : Instant) :
    Handling sock (receiveFrom sock source p now) where
  mirrors := mirrors_receiveFrom source p now
  inert c s h := by simp [receiveFrom_of_closed h, h]

theorem handling_pollOne (sock : Socket σ) (now : Instant) : Handling sock (pollOne sock now) where
  mirrors := mirrors_pollOne now
  inert c s h := by simp [pollOne_of_closed h, h]

theorem handling_dismiss (sock : Socket σ) (now : Instant) : Handling sock (dismiss sock now) where
  mirrors := mirrors_dismiss now
  inert c s h := by simp [dismiss_of_closed h, h]

theorem handling_use (sock : Socket σ) (what : Connection.Use) (now : Instant) :
    Handling sock (what.run sock now) where
  mirrors := mirrors_use what now
  inert _ _ h := Connection.Use.run_of_closed h what

def updateAll : List (Nat × (Connection → σ → Connection × σ)) → Server → σ → Server × σ
  | [], v, s => (v, s)
  | x :: rest, v, s => updateAll rest (v.update x.1 x.2 s).1 (v.update x.1 x.2 s).2

def updateEach (f : Connection → σ → Connection × σ) (order : List Nat) : Server → σ → Server × σ :=
  updateAll (order.map fun n => (n, f))

theorem pollEach_eq (now : Instant) (order : List Nat) (v : Server) (s : σ) :
    pollEach sock now order v s = updateEach (pollOne sock now) order v s := by
  induction order generalizing v s with
  | nil => rfl
  | cons n rest ih => exact ih _ _

theorem dismissEach_eq (now : Instant) (order : List Nat) (v : Server) (s : σ) :
    dismissEach sock now order v s = updateEach (dismiss sock now) order v s := by
  induction order generalizing v s with
  | nil => rfl
  | cons n rest ih => exact ih _ _

theorem updateEach_cons (f : Connection → σ → Connection × σ) (n : Nat) (rest : List Nat) (v : Server) (s : σ) :
    updateEach f (n :: rest) v s = updateEach f rest (v.update n f s).1 (v.update n f s).2 := rfl

theorem updateEach_append (f : Connection → σ → Connection × σ) (l r : List Nat) (v : Server) (s : σ) :
    updateEach f (l ++ r) v s = updateEach f r (updateEach f l v s).1 (updateEach f l v s).2 := by
  induction l generalizing v s with
  | nil => rfl
  | cons n rest ih => exact ih _ _

/-- Peer and socket of every connection ever created, none of which ever changes. -/
def identities (v : Server) : List (Address × Bool) := v.created.map fun c => (c.peer, c.ownsSocket)

theorem getElem?_identities (v : Server) (n : Nat) :
    v.identities[n]? = (v.connection? n).map fun c => (c.peer, c.ownsSocket) := by
  simp [identities, connection?]

/-- No connection owns the socket, a client's connection has the client for its peer, and a connection
that is no client's is closed. -/
structure Sound (v : Server) : Prop where
  client : ∀ a n, v.clients.find? a = some n → v.identities[n]? = some (a, false)
  shares : ∀ i ∈ v.identities, i.2 = false
  lost : ∀ n c, v.connection? n = some c → c.state = .closed ∨ v.clients.find? c.peer = some n

/-- From `v` to `v'` nothing has changed but connections whose numbers are in `order`. -/
structure Tends (order : List Nat) (v v' : Server) : Prop where
  frame : v' = { v with created := v'.created }
  identities : v'.identities = v.identities
  others : ∀ m, m ∉ order → v'.connection? m = v.connection? m
  closed : ∀ m c c', v.connection? m = some c → v'.connection? m = some c' → c.state = .closed →
    c'.state = .closed

namespace Tends

variable {order order' : List Nat} {v v₁ v₂ : Server}

theorem refl (v : Server) : Tends order v v :=
  ⟨rfl, rfl, fun _ _ => rfl, fun _ _ _ h h' hc => Option.some.inj (h.symm.trans h') ▸ hc⟩

theorem connection?_isSome (h : Tends order v v₁) {m : Nat} {c : Connection}
    (hc : v₁.connection? m = some c) : ∃ c₀, v.connection? m = some c₀ ∧ c₀.peer = c.peer := by
  have hid := congrArg (fun l => l[m]?) h.identities
  simp only [getElem?_identities, hc] at hid
  cases hc₀ : v.connection? m with
  | none => simp [hc₀] at hid
  | some c₀ =>
    rw [hc₀] at hid
    exact ⟨c₀, rfl, (congrArg Prod.fst (Option.some.inj hid)).symm⟩

theorem trans (h₁ : Tends order v v₁) (h₂ : Tends order v₁ v₂) : Tends order v v₂ where
  frame := by rw [h₂.frame, h₁.frame]
  identities := h₂.identities.trans h₁.identities
  others m hm := (h₂.others m hm).trans (h₁.others m hm)
  closed m c c' hc hc' h := by
    obtain ⟨c₁, hc₁, -⟩ := h₂.connection?_isSome hc'
    exact h₂.closed m c₁ c' hc₁ hc' (h₁.closed m c c₁ hc hc₁ h)

theorem mono (h : Tends order v v₁) (hs : ∀ n ∈ order, n ∈ order') : Tends order' v v₁ :=
  ⟨h.frame, h.identities, fun m hm => h.others m fun hn => hm (hs m hn), h.closed⟩

end Tends

section

variable {v : Server} {f : Connection → σ → Connection × σ} {n : Nat} {c : Connection}

theorem mem_identities (hv : ∀ i ∈ v.identities, i.2 = false) (hn : v.connection? n = some c) :
    (c.peer, false) ∈ v.identities := by
  have hid : (c.peer, c.ownsSocket) ∈ v.identities :=
    List.mem_of_getElem? ((v.getElem?_identities n).trans (by rw [hn]; rfl))
  have hshared : c.ownsSocket = false := hv _ hid
  rwa [hshared] at hid

theorem bound_of_shares (hv : ∀ i ∈ v.identities, i.2 = false) (hn : v.connection? n = some c) :
    c.Bound c.peer false :=
  ⟨rfl, hv _ (List.mem_of_getElem? ((v.getElem?_identities n).trans (by rw [hn]; rfl)))⟩

theorem update_of_none (hn : v.connection? n = none) : v.update n f s = (v, s) := by
  simp only [update, hn]

theorem update_of_some (hn : v.connection? n = some c) :
    v.update n f s = ({ v with created := v.created.set n (f c s).1 }, (f c s).2) := by
  simp only [update, hn]

theorem connection?_update_self (hn : v.connection? n = some c) :
    (v.update n f s).1.connection? n = some (f c s).1 := by
  have hlt := (List.getElem?_eq_some_iff.mp hn).1
  rw [update_of_some hn]
  simp [connection?, hlt]

theorem connection?_update_ne {m : Nat} (hm : m ≠ n) :
    (v.update n f s).1.connection? m = v.connection? m := by
  cases hn : v.connection? n with
  | none => rw [update_of_none hn]
  | some c =>
    rw [update_of_some hn]
    simp [connection?, List.getElem?_set_ne hm.symm]

theorem update_tends (hf : Handling sock f) (hv : ∀ i ∈ v.identities, i.2 = false) (n : Nat) (s : σ) :
    Tends [n] v (v.update n f s).1 where
  frame := by
    cases hn : v.connection? n with
    | none => rw [update_of_none hn]
    | some c => rw [update_of_some hn]
  identities := by
    refine List.ext_getElem? fun m => ?_
    rw [getElem?_identities, getElem?_identities]
    by_cases hm : m = n
    · rw [hm]
      cases hn : v.connection? n with
      | none => rw [update_of_none hn, hn]
      | some c =>
        have hb := bound_of_shares hv hn
        have hb' := (hf.mirrors.keeps (I := fun _ => True) (fun _ _ _ => trivial) hb (s := s) trivial).1
        rw [connection?_update_self hn, Option.map_some, Option.map_some, hb'.peer, hb'.owned, hb.owned]
    · rw [connection?_update_ne hm]
  others m hm := connection?_update_ne fun he => hm (he ▸ List.mem_singleton_self n)
  closed m c c' hc hc' h := by
    by_cases hm : m = n
    · rw [hm] at hc hc'
      rw [connection?_update_self hc] at hc'
      exact Option.some.inj hc' ▸ (hf.inert c s h).1
    · rw [connection?_update_ne hm, hc] at hc'
      exact Option.some.inj hc' ▸ h

theorem update_keeps (hf : Handling sock f) (hv : ∀ i ∈ v.identities, i.2 = false) {I : σ → Prop}
    (hI : ∀ c, v.connection? n = some c → ∀ p s, I s → I (sock.send c.peer p s).2) (hs : I s) :
    I (v.update n f s).2 := by
  cases hn : v.connection? n with
  | none =>
    rw [update_of_none hn]
    exact hs
  | some c =>
    rw [update_of_some hn]
    exact (hf.mirrors.keeps (hI c hn) (bound_of_shares hv hn) hs).2

section Plan

variable {plan : List (Nat × (Connection → σ → Connection × σ))}

theorem updateAll_tends (hf : ∀ x ∈ plan, Handling sock x.2) (hv : ∀ i ∈ v.identities, i.2 = false) (s : σ) :
    Tends (plan.map Prod.fst) v (updateAll plan v s).1 := by
  induction plan generalizing v s with
  | nil => exact .refl v
  | cons x rest ih =>
    have h₁ := update_tends (hf x List.mem_cons_self) hv x.1 s
    have h₂ := ih (fun y hy => hf y (List.mem_cons_of_mem _ hy)) (h₁.identities ▸ hv) (v.update x.1 x.2 s).2
    exact (h₁.mono (by simp)).trans (h₂.mono fun m hm => List.mem_cons_of_mem _ hm)

theorem updateAll_keeps (hf : ∀ x ∈ plan, Handling sock x.2) (hv : ∀ i ∈ v.identities, i.2 = false) {I : σ → Prop}
    (hI : ∀ x ∈ plan, ∀ i, v.identities[x.1]? = some i → ∀ p s, I s → I (sock.send i.1 p s).2) (hs : I s) :
    I (updateAll plan v s).2 := by
  induction plan generalizing v s with
  | nil => exact hs
  | cons x rest ih =>
    have hhead := hf x List.mem_cons_self
    have h₁ := update_tends hhead hv x.1 s
    refine ih (fun y hy => hf y (List.mem_cons_of_mem _ hy)) (h₁.identities ▸ hv) (fun y hy i hi => ?_)
      (update_keeps hhead hv (fun c hc => ?_) hs)
    · exact hI y (List.mem_cons_of_mem _ hy) i (h₁.identities ▸ hi)
    · exact hI x List.mem_cons_self (c.peer, c.ownsSocket) (by rw [getElem?_identities, hc]; rfl)

/-- What nothing in a plan spoils holds until the plan comes to the connection, and so does its end. -/
theorem updateAll_settles (hf : ∀ x ∈ plan, Handling sock x.2) (hv : ∀ i ∈ v.identities, i.2 = false)
    {P : Connection → Prop} (hP : ∀ x ∈ plan, ∀ c s, P c → P (x.2 c s).1)
    (hs : ∀ c s, P c → (f c s).1.state = .closed) (hn : (n, f) ∈ plan) {c₀ : Connection}
    (hc₀ : v.connection? n = some c₀) (h₀ : P c₀) {s : σ} (hc : (updateAll plan v s).1.connection? n = some c) :
    c.state = .closed := by
  induction plan generalizing v s c₀ with
  | nil => simp at hn
  | cons x rest ih =>
    have hrest : ∀ y ∈ rest, Handling sock y.2 := fun y hy => hf y (List.mem_cons_of_mem _ hy)
    have h₁ := update_tends (hf x List.mem_cons_self) hv x.1 s
    have hv₁ : ∀ i ∈ (v.update x.1 x.2 s).1.identities, i.2 = false := h₁.identities ▸ hv
    rcases List.mem_cons.mp hn with rfl | hlater
    · have h₂ := updateAll_tends hrest hv₁ (v.update n f s).2
      exact h₂.closed n (f c₀ s).1 c (connection?_update_self hc₀) hc (hs c₀ s h₀)
    · have hP₁ : ∀ y ∈ rest, ∀ c s, P c → P (y.2 c s).1 := fun y hy => hP y (List.mem_cons_of_mem _ hy)
      by_cases hx : n = x.1
      · subst hx
        exact ih hrest hv₁ hP₁ hlater (connection?_update_self hc₀) (hP x List.mem_cons_self c₀ s h₀) hc
      · exact ih hrest hv₁ hP₁ hlater ((connection?_update_ne hx).trans hc₀) h₀ hc

end Plan

theorem updateEach_tends (hf : Handling sock f) (hv : ∀ i ∈ v.identities, i.2 = false)
    (order : List Nat) (s : σ) : Tends order v (updateEach f order v s).1 :=
  (updateAll_tends (List.forall_mem_map.mpr fun _ _ => hf) hv s).mono (by simp)

theorem updateEach_keeps (hf : Handling sock f) (hv : ∀ i ∈ v.identities, i.2 = false) {I : σ → Prop}
    {order : List Nat}
    (hI : ∀ n ∈ order, ∀ i, v.identities[n]? = some i → ∀ p s, I s → I (sock.send i.1 p s).2) (hs : I s) :
    I (updateEach f order v s).2 :=
  updateAll_keeps (List.forall_mem_map.mpr fun _ _ => hf) hv (List.forall_mem_map.mpr hI) hs

end

inductive Receives (sock : Socket σ) (source : Address) (p : Packet) (now : Instant) (draws : Draws)
    (v : Server) (s : σ) : Server → σ → Prop where
  | client {n : Nat} (h : v.clients.find? source = some n) :
      Receives sock source p now draws v s (v.update n (receiveFrom sock source p now) s).1
        (v.update n (receiveFrom sock source p now) s).2
  | unmatched {ack : Seq} (h : v.clients.find? source = none) (ha : p.ack = some ack)
      (hp : v.pending.find? ⟨source, ack⟩ = none) : Receives sock source p now draws v s v s
  | opened {ack : Seq} {e : PendingEntry} (h : v.clients.find? source = none) (ha : p.ack = some ack)
      (hp : v.pending.find? ⟨source, ack⟩ = some e) : Receives sock source p now draws v s
        { v with
          pending := (v.pending.complete ⟨source, ack⟩).2
          clients := v.clients.put source v.created.length
          created := v.created ++ [v.newborn source e.sequenceIn ack] } s
  | refused (h : v.clients.find? source = none) (ha : p.ack = none)
      (hr : (p.connectRequest && v.admits source) = false) : Receives sock source p now draws v s v s
  | answered (h : v.clients.find? source = none) (ha : p.ack = none)
      (hr : (p.connectRequest && v.admits source) = true) : Receives sock source p now draws v s
        { v with pending := v.pending.insert ⟨source, Seq.next draws.draw.1⟩ p.nextSequence now }
        (sock.send source (.reply draws.draw.1 p.nextSequence) s).2

theorem receives (sock : Socket σ) (v : Server) (source : Address) (p : Packet) (now : Instant)
    (draws : Draws) (s : σ) : ∃ v' s', (v.receive sock source p now draws s).1 = v' ∧
      (v.receive sock source p now draws s).2.2 = s' ∧ Receives sock source p now draws v s v' s' := by
  refine ⟨_, _, rfl, rfl, ?_⟩
  unfold receive
  cases hf : v.clients.find? source with
  | some n => exact .client hf
  | none =>
    cases ha : p.ack with
    | some ack =>
      simp only [complete]
      cases hp : v.pending.find? ⟨source, ack⟩ with
      | none =>
        rw [Pending.complete_of_none hp]
        exact .unmatched hf ha hp
      | some e =>
        have hc := Pending.complete_of_find? hp
        have ho : Receives sock source p now draws v s _ s := .opened hf ha hp
        rw [hc] at ho ⊢
        exact ho
    | none =>
      simp only [accept]
      cases hr : p.connectRequest with
      | false => exact .refused hf ha (by simp [hr])
      | true =>
        cases hadmits : v.admits source with
        | false => exact .refused hf ha (by simp [hadmits])
        | true => exact .answered hf ha (by simp [hr, hadmits])

/-- What can happen to a server. A poll and a stop go through the clients in an order of their own. -/
inductive Event where
  | datagram (source : Address) (octets : Octets) (draws : Draws)
  | poll (order : List Nat)
  | stop (order : List Nat)
  | setPendingLife (life : Span)
  | use (n : Nat) (what : Connection.Use)

def react (sock : Socket σ) (now : Instant) (v : Server) (s : σ) : Event → Server × σ
  | .datagram source octets draws =>
    match Packet.decode? octets with
    | some p =>
      let (v, _, s) := v.receive sock source p now draws s
      (v, s)
    | none => (v, s)
  | .poll order => v.pollInOrder sock order now s
  | .stop order => v.stopInOrder sock order now s
  | .setPendingLife life => (v.setPendingLife life, s)
  | .use n what => v.update n (what.run sock now) s

theorem react_datagram {octets : Octets} {p : Packet} (hp : Packet.decode? octets = some p)
    (sock : Socket σ) (v : Server) (source : Address) (now : Instant) (draws : Draws) (s : σ) :
    v.react sock now s (.datagram source octets draws) =
      ((v.receive sock source p now draws s).1, (v.receive sock source p now draws s).2.2) := by
  simp only [react, hp]

theorem react_malformed {octets : Octets} (hp : Packet.decode? octets = none) (sock : Socket σ)
    (v : Server) (source : Address) (now : Instant) (draws : Draws) (s : σ) :
    v.react sock now s (.datagram source octets draws) = (v, s) := by
  simp only [react, hp]

def expire (v : Server) (now : Instant) : Server :=
  { v with pending := (v.pending.sweep now v.pendingLife).2 }

theorem react_poll (sock : Socket σ) (v : Server) (order : List Nat) (now : Instant) (s : σ) :
    v.react sock now s (.poll order) =
      ((updateEach (pollOne sock now) order (v.expire now) s).1.forgetClosed,
        (updateEach (pollOne sock now) order (v.expire now) s).2) := by
  simp only [react, pollInOrder, pollEach_eq, expire]

theorem react_stop (sock : Socket σ) (v : Server) (order : List Nat) (now : Instant) (s : σ) :
    v.react sock now s (.stop order) =
      ((updateEach (dismiss sock now) order { v with clients := .empty } s).1,
        sock.close (updateEach (dismiss sock now) order { v with clients := .empty } s).2) := by
  simp only [react, stopInOrder, dismissEach_eq]

variable {v : Server}

theorem find?_forgetClosed {a : Address} {n : Nat} : v.forgetClosed.clients.find? a = some n ↔
    v.clients.find? a = some n ∧ ∃ c, v.connection? n = some c ∧ c.state ≠ .closed := by
  rw [forgetClosed, Table.find?_keep, Option.filter_eq_some_iff]
  cases v.connection? n <;> simp

theorem sound_new (config : Settings) (handlers : HandlerFactory) (admits : Address → Bool) :
    (new config handlers admits).Sound :=
  ⟨fun a n h => by simp [new, Table.find?, Table.lookup] at h, by simp [new, identities],
    fun n c h => by simp [new, connection?] at h⟩

theorem Sound.tends {order : List Nat} {v' : Server} (h : v.Sound) (ht : Tends order v v') : v'.Sound where
  client a n hn := by
    rw [ht.frame] at hn
    exact ht.identities ▸ h.client a n hn
  shares := ht.identities ▸ h.shares
  lost n c hc := by
    obtain ⟨c₀, hc₀, hp⟩ := ht.connection?_isSome hc
    rcases h.lost n c₀ hc₀ with hclosed | hfind
    · exact .inl (ht.closed n c₀ c hc₀ hc hclosed)
    · rw [ht.frame, ← hp]
      exact .inr hfind

theorem Sound.receive (h : v.Sound) (source : Address) (p : Packet) (now : Instant) (draws : Draws) (s : σ) :
    (v.receive sock source p now draws s).1.Sound := by
  obtain ⟨v', s', hv', -, hr⟩ := receives sock v source p now draws s
  rw [hv']
  cases hr with
  | client _ => exact h.tends (update_tends (handling_receiveFrom sock source p now) h.shares _ s)
  | unmatched => exact h
  | refused => exact h
  | answered => exact ⟨h.client, h.shares, h.lost⟩
  | @opened ack e hfind _ _ =>
    have hids : ∀ clients pending, ({ v with
        pending, clients
        created := v.created ++ [v.newborn source e.sequenceIn ack] } :
          Server).identities = v.identities ++ [(source, false)] := by
      intro clients pending
      simp [identities, newborn, Connection.establish, Connection.peer]
    -- The newborn comes last, so every other keeps its number.
    refine ⟨fun a n hn => ?_, fun i hi => ?_, fun n c hc => ?_⟩
    · rw [hids]
      by_cases ha : a = source
      · rw [ha, Table.find?_put_self] at hn
        rw [ha, ← Option.some.inj hn, show v.created.length = v.identities.length by simp [identities],
          List.getElem?_concat_length]
      · rw [Table.find?_put_ne _ ha] at hn
        have hold := h.client a n hn
        rw [List.getElem?_append_left (List.getElem?_eq_some_iff.mp hold).1]
        exact hold
    · rw [hids] at hi
      rcases List.mem_append.mp hi with hi | hi
      · exact h.shares i hi
      · rw [List.mem_singleton.mp hi]
    · by_cases hn : n < v.created.length
      · rw [connection?, List.getElem?_append_left hn] at hc
        refine (h.lost n c hc).imp id fun hold => ?_
        rw [Table.find?_put_ne _ fun hp => ?_]
        · exact hold
        · rw [hp, hfind] at hold
          cases hold
      · rcases Nat.eq_or_lt_of_le (Nat.not_lt.mp hn) with rfl | hgt
        · rw [connection?, List.getElem?_concat_length] at hc
          cases hc
          exact .inr (Table.find?_put_self _ _ _)
        · rw [connection?, List.getElem?_eq_none (by simp; omega)] at hc
          cases hc

theorem Sound.forgetClosed (h : v.Sound) : v.forgetClosed.Sound where
  client a n hn := h.client a n (find?_forgetClosed.mp hn).1
  shares := h.shares
  lost n c hc := by
    by_cases hclosed : c.state = .closed
    · exact .inl hclosed
    · exact .inr (find?_forgetClosed.mpr ⟨(h.lost n c hc).resolve_left hclosed, c, hc, hclosed⟩)

/-- A stop gives up all clients at once, so it must see to every one of them. -/
theorem Sound.stopAll (h : v.Sound) {plan : List (Nat × (Connection → σ → Connection × σ))}
    (hf : ∀ x ∈ plan, Handling sock x.2) (ho : ∀ n ∈ v.clients.values, ∃ now, (n, dismiss sock now) ∈ plan)
    (s : σ) : (updateAll plan { v with clients := .empty } s).1.Sound := by
  have ht := updateAll_tends (v := { v with clients := .empty }) hf h.shares s
  refine ⟨fun a n hn => ?_, ht.identities ▸ h.shares, fun n c hc => .inl ?_⟩
  · rw [ht.frame] at hn
    simp at hn
  · obtain ⟨c₀, hc₀, hp⟩ := ht.connection?_isSome hc
    rcases h.lost n c₀ hc₀ with hclosed | hfind
    · exact ht.closed n c₀ c hc₀ hc hclosed
    · obtain ⟨now, hmem⟩ := ho n (Table.mem_values_of_find? hfind)
      exact updateAll_settles (v := { v with clients := .empty }) hf h.shares (P := fun _ => True)
        (fun _ _ _ _ _ => trivial) (fun c s _ => state_dismiss c now s) hmem hc₀ trivial hc

theorem Sound.stop (h : v.Sound) {order : List Nat} (ho : ∀ n ∈ v.clients.values, n ∈ order) (now : Instant)
    (s : σ) : (updateEach (dismiss sock now) order { v with clients := .empty } s).1.Sound :=
  h.stopAll (List.forall_mem_map.mpr fun _ _ => handling_dismiss sock now)
    (fun n hn => ⟨now, List.mem_map_of_mem (ho n hn)⟩) s

def Event.Thorough (v : Server) : Event → Prop
  | .poll order | .stop order => order.Perm v.clients.values
  | _ => True

theorem Sound.react (h : v.Sound) {e : Event} (he : e.Thorough v) (now : Instant) (s : σ) :
    (v.react sock now s e).1.Sound := by
  cases e with
  | datagram source octets draws =>
    cases hp : Packet.decode? octets with
    | none =>
      rw [react_malformed hp]
      exact h
    | some p =>
      rw [react_datagram hp]
      exact h.receive source p now draws s
  | poll order =>
    have hexpire : (v.expire now).Sound := ⟨h.client, h.shares, h.lost⟩
    simp only [react_poll]
    exact (hexpire.tends (updateEach_tends (handling_pollOne sock now) hexpire.shares order s)).forgetClosed
  | stop order =>
    simp only [react_stop]
    exact h.stop (fun n hn => he.mem_iff.mpr hn) now s
  | setPendingLife life => exact ⟨h.client, h.shares, h.lost⟩
  | use n what => exact h.tends (update_tends (handling_use sock what now) h.shares n s)

theorem Sound.receive_keeps (h : v.Sound) (sock : Socket σ) {I : σ → Prop} {source : Address}
    (hI : ∀ q s, I s → I (sock.send source q s).2) (p : Packet) (now : Instant) (draws : Draws) (hs : I s) :
    I (v.receive sock source p now draws s).2.2 := by
  obtain ⟨v', s', -, hs', hr⟩ := receives sock v source p now draws s
  rw [hs']
  cases hr with
  | @client n hn =>
    refine update_keeps (handling_receiveFrom sock source p now) h.shares (fun c hc => ?_) hs
    have hid := h.client source n hn
    rw [getElem?_identities, hc] at hid
    rw [show c.peer = source from congrArg Prod.fst (Option.some.inj hid)]
    exact hI
  | unmatched => exact hs
  | refused => exact hs
  | opened => exact hs
  | answered => exact hI _ s hs

theorem Sound.react_keeps (h : v.Sound) (sock : Socket σ) {I : σ → Prop} {e : Event}
    (hconn : ∀ a, (a, false) ∈ v.identities → ∀ q s, I s → I (sock.send a q s).2)
    (hsource : ∀ source b draws, e = .datagram source b draws → ∀ q s, I s → I (sock.send source q s).2)
    (hstop : ∀ order, e = .stop order → ∀ s, I s → I (sock.close s)) (now : Instant) (hs : I s) :
    I (v.react sock now s e).2 := by
  have heach : ∀ (n : Nat) (i : Address × Bool), v.identities[n]? = some i →
      ∀ q s, I s → I (sock.send i.1 q s).2 := by
    intro n i hi
    have hmem := List.mem_of_getElem? hi
    exact hconn i.1 (by rw [← h.shares i hmem]; exact hmem)
  cases e with
  | datagram source octets draws =>
    cases hp : Packet.decode? octets with
    | none =>
      rw [react_malformed hp]
      exact hs
    | some p =>
      rw [react_datagram hp]
      exact h.receive_keeps sock (hsource source octets draws rfl) p now draws hs
  | poll order =>
    simp only [react_poll]
    exact updateEach_keeps (v := v.expire now) (handling_pollOne sock now) h.shares (fun n _ => heach n) hs
  | stop order =>
    simp only [react_stop]
    exact hstop order rfl _ (updateEach_keeps (v := { v with clients := .empty }) (handling_dismiss sock now)
      h.shares (fun n _ => heach n) hs)
  | setPendingLife life => exact hs
  | use n what =>
    refine update_keeps (handling_use sock what now) h.shares (fun c hc => ?_) hs
    exact heach n (c.peer, c.ownsSocket) (by rw [getElem?_identities, hc]; rfl)

end Server

end DatagramStreams
