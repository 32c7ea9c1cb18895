import DatagramStreams.Proofs.Server.Clients
import DatagramStreams.Proofs.Session.Turns

/-! When a server forgets a connection. Whatever the socket, every connection that it has created goes
through turns like any other, a poll forgets those that have been closed and told so, and a stop sees all of
them off. In the middle of both, handlers may use any connection.
Main statements: `Reached.seesOff`, and `Retired.occur`, without packets a stopped server stays as it is.
-/

set_option autoImplicit false

namespace DatagramStreams

namespace Server

variable {σ : Type} {sock : Socket σ} {v : Server} {s : σ} {now : Instant} {order : List Nat} {n : Nat}
  {c : Connection} {P : Connection → Prop} {f : Connection → σ → Connection × σ}

theorem forall_update (hf : ∀ c s, P c → P (f c s).1) (h : ∀ c ∈ v.created, P c) (n : Nat) (s : σ) :
    ∀ c ∈ (v.update n f s).1.created, P c := by
  cases hn : v.connection? n with
  | none =>
    rw [update_of_none hn]
    exact h
  | some c =>
    rw [update_of_some hn]
    intro c' hc'
    rcases List.mem_or_eq_of_mem_set hc' with hold | rfl
    · exact h c' hold
    · exact hf c s (h c (List.mem_of_getElem? hn))

theorem forall_updateAll {plan : List (Nat × (Connection → σ → Connection × σ))}
    (hf : ∀ x ∈ plan, ∀ c s, P c → P (x.2 c s).1) (h : ∀ c ∈ v.created, P c) (s : σ) :
    ∀ c ∈ (updateAll plan v s).1.created, P c := by
  induction plan generalizing v s with
  | nil => exact h
  | cons x rest ih =>
    exact ih (fun y hy => hf y (List.mem_cons_of_mem _ hy)) (forall_update (hf x List.mem_cons_self) h x.1 s) _

theorem receiveFrom_paired (source : Address) (p : Packet) (now : Instant) (c : Connection) (s : σ)
    (h : c.Paired) : (receiveFrom sock source p now c s).1.Paired := by
  rw [receiveFrom_eq]
  exact h.turn sock now (.arrival source p) s

theorem pollOne_paired (now : Instant) (c : Connection) (s : σ) (h : c.Paired) :
    (pollOne sock now c s).1.Paired := by
  rw [pollOne_eq]
  exact h.poll sock now s

theorem dismiss_paired (now : Instant) (c : Connection) (s : σ) (h : c.Paired) :
    (dismiss sock now c s).1.Paired :=
  (h.turn sock now (.use .close) s).poll sock now _

theorem receive_paired (h : ∀ c ∈ v.created, c.Paired) (source : Address) (p : Packet) (now : Instant)
    (draws : Draws) (s : σ) : ∀ c ∈ (v.receive sock source p now draws s).1.created, c.Paired := by
  obtain ⟨v', s', hv', -, hr⟩ := receives sock v source p now draws s
  rw [hv']
  cases hr with
  | client _ => exact forall_update (receiveFrom_paired source p now) h _ s
  | unmatched => exact h
  | refused => exact h
  | answered => exact h
  | opened =>
    intro c hc
    rcases List.mem_append.mp hc with hc | hc
    · exact h c hc
    · rw [List.mem_singleton.mp hc]
      exact Connection.paired_establish _ _ _ _ _ _

def Event.Simple : Event → Prop
  | .poll _ | .stop _ => False
  | _ => True

/-- A step of a poll or of a stop: it comes to a client, or a handler that has been called uses a connection of
its own choice. Such a use stands beside the visit it belongs to, before or after it, as the two connections
share nothing but the socket, and the socket may answer as it likes. -/
inductive Visit where
  | client (n : Nat) (now : Instant)
  | use (n : Nat) (what : Connection.Use) (now : Instant)

namespace Visit

def client? : Visit → Option Nat
  | .client n _ => some n
  | .use .. => none

def deed (sock : Socket σ) (f : Instant → Connection → σ → Connection × σ) :
    Visit → Nat × (Connection → σ → Connection × σ)
  | .client n now => (n, f now)
  | .use n what now => (n, what.run sock now)

variable {f : Instant → Connection → σ → Connection × σ} {visits : List Visit}

theorem forall_deed {Q : Nat × (Connection → σ → Connection × σ) → Prop} (hclient : ∀ n now, Q (n, f now))
    (huse : ∀ n (what : Connection.Use) now, Q (n, what.run sock now)) : ∀ x ∈ visits.map (deed sock f), Q x := by
  refine List.forall_mem_map.mpr fun x _ => ?_
  cases x with
  | client n now => exact hclient n now
  | use n what now => exact huse n what now

theorem handling_deed (hf : ∀ now, Handling sock (f now)) (visits : List Visit) :
    ∀ x ∈ visits.map (deed sock f), Handling sock x.2 :=
  forall_deed (fun _ => hf) fun _ => handling_use sock

theorem exists_deed (sock : Socket σ) (f : Instant → Connection → σ → Connection × σ)
    (h : n ∈ visits.filterMap client?) :
    ∃ now, (n, f now) ∈ visits.map (deed sock f) := by
  obtain ⟨x, hx, hn⟩ := List.mem_filterMap.mp h
  cases x with
  | client m now =>
    cases hn
    exact ⟨now, List.mem_map_of_mem hx⟩
  | use => cases hn

end Visit

inductive Occasion where
  | event (e : Event)
  | poll (visits : List Visit)
  | stop (visits : List Visit)

def occur (sock : Socket σ) (now : Instant) (v : Server) (s : σ) : Occasion → Server × σ
  | .event e => v.react sock now s e
  | .poll visits =>
    let seen := updateAll (visits.map (Visit.deed sock (pollOne sock))) (v.expire now) s
    (seen.1.forgetClosed, seen.2)
  | .stop visits =>
    let seen := updateAll (visits.map (Visit.deed sock (dismiss sock))) { v with clients := .empty } s
    (seen.1, sock.close seen.2)

def Occasion.Thorough (v : Server) : Occasion → Prop
  | .event e => e.Simple
  | .poll visits | .stop visits => (visits.filterMap Visit.client?).Perm v.clients.values

/-- Where handlers keep to their own connections this is the poll of the server, -/
theorem occur_poll (order : List Nat) (now : Instant) (s : σ) :
    v.occur sock now s (.poll (order.map (.client · now))) = v.react sock now s (.poll order) := by
  rw [react_poll, occur, List.map_map]
  rfl

/-- and the stop. -/
theorem occur_stop (order : List Nat) (now : Instant) (s : σ) :
    v.occur sock now s (.stop (order.map (.client · now))) = v.react sock now s (.stop order) := by
  rw [react_stop, occur, List.map_map]
  rfl

variable {visits : List Visit} {x : Occasion}

theorem Event.Simple.thorough {e : Event} (h : e.Simple) (v : Server) : e.Thorough v := by
  cases e <;> trivial

theorem use_paired (what : Connection.Use) (now : Instant) (c : Connection) (s : σ) (h : c.Paired) :
    (what.run sock now c s).1.Paired :=
  h.turn sock now (.use what) s

theorem react_paired (h : ∀ c ∈ v.created, c.Paired) {e : Event} (he : e.Simple) (now : Instant) (s : σ) :
    ∀ c ∈ (v.react sock now s e).1.created, c.Paired := by
  cases e with
  | datagram source octets draws =>
    cases hp : Packet.decode? octets with
    | none =>
      rw [react_malformed hp]
      exact h
    | some p =>
      rw [react_datagram hp]
      exact receive_paired h source p now draws s
  | poll | stop => cases he
  | setPendingLife life => exact h
  | use n what => exact forall_update (use_paired what now) h n s

theorem occur_paired (h : ∀ c ∈ v.created, c.Paired) (hx : x.Thorough v) (now : Instant) (s : σ) :
    ∀ c ∈ (v.occur sock now s x).1.created, c.Paired := by
  cases x with
  | event e => exact react_paired h hx now s
  | poll visits =>
    exact forall_updateAll (v := v.expire now) (Visit.forall_deed (fun _ => pollOne_paired) fun _ => use_paired) h s
  | stop visits =>
    exact forall_updateAll (v := { v with clients := .empty })
      (Visit.forall_deed (fun _ => dismiss_paired) fun _ => use_paired) h s

theorem Sound.occur (h : v.Sound) (hx : x.Thorough v) (now : Instant) (s : σ) :
    (v.occur sock now s x).1.Sound := by
  cases x with
  | event e => exact h.react (hx.thorough v) now s
  | poll visits =>
    have hexpire : (v.expire now).Sound := ⟨h.client, h.shares, h.lost⟩
    have ht := updateAll_tends (Visit.handling_deed (handling_pollOne sock) visits) hexpire.shares s
    exact (hexpire.tends ht).forgetClosed
  | stop visits =>
    have hall (n : Nat) (hn : n ∈ v.clients.values) := Visit.exists_deed sock (dismiss sock) (hx.mem_iff.mpr hn)
    exact h.stopAll (Visit.handling_deed (handling_dismiss sock) visits) hall s

theorem Sound.occur_keeps (h : v.Sound) {I : σ → Prop} (hI : ∀ a p s, I s → I (sock.send a p s).2)
    (hx : x.Thorough v) (hstop : ∀ visits, x ≠ .stop visits) (now : Instant) (hs : I s) :
    I (v.occur sock now s x).2 := by
  cases x with
  | event e =>
    refine h.react_keeps sock (fun a _ => hI a) (fun source _ _ _ => hI source) (fun order he => ?_) now hs
    rw [he] at hx
    cases hx
  | poll visits =>
    exact updateAll_keeps (v := v.expire now) (Visit.handling_deed (handling_pollOne sock) visits) h.shares
      (fun _ _ i _ => hI i.1) hs
  | stop visits => exact absurd rfl (hstop visits)

theorem Sound.stop_keeps (h : v.Sound) {I : σ → Prop} (hI : ∀ a p s, I s → I (sock.send a p s).2)
    (visits : List Visit) (now : Instant) (hs : I s) :
    ∃ s', I s' ∧ (v.occur sock now s (.stop visits)).2 = sock.close s' :=
  ⟨_, updateAll_keeps (v := { v with clients := .empty }) (Visit.handling_deed (handling_dismiss sock) visits)
    h.shares (fun _ _ i _ => hI i.1) hs, rfl⟩

/-- A server from its start on. Whatever happens has an instant and a state of the socket of its own. -/
inductive Reached (sock : Socket σ) : Server → Prop
  | new (config : Settings) (handlers : HandlerFactory) (admits : Address → Bool) :
      Reached sock (.new config handlers admits)
  | occur {v : Server} (h : Reached sock v) {x : Occasion} (hx : x.Thorough v) (now : Instant) (s : σ) :
      Reached sock (v.occur sock now s x).1

theorem Reached.sound (h : Reached sock v) : v.Sound := by
  induction h with
  | new config handlers admits => exact sound_new config handlers admits
  | occur _ hx now s ih => exact ih.occur hx now s

theorem Reached.paired (h : Reached sock v) : ∀ c ∈ v.created, c.Paired := by
  induction h with
  | new config handlers admits => simp [Server.new]
  | occur _ hx now s ih => exact occur_paired ih hx now s

theorem Reached.finished_of_missing (h : Reached sock v) (hc : v.connection? n = some c)
    (hmissing : ∀ a, v.clients.find? a ≠ some n) : c.Finished := by
  have hstate := (h.sound.lost n c hc).resolve_right (hmissing c.peer)
  exact (h.paired c (List.mem_of_getElem? hc)).finished hstate

theorem Reached.finished_stop (h : Reached sock v) (hx : Occasion.Thorough v (.stop visits)) (now : Instant) (s : σ) :
    (v.occur sock now s (.stop visits)).1.clients = .empty ∧
      ∀ c ∈ (v.occur sock now s (.stop visits)).1.created, c.Finished := by
  have hafter : Reached sock (v.occur sock now s (.stop visits)).1 := h.occur hx now s
  have ht := updateAll_tends (v := { v with clients := .empty })
    (Visit.handling_deed (handling_dismiss sock) visits) h.sound.shares s
  have hclients : (v.occur sock now s (.stop visits)).1.clients = .empty := by
    simp only [Server.occur]
    rw [ht.frame]
  refine ⟨hclients, fun c hc => ?_⟩
  obtain ⟨n, hn⟩ := List.mem_iff_getElem?.mp hc
  exact hafter.finished_of_missing hn fun a => by simp [hclients]

def calls (v : Server) : List (List Callback) := v.created.map fun c => c.journal.callbacks

/-- No client is left, and nothing goes on with any connection. -/
structure Retired (v : Server) : Prop where
  clients : v.clients = .empty
  closed : ∀ c ∈ v.created, c.state = .closed

theorem Retired.use (sock : Socket σ) (h : v.Retired) (n : Nat) (what : Connection.Use) (now : Instant) (s : σ) :
    (v.update n (what.run sock now) s).1.Retired ∧ (v.update n (what.run sock now) s).1.calls = v.calls := by
  cases hn : v.connection? n with
  | none =>
    rw [update_of_none hn]
    exact ⟨h, rfl⟩
  | some c =>
    have hstate := h.closed c (List.mem_of_getElem? hn)
    rw [update_of_some hn]
    refine ⟨⟨h.clients, fun c' hc' => ?_⟩, ?_⟩
    · rcases List.mem_or_eq_of_mem_set hc' with hold | rfl
      · exact h.closed c' hold
      · exact (Connection.Use.run_of_closed hstate what).1
    · have hsame : (v.created.map fun c => c.journal.callbacks)[n]? = some c.journal.callbacks := by
        rw [List.getElem?_map]
        exact congrArg (Option.map _) hn
      obtain ⟨hlt, heq⟩ := List.getElem?_eq_some_iff.mp hsame
      simp only [calls, List.map_set, what.callbacks_of_closed hstate, ← heq]
      exact List.set_getElem_self hlt

theorem Retired.updateAll (sock : Socket σ) (h : v.Retired) (f : Instant → Connection → σ → Connection × σ)
    (hnobody : visits.filterMap Visit.client? = []) (s : σ) :
    (updateAll (visits.map (Visit.deed sock f)) v s).1.Retired ∧
      (updateAll (visits.map (Visit.deed sock f)) v s).1.calls = v.calls := by
  induction visits generalizing v s with
  | nil => exact ⟨h, rfl⟩
  | cons x rest ih =>
    cases x with
    | client n now => simp [Visit.client?] at hnobody
    | use n what now =>
      obtain ⟨hfirst, hsame⟩ := h.use sock n what now s
      obtain ⟨hrest, hcalls⟩ := ih hfirst hnobody _
      exact ⟨hrest, hcalls.trans hsame⟩

theorem Retired.occur (sock : Socket σ) (h : v.Retired) (hx : x.Thorough v)
    (hquiet : ∀ source octets draws, x ≠ .event (.datagram source octets draws)) (now : Instant) (s : σ) :
    (v.occur sock now s x).1.Retired ∧ (v.occur sock now s x).1.calls = v.calls := by
  have hnobody {visits : List Visit} (ho : (visits.filterMap Visit.client?).Perm v.clients.values) :
      visits.filterMap Visit.client? = [] := by
    rw [h.clients] at ho
    exact ho.eq_nil
  cases x with
  | event e =>
    cases e with
    | datagram source octets draws => exact absurd rfl (hquiet source octets draws)
    | poll | stop => cases hx
    | setPendingLife life => exact ⟨⟨h.clients, h.closed⟩, rfl⟩
    | use n what => exact h.use sock n what now s
  | poll visits =>
    have hexpire : (v.expire now).Retired := ⟨h.clients, h.closed⟩
    obtain ⟨hretired, hcalls⟩ := hexpire.updateAll sock (pollOne sock) (hnobody hx) s
    refine ⟨⟨?_, hretired.closed⟩, hcalls⟩
    simp only [Server.occur, forgetClosed, hretired.clients]
    rfl
  | stop visits =>
    have hempty : Retired { v with clients := .empty } := ⟨rfl, h.closed⟩
    exact hempty.updateAll sock (dismiss sock) (hnobody hx) s

end Server

end DatagramStreams
