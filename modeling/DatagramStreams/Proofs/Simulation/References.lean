import DatagramStreams.Proofs.Network.Seat
import DatagramStreams.Simulation.Command

/-! Which sockets of a running network somebody refers to, and what leaves the references alone: waking tasks,
stopping loops, writing down events and moving datagrams about.
Main statements: `mem_heldSockets` and the `rests_` lemmas.
-/

set_option autoImplicit false

namespace DatagramStreams

def LoopTask.post (l : LoopTask) : SocketId × Audience × Bool := (l.socket, l.audience, l.loop.hasEnded)

/-- Whoever can refer to a socket: a name, a loop, a server, an opening, an opening that has ended and whose
connection is about to get a name, and the name of a connection. -/
inductive Reference where
  | name (x : String)
  | loop (k : Nat)
  | host (n : Nat)
  | opening (n : Nat)
  | ended (k : Nat)
  | handle (x : String)

section

variable {α : Type} {xs : Array α} {x y : α} {n m : Nat}

theorem getElem?_set_of_some (h : xs[n]? = some x) (y : α) (m : Nat) :
    (xs.set! n y)[m]? = if n = m then some y else xs[m]? := by
  have hlt := (Array.getElem?_eq_some_iff.mp h).1
  rw [Array.set!_eq_setIfInBounds, Array.getElem?_setIfInBounds]
  split <;> simp [*]

theorem push_cases (h : (xs.push x)[m]? = some y) : m = xs.size ∧ y = x ∨ xs[m]? = some y := by
  rw [Array.getElem?_push] at h
  split at h
  · exact .inl ⟨‹_›, (Option.some.inj h).symm⟩
  · exact .inr h

theorem getElem?_push_of_some (h : xs[m]? = some y) : (xs.push x)[m]? = some y := by
  have hlt := (Array.getElem?_eq_some_iff.mp h).1
  rw [Array.getElem?_push_lt hlt]
  exact (Array.getElem?_eq_getElem hlt).symm.trans h

end

namespace Simulation

variable {s s' s'' : Simulation} {id : SocketId}

/-- The socket that is referred to. A loop that has ended refers to none, nor does a server that is let go. -/
def target? (s : Simulation) : Reference → Option SocketId
  | .name x => s.socketNames.find? x
  | .loop k => (s.loops[k]?.filter fun l => !l.loop.hasEnded).map LoopTask.socket
  | .host n => (s.hosts[n]?.filter Host.held).map Host.socket
  | .opening n => s.openings[n]?.bind fun o => o.stage.socket?
  | .ended k => s.ended[k]?.bind fun e => e.2.toOption.bind s.clientSocket?
  | .handle x => (s.connectionNames.find? x).bind s.handleSocket?

def Refers (s : Simulation) (id : SocketId) : Prop := ∃ r, s.target? r = some id

theorem mem_values {α : Type} {t : Table String α} {v : α} : v ∈ t.values ↔ ∃ x, t.find? x = some v :=
  ⟨Table.exists_find?_of_mem_values, fun ⟨_, h⟩ => Table.mem_values_of_find? h⟩

theorem mem_heldSockets : id ∈ s.heldSockets ↔ s.Refers id := by
  have hended (e) : e ∈ s.ended ↔ ∃ k : Nat, s.ended[k]? = some e := List.mem_iff_getElem?
  simp only [heldSockets, List.mem_append, List.mem_map, List.mem_filter, List.mem_filterMap, mem_values,
    Array.mem_toList_iff, Array.mem_iff_getElem?, hended]
  -- One kind of reference for each of the lists that make up the held sockets.
  constructor
  · rintro (((((⟨x, h⟩ | ⟨l, ⟨⟨k, hl⟩, hr⟩, hid⟩) | ⟨h, ⟨⟨n, hh⟩, hheld⟩, hid⟩) | ⟨o, ⟨n, ho⟩, hid⟩) |
      ⟨e, ⟨k, he⟩, hid⟩) | ⟨handle, ⟨x, hn⟩, hid⟩)
    · exact ⟨.name x, h⟩
    · exact ⟨.loop k, Option.map_eq_some_iff.mpr ⟨l, Option.filter_eq_some_iff.mpr ⟨hl, hr⟩, hid⟩⟩
    · exact ⟨.host n, Option.map_eq_some_iff.mpr ⟨h, Option.filter_eq_some_iff.mpr ⟨hh, hheld⟩, hid⟩⟩
    · exact ⟨.opening n, Option.bind_eq_some_iff.mpr ⟨o, ho, hid⟩⟩
    · exact ⟨.ended k, Option.bind_eq_some_iff.mpr ⟨e, he, hid⟩⟩
    · exact ⟨.handle x, Option.bind_eq_some_iff.mpr ⟨handle, hn, hid⟩⟩
  · rintro ⟨r, hr⟩
    cases r with
    | name x => exact .inl (.inl (.inl (.inl (.inl ⟨x, hr⟩))))
    | loop k =>
      obtain ⟨l, hl, hid⟩ := Option.map_eq_some_iff.mp hr
      obtain ⟨hl, hrun⟩ := Option.filter_eq_some_iff.mp hl
      exact .inl (.inl (.inl (.inl (.inr ⟨l, ⟨⟨k, hl⟩, hrun⟩, hid⟩))))
    | host n =>
      obtain ⟨h, hh, hid⟩ := Option.map_eq_some_iff.mp hr
      obtain ⟨hh, hheld⟩ := Option.filter_eq_some_iff.mp hh
      exact .inl (.inl (.inl (.inr ⟨h, ⟨⟨n, hh⟩, hheld⟩, hid⟩)))
    | opening n =>
      obtain ⟨o, ho, hid⟩ := Option.bind_eq_some_iff.mp hr
      exact .inl (.inl (.inr ⟨o, ⟨n, ho⟩, hid⟩))
    | ended k =>
      obtain ⟨e, he, hid⟩ := Option.bind_eq_some_iff.mp hr
      exact .inl (.inr ⟨e, ⟨k, he⟩, hid⟩)
    | handle x =>
      obtain ⟨handle, hn, hid⟩ := Option.bind_eq_some_iff.mp hr
      exact .inr ⟨handle, ⟨x, hn⟩, hid⟩

structure Stays (s s' : Simulation) : Prop where
  clients : s'.clients = s.clients
  hosts : s'.hosts = s.hosts
  openings : s'.openings = s.openings
  ended : s'.ended = s.ended
  socketNames : s'.socketNames = s.socketNames
  hostNames : s'.hostNames = s.hostNames
  connectionNames : s'.connectionNames = s.connectionNames
  loops : ∀ k : Nat, s'.loops[k]?.map LoopTask.post = s.loops[k]?.map LoopTask.post

structure Rests (s s' : Simulation) : Prop extends Stays s s' where
  net : Network.Same s.net s'.net

/-- The clock, tasks, events and the names of factories and loops are nobody's reference to a socket. -/
theorem Rests.other {now : Instant} {net : Network} {draws : Draws} {alarms : List Alarm} {ready : Queue Task}
    {sleepers : List (SocketId × Task)} {factoryNames loopNames : Table String Nat} {events : List Event}
    {opened : List (String × Except ConnectionError ConnectionReport)} (h : Network.Same s.net net) :
    Rests s { s with
      now, net, draws, alarms, ready, sleepers, factoryNames, loopNames, events, opened } :=
  ⟨⟨rfl, rfl, rfl, rfl, rfl, rfl, rfl, fun _ => rfl⟩, h⟩

theorem Rests.refl (s : Simulation) : Rests s s := .other (.refl _)

theorem Rests.trans (h₁ : Rests s s') (h₂ : Rests s' s'') : Rests s s'' where
  net := h₁.net.trans h₂.net
  clients := h₂.clients.trans h₁.clients
  hosts := h₂.hosts.trans h₁.hosts
  openings := h₂.openings.trans h₁.openings
  ended := h₂.ended.trans h₁.ended
  socketNames := h₂.socketNames.trans h₁.socketNames
  hostNames := h₂.hostNames.trans h₁.hostNames
  connectionNames := h₂.connectionNames.trans h₁.connectionNames
  loops k := (h₂.loops k).trans (h₁.loops k)

theorem Stays.loop_before (h : Stays s s') {k : Nat} {l' : LoopTask} (hl : s'.loops[k]? = some l') :
    ∃ l, s.loops[k]? = some l ∧ l.socket = l'.socket ∧ l.audience = l'.audience ∧
      l.loop.hasEnded = l'.loop.hasEnded := by
  have hk := h.loops k
  rw [hl] at hk
  obtain ⟨l, hl, hpost⟩ := Option.map_eq_some_iff.mp hk.symm
  simp only [LoopTask.post, Prod.mk.injEq] at hpost
  exact ⟨l, hl, hpost⟩

theorem clientSocket?_congr (h : s'.clients = s.clients) : s'.clientSocket? = s.clientSocket? := by
  funext n
  rw [clientSocket?, h, clientSocket?]

theorem Stays.handleSocket? (h : Stays s s') : s'.handleSocket? = s.handleSocket? := by
  funext handle
  cases handle with
  | client n => exact congrFun (clientSocket?_congr h.clients) n
  | hosted n k => simp only [Simulation.handleSocket?, h.hosts]

theorem Stays.target? (h : Stays s s') (r : Reference) : s'.target? r = s.target? r := by
  cases r with
  | name x => rw [Simulation.target?, h.socketNames, Simulation.target?]
  | loop k =>
    have hk := h.loops k
    simp only [Simulation.target?]
    cases hl : s.loops[k]? <;> cases hl' : s'.loops[k]? <;>
      simp only [hl, hl', Option.map_none, Option.map_some, Option.some.injEq, reduceCtorEq, LoopTask.post,
        Prod.mk.injEq] at hk
    · rfl
    · simp only [Option.filter_some, hk.2.2]
      split <;> simp [hk.1]
  | host n => rw [Simulation.target?, h.hosts, Simulation.target?]
  | opening n => rw [Simulation.target?, h.openings, Simulation.target?]
  | ended k => rw [Simulation.target?, h.ended, clientSocket?_congr h.clients, Simulation.target?]
  | handle x => rw [Simulation.target?, h.connectionNames, h.handleSocket?, Simulation.target?]

theorem Stays.refers (h : Stays s s') : s'.Refers id → s.Refers id := by
  rintro ⟨r, hr⟩
  exact ⟨r, h.target? r ▸ hr⟩

theorem stays_net (s : Simulation) (net : Network) : Stays s { s with net } :=
  ⟨rfl, rfl, rfl, rfl, rfl, rfl, rfl, fun _ => rfl⟩

theorem rests_net (s : Simulation) {net : Network} (h : Network.Same s.net net) : Rests s { s with net } :=
  .other h

theorem rests_emit (s : Simulation) (watched : Bool) (owner : String) (peer : Address)
    (entries : List EventEntry) : Rests s (s.emit watched owner peer entries) := by
  unfold emit
  split
  · exact .other (.refl _)
  · exact .refl s

theorem rests_wake (s : Simulation) (t : Task) : Rests s (s.wake t) :=
  .other (.refl _)

theorem rests_spawn (s : Simulation) (t : Task) : Rests s (s.spawn t) :=
  .other (.refl _)

theorem rests_foldl {α : Type} {f : Simulation → α → Simulation} (hf : ∀ s x, Rests s (f s x)) (l : List α)
    (s : Simulation) : Rests s (l.foldl f s) := by
  induction l generalizing s with
  | nil => exact .refl s
  | cons x rest ih => exact (hf s x).trans (ih _)

theorem rests_hear (s : Simulation) (x : Signal) : Rests s (s.hear x) := by
  cases x with
  | mail id =>
    simp only [hear]
    split
    · exact rests_wake s _
    · exact .refl s
  | shut id => exact rests_foldl rests_wake _ s
  | held h => exact rests_spawn s _

theorem rests_hearAll (s : Simulation) : Rests s s.hearAll := by
  have hsame : Network.Same s.net { s.net with signals := [] } := ⟨rfl, fun _ => rfl⟩
  exact (rests_net s hsame).trans (rests_foldl rests_hear _ _)

theorem rests_modifyLoop (s : Simulation) (n : Nat) {f : LoopTask → LoopTask}
    (hf : ∀ l, (f l).post = l.post) : Rests s { s with loops := s.loops.modify n f } := by
  refine ⟨⟨rfl, rfl, rfl, rfl, rfl, rfl, rfl, fun k => ?_⟩, .refl _⟩
  simp only [Array.getElem?_modify]
  split
  · cases s.loops[k]? <;> simp [hf]
  · rfl

theorem rests_stopLoop (s : Simulation) (n : Nat) : Rests s (s.stopLoop n) := by
  unfold stopLoop
  split
  · exact .refl s
  · have hstop : Rests s { s with loops := s.loops.modify n fun l => { l with loop := l.loop.stop } } :=
      rests_modifyLoop s n fun _ => rfl
    exact hstop.trans (rests_wake _ _)

theorem rests_afterClient (s : Simulation) (n : Nat) : Rests s (s.afterClient n) := by
  unfold afterClient
  split
  · split
    · exact .refl s
    · exact rests_stopLoop s _
  · exact .refl s

theorem rests_letGo (s : Simulation) (handle : Handle) : Rests s (s.letGo handle) := by
  unfold letGo
  split
  · exact .refl s
  · cases handle with
    | client n =>
      simp only
      split
      · exact rests_stopLoop s _
      · exact .refl s
    | hosted n k => exact .refl s

theorem rests_reportHosted (h : Host) (before : List Connection) (s : Simulation) (n : Nat)
    (after : Connection) : Rests s (reportHosted h before s n after) :=
  rests_emit s _ _ _ _

theorem rests_dropLoop (s : Simulation) (name : String) : Rests s (s.dropLoop name) := by
  unfold dropLoop
  split
  · refine Rests.trans ?_ (rests_stopLoop _ _)
    exact .other (.refl _)
  · exact .refl s

theorem rests_ring (s : Simulation) : Rests s s.ring := by
  unfold ring
  refine Rests.trans (.other (.refl _)) (rests_foldl (fun s a => ?_) _ _)
  split
  · exact rests_spawn s _
  · exact rests_wake s _

theorem rests_sleep (s : Simulation) (id : SocketId) (t : Task) : Rests s (s.sleep id t) :=
  .other (.refl _)

theorem rests_deliverHeld (s : Simulation) (h : Held) : Rests s (s.deliverHeld h) :=
  rests_net s (Network.deliver_same _ _ _)

theorem rests_holdBack (s : Simulation) (h : Held) : Rests s (s.holdBack h) := by
  unfold holdBack
  simp only
  split
  · exact rests_deliverHeld s h
  · exact .other (.refl _)

end Simulation

end DatagramStreams
