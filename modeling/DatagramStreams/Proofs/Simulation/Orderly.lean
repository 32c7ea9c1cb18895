import DatagramStreams.Proofs.Server.Clients
import DatagramStreams.Proofs.Session.Release
import DatagramStreams.Proofs.Simulation.References

/-! Order on a running network. Every socket is there for one purpose: for a name, an opening, a client or a
server. It is closed by nobody else, and whoever refers to it keeps its address as long as it is open.
Main statements: what may happen to the sockets themselves, `Orderly.rests`, `Orderly.withNet`, `Orderly.bind`
and `Orderly.assign`.
-/

set_option autoImplicit false

namespace DatagramStreams

/-- What a socket is there for; nobody has a use for one that is spare. -/
inductive Role where
  | spare
  | named
  | opening (n : Nat)
  | client (n : Nat)
  | host (n : Nat)
  deriving DecidableEq

def Audience.role : Audience → Role
  | .listener _ _ => .named
  | .client n => .client n
  | .host n => .host n

def Role.assign (role : SocketId → Role) (id : SocketId) (r : Role) : SocketId → Role :=
  fun x => if x = id then r else role x

namespace Simulation

open Network (Same)
open Connection (Occupies)

/-- Every socket is used as its role has it. A client's socket is open as long as the client's connection, and
a server's until the server is stopped. -/
structure Orderly (role : SocketId → Role) (stopped : List Nat) (s : Simulation) : Prop where
  tenured : s.net.Tenured s.Refers
  known : ∀ ⦃id⦄, role id ≠ .spare → s.net.badge id ≠ none
  names : ∀ ⦃x id⦄, s.socketNames.find? x = some id → role id = .named
  loops : ∀ ⦃k : Nat⦄ ⦃l⦄, s.loops[k]? = some l → role l.socket = l.audience.role
  openings : ∀ ⦃n : Nat⦄ ⦃o⦄, s.openings[n]? = some o → ∀ id, o.stage.socket? = some id →
    role id = .opening n ∧ ∃ a, s.net.badge id = some (a, false)
  clients : ∀ ⦃n : Nat⦄ ⦃c⦄, s.clients[n]? = some c → role c.socket = .client n ∧
    c.connection.ownsSocket = true ∧ ∃ a, s.net.badge c.socket = some (a, !c.connection.isOpen)
  clientOf : ∀ ⦃id n⦄, role id = .client n → ∃ c, s.clients[n]? = some c ∧ c.socket = id
  hosts : ∀ ⦃n : Nat⦄ ⦃h⦄, s.hosts[n]? = some h → role h.socket = .host n ∧ h.server.Sound ∧
    ∃ a closed, s.net.badge h.socket = some (a, closed) ∧ (closed = true → n ∈ stopped)
  hostNames : ∀ ⦃x n⦄, s.hostNames.find? x = some n →
    (∃ h, s.hosts[n]? = some h ∧ h.held = true) ∧ ∀ y, s.hostNames.find? y = some n → y = x

variable {role : SocketId → Role} {stopped : List Nat} {s s' : Simulation} {id : SocketId} {n : Nat}
  {net : Network}

theorem orderly_start : Orderly (fun _ => .spare) [] {} where
  tenured := Network.tenured_start _
  known _ h := absurd rfl h
  names _ _ h := by simp [Table.find?, Table.lookup] at h
  loops _ _ h := by simp at h
  openings _ _ h := by simp at h
  clients _ _ h := by simp at h
  clientOf _ _ h := by cases h
  hosts _ _ h := by simp at h
  hostNames _ _ h := by simp [Table.find?, Table.lookup] at h

theorem Orderly.clientSocket (h : Orderly role stopped s) (hid : s.clientSocket? n = some id) :
    role id = .client n := by
  obtain ⟨c, hc, rfl⟩ := Option.map_eq_some_iff.mp hid
  exact (h.clients hc).1

theorem Orderly.handleSocket (h : Orderly role stopped s) {handle : Handle}
    (hid : s.handleSocket? handle = some id) : ∃ n, role id = .client n ∨ role id = .host n := by
  cases handle with
  | client n => exact ⟨n, .inl (h.clientSocket hid)⟩
  | hosted n k =>
    obtain ⟨host, hh, rfl⟩ := Option.map_eq_some_iff.mp hid
    exact ⟨n, .inr (h.hosts hh).1⟩

theorem Orderly.refers_cases (h : Orderly role stopped s) (hid : s.Refers id) :
    role id = .named ∨ (∃ n, role id = .client n) ∨ (∃ n, role id = .host n) ∨
      ∃ (n : Nat) (o : OpeningTask), role id = .opening n ∧ s.openings[n]? = some o ∧ o.stage.socket? = some id := by
  have hhandle {n : Nat} (hr : role id = .client n ∨ role id = .host n) :
      role id = .named ∨ (∃ n, role id = .client n) ∨ (∃ n, role id = .host n) ∨
        ∃ (n : Nat) (o : OpeningTask), role id = .opening n ∧ s.openings[n]? = some o ∧
          o.stage.socket? = some id :=
    hr.elim (fun hr => .inr (.inl ⟨n, hr⟩)) fun hr => .inr (.inr (.inl ⟨n, hr⟩))
  obtain ⟨r, hr⟩ := hid
  cases r with
  | name x => exact .inl (h.names hr)
  | loop k =>
    obtain ⟨l, hl, rfl⟩ := Option.map_eq_some_iff.mp hr
    have hrole := h.loops (Option.filter_eq_some_iff.mp hl).1
    cases ha : l.audience with
    | listener x refused => exact .inl (hrole.trans (congrArg _ ha))
    | client n => exact hhandle (.inl (hrole.trans (congrArg _ ha)))
    | host n => exact hhandle (.inr (hrole.trans (congrArg _ ha)))
  | host n =>
    obtain ⟨host, hh, rfl⟩ := Option.map_eq_some_iff.mp hr
    exact hhandle (.inr (h.hosts (Option.filter_eq_some_iff.mp hh).1).1)
  | opening n =>
    obtain ⟨o, ho, hid⟩ := Option.bind_eq_some_iff.mp hr
    exact .inr (.inr (.inr ⟨n, o, (h.openings ho id hid).1, ho, hid⟩))
  | ended k =>
    obtain ⟨⟨x, e | n⟩, -, hid⟩ := Option.bind_eq_some_iff.mp hr
    · cases hid
    · exact hhandle (.inl (h.clientSocket hid))
  | handle x =>
    obtain ⟨handle, -, hid⟩ := Option.bind_eq_some_iff.mp hr
    obtain ⟨n, hrole⟩ := h.handleSocket hid
    exact hhandle hrole

theorem Orderly.refers_ne (h : Orderly role stopped s) (hid : s.Refers id) : role id ≠ .spare := by
  rcases h.refers_cases hid with hr | ⟨n, hr⟩ | ⟨n, hr⟩ | ⟨n, o, hr, -⟩ <;> simp [hr]

theorem Orderly.rests (h : Orderly role stopped s) (hr : Rests s s') : Orderly role stopped s' where
  tenured := (h.tenured.same hr.net).mono fun _ => hr.refers
  known id hid := by
    rw [hr.net.badge]
    exact h.known hid
  names x id hx := h.names (hr.socketNames ▸ hx)
  loops k l hl := by
    obtain ⟨l₀, hl₀, hsocket, haudience, -⟩ := hr.loop_before hl
    rw [← hsocket, ← haudience]
    exact h.loops hl₀
  openings n o ho id hid := by
    rw [hr.net.badge]
    exact h.openings (hr.openings ▸ ho) id hid
  clients n c hc := by
    rw [hr.net.badge]
    exact h.clients (hr.clients ▸ hc)
  clientOf id n hid := hr.clients ▸ h.clientOf hid
  hosts n host hh := by
    rw [hr.net.badge]
    exact h.hosts (hr.hosts ▸ hh)
  hostNames x n hx := by
    rw [hr.hosts, hr.hostNames] at *
    exact h.hostNames hx

theorem Orderly.withNet (h : Orderly role stopped s) (ht : net.Tenured s.Refers)
    (hb : ∀ x, role x ≠ .spare → role x ≠ .named → net.badge x = s.net.badge x)
    (hk : ∀ x, s.net.badge x ≠ none → net.badge x ≠ none) : Orderly role stopped { s with net } where
  tenured := ht.mono fun _ => (stays_net s net).refers
  known id hid := hk id (h.known hid)
  names := h.names
  loops := h.loops
  openings n o ho id hid := by
    have hid' := h.openings ho id hid
    rwa [hb id (by simp [hid'.1]) (by simp [hid'.1])]
  clients n c hc := by
    have hc' := h.clients hc
    rwa [hb c.socket (by simp [hc'.1]) (by simp [hc'.1])]
  clientOf := h.clientOf
  hosts n host hh := by
    have hh' := h.hosts hh
    rwa [hb host.socket (by simp [hh'.1]) (by simp [hh'.1])]
  hostNames := h.hostNames

theorem Orderly.closeNamed (h : Orderly role stopped s) (hid : role id = .named) :
    Orderly role stopped { s with net := s.net.close id } := by
  refine h.withNet (h.tenured.close id) (fun x _ hx => Network.badge_close_ne _ fun he => hx (he ▸ hid))
    fun x hx => ?_
  by_cases he : x = id
  · subst he
    obtain ⟨⟨a, closed⟩, hbadge⟩ := Option.ne_none_iff_exists'.mp hx
    simp [Network.badge_close_self hbadge]
  · rwa [Network.badge_close_ne _ he]

theorem Orderly.drop (h : Orderly role stopped s) (hid : ¬ s.Refers id) :
    Orderly role stopped { s with net := s.net.drop id } :=
  h.withNet (h.tenured.drop hid) (fun x _ _ => Network.badge_drop _ _ x)
    fun x hx => by rwa [Network.badge_drop]

def Seats (s : Simulation) (id : SocketId) : Prop :=
  ∀ a, s.net.badge id = some (a, false) → s.net.registry.owner? a = some id

theorem Orderly.seats (h : Orderly role stopped s) (hid : s.Refers id) : s.Seats id :=
  fun _ hb => h.tenured.bound hid hb

theorem Orderly.tenured_add (h : Orderly role stopped s) (hid : s.Seats id) {held : SocketId → Prop}
    (hle : ∀ x, held x → x = id ∨ s.Refers x) : s.net.Tenured held :=
  ⟨h.tenured.sound, h.tenured.assigned, fun x a hx hb => by
    rcases hle x hx with rfl | hx
    · exact hid a hb
    · exact h.tenured.bound hx hb⟩

/-- A socket that has just been bound and that nobody has a use for yet. -/
structure Fresh (role : SocketId → Role) (id : SocketId) (s : Simulation) : Prop where
  spare : role id = .spare
  opened : ∃ a, s.net.badge id = some (a, false)
  seats : s.Seats id

theorem Orderly.bind (h : Orderly role stopped s) (factory : Nat) (a : Address) :
    (∃ id net, s.net.bind factory a = (.ok id, net) ∧ Orderly role stopped { s with net } ∧
      Fresh role id { s with net }) ∨ ∃ e, s.net.bind factory a = (.error e, s.net) := by
  have ht := h.tenured.bind factory a
  rcases s.net.bind_cases factory a with ⟨b, net, hb, -, -, hown, -, hnone, hbadge, hsame⟩ | ⟨e, hb⟩
  · rw [hb] at ht
    have hspare : role s.net.sockets.size = .spare := Decidable.byContradiction fun hne => h.known hne hnone
    refine .inl ⟨_, net, hb, h.withNet (ht.mono fun _ => .inl) (fun x hx _ => ?_) fun x hx => ?_, hspare,
      ⟨b, hbadge⟩, fun c hc => ht.bound (.inr rfl) hc⟩
    · exact hsame x fun he => hx (he ▸ hspare)
    · rwa [hsame x fun he => hx (he ▸ hnone)]
  · exact .inr ⟨e, hb⟩

theorem Orderly.dropFresh (h : Orderly role stopped s) (hf : Fresh role id s) :
    Orderly role stopped { s with net := s.net.drop id } :=
  h.drop fun hid => h.refers_ne hid hf.spare

theorem assign_self (role : SocketId → Role) (id : SocketId) (r : Role) : Role.assign role id r id = r :=
  if_pos rfl

theorem assign_ne {x : SocketId} (r : Role) (hx : x ≠ id) : Role.assign role id r x = role x :=
  if_neg hx

theorem assign_eq {x : SocketId} {r r' : Role} (hx : role x = r') (hid : role id ≠ r') :
    Role.assign role id r x = r' := by
  have hne : x ≠ id := by
    rintro rfl
    exact hid hx
  rw [assign_ne r hne, hx]

theorem Orderly.assign (h : Orderly role stopped s) (hf : Fresh role id s) {r : Role}
    (hr : ∀ n, r ≠ .client n) : Orderly (Role.assign role id r) stopped s := by
  have hkeep {x : SocketId} {r' : Role} (hx : role x = r') (hr' : r' ≠ .spare) :
      Role.assign role id r x = r' := assign_eq hx fun he => hr' (he ▸ hf.spare)
  refine { h with known := fun x hx => ?_, names := fun x i hx => hkeep (h.names hx) (by simp),
                  loops := fun k l hl => hkeep (h.loops hl) ?_, openings := fun n o ho i hi => ?_,
                  clients := fun n c hc => ?_, clientOf := fun x n hx => ?_, hosts := fun n host hh => ?_ }
  · by_cases he : x = id
    · obtain ⟨a, hbadge⟩ := hf.opened
      simp [he, hbadge]
    · rw [assign_ne r he] at hx
      exact h.known hx
  · cases l.audience <;> simp [Audience.role]
  · obtain ⟨hrole, hopen⟩ := h.openings ho i hi
    exact ⟨hkeep hrole (by simp), hopen⟩
  · obtain ⟨hrole, hrest⟩ := h.clients hc
    exact ⟨hkeep hrole (by simp), hrest⟩
  · by_cases he : x = id
    · rw [he, assign_self] at hx
      exact absurd hx (hr n)
    · rw [assign_ne r he] at hx
      exact h.clientOf hx
  · obtain ⟨hrole, hrest⟩ := h.hosts hh
    exact ⟨hkeep hrole (by simp), hrest⟩

end Simulation

end DatagramStreams
