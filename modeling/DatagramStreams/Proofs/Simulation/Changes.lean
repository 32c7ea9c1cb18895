import DatagramStreams.Proofs.Simulation.Orderly

/-! What may change on a running network that is in order, one thing at a time: a connection or a server does
what it does, somebody refers to a socket or stops doing so, clients and servers come and go.
Main statements: `Orderly.setClient`, `Orderly.setHost`, `Orderly.setStage` and `Orderly.admit`.
-/

set_option autoImplicit false

namespace DatagramStreams

namespace Simulation

open Network (Same)
open Connection (Occupies)

variable {role : SocketId → Role} {stopped : List Nat} {s s' : Simulation} {id : SocketId} {n : Nat}
  {net : Network}

/-! ### One connection or server at a time -/

theorem clientSocket?_setClient {c : Client} (hc : s.clients[n]? = some c) (after : Connection)
    (net : Network) : { s with
      net, clients := s.clients.set! n { c with connection := after } }.clientSocket? = s.clientSocket? := by
  funext m
  simp only [clientSocket?, getElem?_set_of_some hc]
  split
  · subst m
    rw [hc]
    rfl
  · rfl

theorem target?_setClient {c : Client} (hc : s.clients[n]? = some c) (after : Connection) (net : Network)
    (r : Reference) : { s with
      net, clients := s.clients.set! n { c with connection := after } }.target? r = s.target? r := by
  have hsocket := clientSocket?_setClient hc after net
  have hhandle : { s with
      net, clients := s.clients.set! n { c with connection := after } }.handleSocket? = s.handleSocket? := by
    funext handle
    cases handle with
    | client m => exact congrFun hsocket m
    | hosted m k => rfl
  cases r with
  | ended k => rw [target?, hsocket, target?]
  | handle x => rw [target?, hhandle, target?]
  | _ => rfl

/-- A client's connection does what it does, on its own socket. -/
theorem Orderly.setClient (h : Orderly role stopped s) {c : Client} {after : Connection}
    (hc : s.clients[n]? = some c) (hown : after.ownsSocket = true)
    (ho : Occupies c.socket c.connection s.net after net) :
    Orderly role stopped { s with net, clients := s.clients.set! n { c with connection := after } } := by
  have hget := getElem?_set_of_some hc { c with connection := after }
  have hrefers {x : SocketId} : { s with
      net, clients := s.clients.set! n { c with connection := after } }.Refers x → s.Refers x :=
    fun ⟨r, hr⟩ => ⟨r, target?_setClient hc after net r ▸ hr⟩
  obtain ⟨hrole, -, a, hbadge⟩ := h.clients hc
  -- A socket has one role, so whoever has another has another socket.
  have hother {x : SocketId} (hx : role x ≠ .client n) : net.badge x = s.net.badge x :=
    Network.badge_occupies_ne ho fun he => hx (he ▸ hrole)
  refine { h with tenured := (h.tenured.occupies ho).mono fun _ => hrefers
                  known := fun id hid => ?_, openings := fun m o hm id hid => ?_
                  clients := fun m c' hm => ?_, clientOf := fun id m hm => ?_
                  hosts := fun m host hm => ?_ }
  · by_cases hx : role id = .client n
    · obtain ⟨c', hc', rfl⟩ := h.clientOf hx
      rw [hc] at hc'
      cases hc'
      simp [Network.badge_occupies ho hbadge]
    · rw [hother hx]
      exact h.known hid
  · have hid' := h.openings hm id hid
    rwa [hother (by simp [hid'.1])]
  · rw [hget] at hm
    split at hm
    · subst m
      cases hm
      exact ⟨hrole, hown, a, Network.badge_occupies ho hbadge⟩
    · rename_i hne
      have hc' := h.clients hm
      rwa [hother (by simpa [hc'.1] using Ne.symm hne)]
  · obtain ⟨c', hc', hid⟩ := h.clientOf hm
    rw [hget]
    split
    · subst m
      rw [hc] at hc'
      cases hc'
      exact ⟨_, rfl, hid⟩
    · exact ⟨c', hc', hid⟩
  · have hh := h.hosts hm
    rwa [hother (by simp [hh.1])]

theorem refers_setHost {host : Host} (hh : s.hosts[n]? = some host) (host' : Host)
    (hsocket : host'.socket = host.socket) (hheld : host'.held = true → host.held = true)
    {hostNames : Table String Nat} (hid : { s with net, hosts := s.hosts.set! n host', hostNames }.Refers id) :
    s.Refers id := by
  have hold {m : Nat} {x : Host} (hm : (s.hosts.set! n host')[m]? = some x) :
      ∃ y, s.hosts[m]? = some y ∧ y.socket = x.socket ∧ (x.held = true → y.held = true) := by
    rw [getElem?_set_of_some hh] at hm
    split at hm
    · subst m
      cases hm
      exact ⟨host, hh, hsocket.symm, hheld⟩
    · exact ⟨x, hm, rfl, fun h => h⟩
  obtain ⟨r, hr⟩ := hid
  refine ⟨r, ?_⟩
  cases r with
  | host m =>
    obtain ⟨x, hm, hid⟩ := Option.map_eq_some_iff.mp hr
    obtain ⟨hm, hx⟩ := Option.filter_eq_some_iff.mp hm
    obtain ⟨y, hm, hsocket, hy⟩ := hold hm
    exact Option.map_eq_some_iff.mpr ⟨y, Option.filter_eq_some_iff.mpr ⟨hm, hy hx⟩, hsocket.trans hid⟩
  | handle x =>
    obtain ⟨handle, hn, hid⟩ := Option.bind_eq_some_iff.mp hr
    refine Option.bind_eq_some_iff.mpr ⟨handle, hn, ?_⟩
    cases handle with
    | client m => exact hid
    | hosted m k =>
      obtain ⟨x, hm, hid⟩ := Option.map_eq_some_iff.mp hid
      obtain ⟨y, hm, hsocket, -⟩ := hold hm
      exact Option.map_eq_some_iff.mpr ⟨y, hm, hsocket.trans hid⟩
  | _ => exact hr

/-- A server does what it does. Its socket is closed only when the server is stopped. -/
theorem Orderly.setHost (h : Orderly role stopped s) {host : Host} {server : Server} {stopped' : List Nat}
    (hh : s.hosts[n]? = some host) (hs : server.Sound) (ht : net.Tenured s.Refers)
    (hb : ∀ x, x ≠ host.socket → net.badge x = s.net.badge x) (hle : ∀ m, m ∈ stopped → m ∈ stopped')
    (hself : ∃ a closed, net.badge host.socket = some (a, closed) ∧ (closed = true → n ∈ stopped')) :
    Orderly role stopped' { s with net, hosts := s.hosts.set! n { host with server } } := by
  have hget := getElem?_set_of_some hh { host with server }
  obtain ⟨hrole, -, -⟩ := h.hosts hh
  have hother {x : SocketId} (hx : role x ≠ .host n) : net.badge x = s.net.badge x :=
    hb x fun he => hx (he ▸ hrole)
  refine { h with tenured := ht.mono fun id => refers_setHost hh { host with server } rfl fun hheld => hheld
                  known := fun id hid => ?_
                  openings := fun m o hm id hid => ?_, clients := fun m c hm => ?_
                  hosts := fun m host' hm => ?_, hostNames := fun x m hx => ?_ }
  · by_cases hx : id = host.socket
    · obtain ⟨a, closed, hbadge, -⟩ := hself
      simp [hx, hbadge]
    · rw [hb id hx]
      exact h.known hid
  · have hid' := h.openings hm id hid
    rwa [hother (by simp [hid'.1])]
  · have hc := h.clients hm
    rwa [hother (by simp [hc.1])]
  · rw [hget] at hm
    split at hm
    · subst m
      cases hm
      exact ⟨hrole, hs, hself⟩
    · rename_i hne
      obtain ⟨hrole', hs', a, closed, hbadge, hclosed⟩ := h.hosts hm
      refine ⟨hrole', hs', a, closed, ?_, fun hc => hle m (hclosed hc)⟩
      rwa [hother (by simpa [hrole'] using Ne.symm hne)]
  · obtain ⟨⟨host₀, hm, hheld⟩, hunique⟩ := h.hostNames hx
    refine ⟨?_, hunique⟩
    rw [hget]
    split
    · subst m
      rw [hh] at hm
      cases hm
      exact ⟨_, rfl, hheld⟩
    · exact ⟨host₀, hm, hheld⟩

/-! ### One reference at a time -/

theorem Orderly.putName (h : Orderly role stopped s) (hid : role id = .named) (hs : s.Seats id) (x : String) :
    Orderly role stopped { s with socketNames := s.socketNames.put x id } := by
  have hnames {y : String} {i : SocketId} (hy : (s.socketNames.put x id).find? y = some i) :
      i = id ∨ s.socketNames.find? y = some i := by
    by_cases hxy : y = x
    · rw [hxy, Table.find?_put_self] at hy
      exact .inl (Option.some.inj hy).symm
    · exact .inr (Table.find?_put_ne _ hxy _ ▸ hy)
  refine { h with tenured := h.tenured_add hs fun i ⟨r, hr⟩ => Or.imp_right (Exists.intro r) ?_
                  names := fun y i hy => ?_ }
  · cases r with
    | name y => exact hnames hr
    | _ => exact .inr hr
  · rcases hnames hy with rfl | hy
    · exact hid
    · exact h.names hy

theorem Orderly.eraseName (h : Orderly role stopped s) (x : String) :
    Orderly role stopped { s with socketNames := s.socketNames.erase x } := by
  have hnames {y : String} {i : SocketId} (hy : (s.socketNames.erase x).find? y = some i) :
      s.socketNames.find? y = some i := by
    by_cases hxy : y = x
    · rw [hxy, Table.find?_erase_self] at hy
      cases hy
    · exact Table.find?_erase_ne _ hxy ▸ hy
  refine { h with tenured := h.tenured.mono fun i ⟨r, hr⟩ => ⟨r, ?_⟩
                  names := fun y i hy => h.names (hnames hy) }
  cases r with
  | name y => exact hnames hr
  | _ => exact hr

theorem Orderly.pushLoop (h : Orderly role stopped s) {l : LoopTask} (hid : role l.socket = l.audience.role)
    (hs : s.Seats l.socket) : Orderly role stopped { s with loops := s.loops.push l } := by
  refine { h with tenured := h.tenured_add hs fun i ⟨r, hr⟩ => Or.imp_right (Exists.intro r) ?_
                  loops := fun k l' hk => ?_ }
  · cases r with
    | loop k =>
      obtain ⟨l', hl, hsocket⟩ := Option.map_eq_some_iff.mp hr
      obtain ⟨hl, hrun⟩ := Option.filter_eq_some_iff.mp hl
      rcases push_cases hl with ⟨-, rfl⟩ | hl
      · exact .inl hsocket.symm
      · exact .inr (Option.map_eq_some_iff.mpr ⟨l', Option.filter_eq_some_iff.mpr ⟨hl, hrun⟩, hsocket⟩)
    | _ => exact .inr hr
  · rcases push_cases hk with ⟨-, rfl⟩ | hk
    · exact hid
    · exact h.loops hk

theorem Orderly.modifyLoop (h : Orderly role stopped s) {f : LoopTask → LoopTask}
    (hf : ∀ l, s.loops[n]? = some l → (f l).socket = l.socket ∧ (f l).audience = l.audience ∧
      (l.loop.hasEnded = true → (f l).loop.hasEnded = true)) :
    Orderly role stopped { s with loops := s.loops.modify n f } := by
  have hloops {k : Nat} {l' : LoopTask} (hk : (s.loops.modify n f)[k]? = some l') :
      ∃ l, s.loops[k]? = some l ∧ l'.socket = l.socket ∧ l'.audience = l.audience ∧
        (l.loop.hasEnded = true → l'.loop.hasEnded = true) := by
    rw [Array.getElem?_modify] at hk
    split at hk
    · subst k
      obtain ⟨l, hl, rfl⟩ := Option.map_eq_some_iff.mp hk
      exact ⟨l, hl, hf l hl⟩
    · exact ⟨l', hk, rfl, rfl, id⟩
  refine { h with tenured := h.tenured.mono fun i ⟨r, hr⟩ => ⟨r, ?_⟩, loops := fun k l' hk => ?_ }
  · cases r with
    | loop k =>
      obtain ⟨l', hl', hsocket'⟩ := Option.map_eq_some_iff.mp hr
      obtain ⟨hl', hrun'⟩ := Option.filter_eq_some_iff.mp hl'
      obtain ⟨l, hl, hsocket, -, hended⟩ := hloops hl'
      have hrun : (!l.loop.hasEnded) = true := by
        cases he : l.loop.hasEnded with
        | false => rfl
        | true => simp [hended he] at hrun'
      exact Option.map_eq_some_iff.mpr
        ⟨l, Option.filter_eq_some_iff.mpr ⟨hl, hrun⟩, hsocket.symm.trans hsocket'⟩
    | _ => exact hr
  · obtain ⟨l, hl, hsocket, haudience, -⟩ := hloops hk
    rw [hsocket, haudience]
    exact h.loops hl

theorem Orderly.pushOpening (h : Orderly role stopped s) {o : OpeningTask} (ho : o.stage = .unbound) :
    Orderly role stopped { s with openings := s.openings.push o } := by
  have hopenings {m : Nat} {o' : OpeningTask} {i : SocketId} (hm : (s.openings.push o)[m]? = some o')
      (hi : o'.stage.socket? = some i) : s.openings[m]? = some o' := by
    rcases push_cases hm with ⟨-, rfl⟩ | hm
    · simp [ho, OpeningStage.socket?] at hi
    · exact hm
  refine { h with tenured := h.tenured.mono fun i ⟨r, hr⟩ => ⟨r, ?_⟩
                  openings := fun m o' hm i hi => h.openings (hopenings hm hi) i hi }
  cases r with
  | opening m =>
    obtain ⟨o', hm, hi⟩ := Option.bind_eq_some_iff.mp hr
    exact Option.bind_eq_some_iff.mpr ⟨o', hopenings hm hi, hi⟩
  | _ => exact hr

theorem opening_setStage {stage : OpeningStage} {m : Nat} {o : OpeningTask} {i : SocketId}
    (hm : (s.setStage n stage).openings[m]? = some o) (hi : o.stage.socket? = some i) :
    m = n ∧ stage.socket? = some i ∨ m ≠ n ∧ s.openings[m]? = some o := by
  rw [Simulation.setStage, Array.getElem?_modify] at hm
  split at hm
  · obtain ⟨o₀, -, rfl⟩ := Option.map_eq_some_iff.mp hm
    exact .inl ⟨Eq.symm ‹_›, hi⟩
  · exact .inr ⟨Ne.symm ‹_›, hm⟩

theorem Orderly.setStage (h : Orderly role stopped s) {stage : OpeningStage}
    (hs : ∀ i, stage.socket? = some i →
      role i = .opening n ∧ s.Seats i ∧ ∃ a, s.net.badge i = some (a, false)) :
    Orderly role stopped (s.setStage n stage) := by
  refine { h with tenured := ⟨h.tenured.sound, h.tenured.assigned, fun i a ⟨r, hr⟩ hb => ?_⟩
                  openings := fun m o' hm i hi => ?_ }
  · cases r with
    | opening m =>
      obtain ⟨o', hm, hi⟩ := Option.bind_eq_some_iff.mp hr
      rcases opening_setStage hm hi with ⟨-, hstage⟩ | ⟨-, hm⟩
      · exact (hs i hstage).2.1 a hb
      · exact h.tenured.bound ⟨.opening m, Option.bind_eq_some_iff.mpr ⟨o', hm, hi⟩⟩ hb
    | name x => exact h.tenured.bound ⟨.name x, hr⟩ hb
    | loop k => exact h.tenured.bound ⟨.loop k, hr⟩ hb
    | host m => exact h.tenured.bound ⟨.host m, hr⟩ hb
    | ended k => exact h.tenured.bound ⟨.ended k, hr⟩ hb
    | handle x => exact h.tenured.bound ⟨.handle x, hr⟩ hb
  · rcases opening_setStage hm hi with ⟨rfl, hstage⟩ | ⟨-, hm⟩
    · exact ⟨(hs i hstage).1, (hs i hstage).2.2⟩
    · exact h.openings hm i hi

theorem Orderly.putHandle (h : Orderly role stopped s) {handle : Handle}
    (hh : ∀ i, s.handleSocket? handle = some i → s.Seats i) (x : String) :
    Orderly role stopped { s with connectionNames := s.connectionNames.put x handle } := by
  refine { h with tenured := ⟨h.tenured.sound, h.tenured.assigned, fun i a ⟨r, hr⟩ hb => ?_⟩ }
  by_cases hx : r = .handle x
  · subst hx
    simp only [target?, Table.find?_put_self] at hr
    exact hh i hr a hb
  · refine h.tenured.bound ⟨r, ?_⟩ hb
    cases r with
    | handle y =>
      have hy : y ≠ x := fun he => hx (he ▸ rfl)
      simp only [target?, Table.find?_put_ne _ hy] at hr
      exact hr
    | _ => exact hr

theorem Orderly.eraseHandle (h : Orderly role stopped s) (x : String) :
    Orderly role stopped { s with connectionNames := s.connectionNames.erase x } := by
  refine { h with tenured := h.tenured.mono fun i ⟨r, hr⟩ => ⟨r, ?_⟩ }
  cases r with
  | handle y =>
    by_cases hy : y = x
    · subst hy
      simp [target?] at hr
    · simp only [target?, Table.find?_erase_ne _ hy] at hr
      exact hr
  | _ => exact hr

theorem Orderly.clearEnded (h : Orderly role stopped s) : Orderly role stopped { s with ended := [] } := by
  refine { h with tenured := h.tenured.mono fun i ⟨r, hr⟩ => ⟨r, ?_⟩ }
  cases r with
  | ended k => simp [target?] at hr
  | _ => exact hr

theorem Orderly.pushFailure (h : Orderly role stopped s) (x : String) (e : ConnectionError) :
    Orderly role stopped { s with ended := (x, .error e) :: s.ended } := by
  refine { h with tenured := h.tenured.mono fun i ⟨r, hr⟩ => ?_ }
  cases r with
  | ended k =>
    cases k with
    | zero => cases hr
    | succ k => exact ⟨.ended k, hr⟩
  | name x => exact ⟨.name x, hr⟩
  | loop k => exact ⟨.loop k, hr⟩
  | host n => exact ⟨.host n, hr⟩
  | opening n => exact ⟨.opening n, hr⟩
  | handle x => exact ⟨.handle x, hr⟩

/-! ### Servers and clients that come and go -/

theorem Orderly.pushHost (h : Orderly role stopped s) {host : Host} (hid : role host.socket = .host s.hosts.size)
    (hs : s.Seats host.socket) (hserver : host.server.Sound)
    (hopen : ∃ a, s.net.badge host.socket = some (a, false)) :
    Orderly role stopped { s with hosts := s.hosts.push host } := by
  refine { h with tenured := h.tenured_add hs fun i ⟨r, hr⟩ => Or.imp_right (Exists.intro r) ?_
                  hosts := fun n host' hn => ?_, hostNames := fun x n hx => ?_ }
  · cases r with
    | host n =>
      obtain ⟨host', hn, hsocket⟩ := Option.map_eq_some_iff.mp hr
      obtain ⟨hn, hheld⟩ := Option.filter_eq_some_iff.mp hn
      rcases push_cases hn with ⟨-, rfl⟩ | hn
      · exact .inl hsocket.symm
      · exact .inr (Option.map_eq_some_iff.mpr ⟨host', Option.filter_eq_some_iff.mpr ⟨hn, hheld⟩, hsocket⟩)
    | handle x =>
      obtain ⟨handle, hn, hid⟩ := Option.bind_eq_some_iff.mp hr
      cases handle with
      | client m => exact .inr (Option.bind_eq_some_iff.mpr ⟨_, hn, hid⟩)
      | hosted m k =>
        obtain ⟨host', hm, hsocket⟩ := Option.map_eq_some_iff.mp hid
        rcases push_cases hm with ⟨-, rfl⟩ | hm
        · exact .inl hsocket.symm
        · exact .inr (Option.bind_eq_some_iff.mpr ⟨_, hn, Option.map_eq_some_iff.mpr ⟨host', hm, hsocket⟩⟩)
    | _ => exact .inr hr
  · rcases push_cases hn with ⟨rfl, rfl⟩ | hn
    · obtain ⟨a, hbadge⟩ := hopen
      exact ⟨hid, hserver, a, false, hbadge, nofun⟩
    · exact h.hosts hn
  · obtain ⟨⟨host', hn, hheld⟩, hunique⟩ := h.hostNames hx
    exact ⟨⟨host', getElem?_push_of_some hn, hheld⟩, hunique⟩

theorem Orderly.putHostName (h : Orderly role stopped s) {host : Host} (hh : s.hosts[n]? = some host)
    (hheld : host.held = true) (hnew : ∀ y, s.hostNames.find? y ≠ some n) (x : String) :
    Orderly role stopped { s with hostNames := s.hostNames.put x n } := by
  have hnames {y : String} {m : Nat} (hy : (s.hostNames.put x n).find? y = some m) :
      y = x ∧ m = n ∨ y ≠ x ∧ s.hostNames.find? y = some m := by
    by_cases hxy : y = x
    · rw [hxy, Table.find?_put_self] at hy
      exact .inl ⟨hxy, (Option.some.inj hy).symm⟩
    · exact .inr ⟨hxy, Table.find?_put_ne _ hxy _ ▸ hy⟩
  refine { h with tenured := h.tenured.mono fun i ⟨r, hr⟩ => ⟨r, ?_⟩, hostNames := fun y m hy => ?_ }
  · cases r <;> exact hr
  · rcases hnames hy with ⟨rfl, rfl⟩ | ⟨-, hold⟩
    · refine ⟨⟨host, hh, hheld⟩, fun z hz => ?_⟩
      rcases hnames hz with ⟨hzx, -⟩ | ⟨-, hold⟩
      · exact hzx
      · exact absurd hold (hnew z)
    · obtain ⟨hhost, hunique⟩ := h.hostNames hold
      refine ⟨hhost, fun z hz => ?_⟩
      rcases hnames hz with ⟨-, hmn⟩ | ⟨-, hz⟩
      · exact absurd (hmn ▸ hold) (hnew y)
      · exact hunique z hz

theorem Orderly.letHostGo (h : Orderly role stopped s) {host : Host} {x : String}
    (hx : s.hostNames.find? x = some n) (hh : s.hosts[n]? = some host) :
    Orderly role stopped { s with
      hostNames := s.hostNames.erase x, hosts := s.hosts.set! n { host with held := false } } := by
  have hget := getElem?_set_of_some hh { host with held := false }
  refine { h with tenured := h.tenured.mono fun id => refers_setHost hh { host with held := false } rfl nofun
                  hosts := fun m host' hm => ?_, hostNames := fun y m hy => ?_ }
  · rw [hget] at hm
    split at hm
    · subst m
      cases hm
      have hhost := h.hosts hh
      exact hhost
    · exact h.hosts hm
  · by_cases hxy : y = x
    · rw [hxy, Table.find?_erase_self] at hy
      cases hy
    · rw [Table.find?_erase_ne _ hxy] at hy
      obtain ⟨hhost, hunique⟩ := h.hostNames hy
      have hne : n ≠ m := fun he => hxy (hunique x (he ▸ hx)).symm
      refine ⟨by rwa [hget, if_neg hne], fun z hz => ?_⟩
      by_cases hxz : z = x
      · rw [hxz, Table.find?_erase_self] at hz
        cases hz
      · rw [Table.find?_erase_ne _ hxz] at hz
        exact hunique z hz

theorem clientSocket?_push {c : Client} (hc : c.socket = id) {m : Nat} {i : SocketId}
    (hm : ((s.clients.push c)[m]?).map Client.socket = some i) : i = id ∨ s.clientSocket? m = some i := by
  obtain ⟨c', hm, hsocket⟩ := Option.map_eq_some_iff.mp hm
  rcases push_cases hm with ⟨-, rfl⟩ | hm
  · exact .inl (hsocket.symm.trans hc)
  · exact .inr (Option.map_eq_some_iff.mpr ⟨c', hm, hsocket⟩)

theorem opening_setStage_over {m : Nat} {o : OpeningTask} {i : SocketId}
    (hm : (s.setStage n .over).openings[m]? = some o) (hi : o.stage.socket? = some i) :
    m ≠ n ∧ s.openings[m]? = some o :=
  (opening_setStage hm hi).resolve_left fun h => nomatch h.2

theorem refers_admit {c : Client} (hc : c.socket = id) (x : String) {i : SocketId}
    (h : { s.setStage n .over with
      clients := s.clients.push c, ended := (x, .ok s.clients.size) :: s.ended }.Refers i) :
    i = id ∨ s.Refers i := by
  obtain ⟨r, hr⟩ := h
  cases r with
  | ended k =>
    cases k with
    | zero => exact (clientSocket?_push hc hr).imp_right fun hm => absurd hm (by simp [clientSocket?])
    | succ k =>
      obtain ⟨⟨y, e | m⟩, he, hm⟩ := Option.bind_eq_some_iff.mp hr
      · cases hm
      · exact (clientSocket?_push hc hm).imp_right fun hm =>
          ⟨.ended k, Option.bind_eq_some_iff.mpr ⟨_, he, hm⟩⟩
  | handle y =>
    obtain ⟨handle, hy, hm⟩ := Option.bind_eq_some_iff.mp hr
    cases handle with
    | client m =>
      exact (clientSocket?_push hc hm).imp_right fun hm =>
        ⟨.handle y, Option.bind_eq_some_iff.mpr ⟨_, hy, hm⟩⟩
    | hosted m k => exact .inr ⟨.handle y, Option.bind_eq_some_iff.mpr ⟨_, hy, hm⟩⟩
  | opening m =>
    obtain ⟨o, hm, hi⟩ := Option.bind_eq_some_iff.mp hr
    exact .inr ⟨.opening m, Option.bind_eq_some_iff.mpr ⟨o, (opening_setStage_over hm hi).2, hi⟩⟩
  | name y => exact .inr ⟨.name y, hr⟩
  | loop k => exact .inr ⟨.loop k, hr⟩
  | host m => exact .inr ⟨.host m, hr⟩

/-- The socket of an opening goes over to the client that has come of it. -/
theorem Orderly.admit (h : Orderly role stopped s) {o : OpeningTask} (ho : s.openings[n]? = some o)
    (hid : o.stage.socket? = some id) {c : Client} (hc : c.socket = id)
    (hown : c.connection.ownsSocket = true) (hopen : c.connection.isOpen = true) (x : String) :
    Orderly (Role.assign role id (.client s.clients.size)) stopped { s.setStage n .over with
      clients := s.clients.push c, ended := (x, .ok s.clients.size) :: s.ended } := by
  obtain ⟨hrole, a, hbadge⟩ := h.openings ho id hid
  have hseats : s.Seats id := h.seats ⟨.opening n, Option.bind_eq_some_iff.mpr ⟨o, ho, hid⟩⟩
  -- Only the socket of this opening changes its role.
  have hkeep {i : SocketId} {r : Role} (hi : role i = r) (hr : r ≠ .opening n) :
      Role.assign role id (.client s.clients.size) i = r := assign_eq hi fun he => hr (he ▸ hrole)
  refine ⟨h.tenured_add hseats fun i => refers_admit hc x, fun i hi => ?_,
    fun y i hy => hkeep (h.names hy) (by simp),
    fun k l hl => hkeep (h.loops hl) (by cases l.audience <;> simp [Audience.role]), fun m o' hm i hi => ?_,
    fun m c' hm => ?_, fun i m hm => ?_, fun m host hm => ?_, h.hostNames⟩
  · by_cases he : i = id
    · change s.net.badge i ≠ none
      simp [he, hbadge]
    · rw [assign_ne _ he] at hi
      exact h.known hi
  · obtain ⟨hne, hm⟩ := opening_setStage_over hm hi
    obtain ⟨hr, hb⟩ := h.openings hm i hi
    exact ⟨hkeep hr (by simpa using hne), hb⟩
  · rcases push_cases hm with ⟨rfl, rfl⟩ | hm
    · rw [hc, assign_self, hopen]
      exact ⟨rfl, hown, a, hbadge⟩
    · obtain ⟨hr, hrest⟩ := h.clients hm
      exact ⟨hkeep hr (by simp), hrest⟩
  · by_cases he : i = id
    · subst he
      rw [assign_self, Role.client.injEq] at hm
      subst hm
      exact ⟨c, Array.getElem?_push_size, hc⟩
    · rw [assign_ne _ he] at hm
      obtain ⟨c', hm, hsocket⟩ := h.clientOf hm
      exact ⟨c', getElem?_push_of_some hm, hsocket⟩
  · obtain ⟨hr, hrest⟩ := h.hosts hm
    exact ⟨hkeep hr (by simp), hrest⟩

end Simulation

end DatagramStreams
