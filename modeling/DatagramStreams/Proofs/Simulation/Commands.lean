import DatagramStreams.Proofs.Simulation.Changes

/-! What commands do to the order on a running network. Whoever uses a connection works on that connection and
its socket, whoever uses a server works on the server's; everything else binds, names or drops sockets.
Main statement: `Orderly.carryOut`, for commands that do not let time pass.
-/

set_option autoImplicit false

namespace DatagramStreams

open Network (Same)

/-! ### Uses of a connection -/

namespace Connection

def Use.runAll {σ : Type} (sock : Socket σ) (now : Instant) : List Use → Connection → σ → Connection × σ
  | [], c, s => (c, s)
  | what :: rest, c, s => runAll sock now rest (what.run sock now c s).1 (what.run sock now c s).2

theorem Use.runAll_occupies (uses : List Use) (own : SocketId) (now : Instant) {c : Connection} (net : Network)
    (hs : c.ownsSocket = true) : (runAll (Network.socket own) now uses c net).1.ownsSocket = true ∧
      Occupies own c net (runAll (Network.socket own) now uses c net).1
        (runAll (Network.socket own) now uses c net).2 := by
  induction uses generalizing c net with
  | nil => exact ⟨hs, .refl own c net⟩
  | cons what rest ih =>
    have hown := ((Turn.use what).run_bound c (Network.socket own) now net).owned.trans hs
    have hfirst := (Turn.use what).run_occupies own now c net hs
    obtain ⟨hown', hrest⟩ := ih (what.run (Network.socket own) now c net).2 hown
    exact ⟨hown', hfirst.trans hrest⟩

end Connection

open Connection (Use Occupies)

theorem Server.handling_useAll {σ : Type} (sock : Socket σ) (uses : List Use) (now : Instant) :
    Handling sock (Use.runAll sock now uses) := by
  induction uses with
  | nil => exact ⟨fun _ _ _ _ _ _ hb hr => .refl hb hr, fun _ _ h => ⟨h, rfl⟩⟩
  | cons what rest ih =>
    have hfirst := handling_use sock what now
    refine ⟨fun peer R c s t h hb hr => ?_, fun c s h => ?_⟩
    · exact (hfirst.mirrors peer R c s t h hb hr).bind fun c s t hb hr => ih.mirrors peer R c s t h hb hr
    · obtain ⟨hclosed, hs⟩ := hfirst.inert c s h
      obtain ⟨hclosed', hs'⟩ := ih.inert _ (what.run sock now c s).2 hclosed
      exact ⟨hclosed', hs'.trans hs⟩

namespace Simulation

variable {role : SocketId → Role} {stopped : List Nat} {s s' : Simulation} {id : SocketId} {n : Nat}
  {net : Network} {α : Type}

/-- Whatever `f` does to a connection, it does by using it. -/
def Operates (now : Instant) (f : Socket Network → Connection → Network → α × Connection × Network) : Prop :=
  ∀ sock c net, ∃ uses, (f sock c net).2 = Use.runAll sock now uses c net

theorem operates_one {now : Instant} {f : Socket Network → Connection → Network → α × Connection × Network}
    (what : Use) (h : ∀ sock c net, (f sock c net).2 = what.run sock now c net) : Operates now f :=
  fun sock c net => ⟨[what], h sock c net⟩

theorem operates_sendCounters (reliably : Bool) (now : Instant) (first n : Nat) (last : Answer) :
    Operates now fun sock c net => sendCounters reliably now sock first n last c net := by
  intro sock c net
  induction n generalizing first last c net with
  | zero => exact ⟨[], rfl⟩
  | succ n ih =>
    have hone : ∃ what : Use, ∀ c net, (sendOn reliably now (counter first) sock c net).2 =
        what.run sock now c net := by
      cases reliably with
      | true => exact ⟨.sendReliable (counter first), fun _ _ => rfl⟩
      | false => exact ⟨.sendUnreliable (counter first), fun _ _ => rfl⟩
    obtain ⟨what, hwhat⟩ := hone
    obtain ⟨uses, huses⟩ := ih (first + 1) (.outcome (sendOn reliably now (counter first) sock c net).1)
      (sendOn reliably now (counter first) sock c net).2.1 (sendOn reliably now (counter first) sock c net).2.2
    refine ⟨what :: uses, huses.trans ?_⟩
    rw [hwhat]
    rfl

theorem Orderly.putClient (h : Orderly role stopped s) {c : Client} {after : Connection}
    (hc : s.clients[n]? = some c) (hown : after.ownsSocket = true)
    (ho : Occupies c.socket c.connection s.net after net) :
    Orderly role stopped (s.putClient n c after net) :=
  (h.setClient hc hown ho).rests ((rests_emit _ _ _ _ _).trans (rests_afterClient _ n))

theorem rests_reports (host : Host) (after : Server) (s : Simulation) : Rests s
    ((after.created.zipIdx).foldl (fun s e => reportHosted host host.server.created s e.2 e.1) s) :=
  rests_foldl (fun s (e : Connection × Nat) => rests_reportHosted host host.server.created s e.2 e.1) _ s

theorem Orderly.putHost (h : Orderly role stopped s) {host : Host} {after : Server}
    (hh : s.hosts[n]? = some host) (hs : after.Sound) (hsame : Same s.net net) :
    Orderly role stopped (s.putHost n host after net) := by
  obtain ⟨-, -, a, closed, hbadge, hclosed⟩ := h.hosts hh
  have hset : Orderly role stopped { s with net, hosts := s.hosts.set! n { host with server := after } } :=
    h.setHost hh hs (h.tenured.same hsame) (fun x _ => hsame.badge x) (fun _ hm => hm)
      ⟨a, closed, (hsame.badge _).trans hbadge, hclosed⟩
  exact hset.rests (rests_reports host after _)

/-- A connection or a server acts on its own socket, if anything happens at all. -/
inductive Acts (s : Simulation) : Simulation → Prop
  | rests {s' : Simulation} (hr : Rests s s') : Acts s s'
  | client {n : Nat} {c : Client} {after : Connection} {net : Network} (hc : s.clients[n]? = some c)
      (hown : after.ownsSocket = true) (ho : Occupies c.socket c.connection s.net after net) :
      Acts s (s.putClient n c after net)
  | host {n : Nat} {host : Host} {after : Server} {net : Network} {draws : Draws}
      (hh : s.hosts[n]? = some host) (hs : after.Sound) (hsame : Same s.net net) :
      Acts s ({ s with draws }.putHost n host after net)

theorem Acts.orderly (ha : Acts s s') (h : Orderly role stopped s) : Orderly role stopped s' := by
  cases ha with
  | rests hr => exact h.rests hr
  | client hc hown ho => exact h.putClient hc hown ho
  | host hh hs hsame => exact (h.rests (.other (.refl _))).putHost hh hs hsame

theorem Acts.loops (ha : Acts s s') (k : Nat) :
    s'.loops[k]?.map LoopTask.post = s.loops[k]?.map LoopTask.post := by
  cases ha with
  | rests hr => exact hr.loops k
  | client _ _ _ => exact ((rests_emit _ _ _ _ _).trans (rests_afterClient _ _)).loops k
  | host _ _ _ => exact (rests_reports _ _ _).loops k

theorem Orderly.acts_operate (h : Orderly role stopped s) (handle : Handle) (other : α)
    {f : Socket Network → Connection → Network → α × Connection × Network} (hf : Operates s.now f) :
    Acts s (s.operate handle other f).2 := by
  cases handle with
  | client n =>
    simp only [Simulation.operate]
    split
    · rename_i c hc
      obtain ⟨-, hown, -⟩ := h.clients hc
      obtain ⟨uses, huses⟩ := hf (Network.socket c.socket) c.connection s.net
      obtain ⟨hown', ho⟩ := Use.runAll_occupies uses c.socket s.now s.net hown
      simp only [huses]
      exact .client hc hown' ho
    · exact .rests (.refl s)
  | hosted n k =>
    simp only [Simulation.operate]
    split
    · rename_i host hh
      split
      · rename_i c hc
        obtain ⟨-, hserver, -⟩ := h.hosts hh
        obtain ⟨uses, huses⟩ := hf (Network.socket host.socket) c s.net
        have hf := Server.handling_useAll (Network.socket host.socket) uses s.now
        have hsound := hserver.tends (Server.update_tends hf hserver.shares k s.net)
        have hsame : Same s.net (host.server.update k (Use.runAll (Network.socket host.socket) s.now uses) s.net).2 :=
          Server.update_keeps hf hserver.shares
            (fun c _ p net hnet => hnet.trans (Network.send_same net host.socket c.peer p.encode true)) (.refl _)
        rw [Server.update_of_some hc] at hsound hsame
        simp only [huses]
        exact .host hh hsound hsame
      · exact .rests (.refl s)
    · exact .rests (.refl s)

theorem Orderly.acts_onConnection (h : Orderly role stopped s) (name : String)
    {f : Socket Network → Connection → Network → Answer × Connection × Network} (hf : Operates s.now f) :
    Acts s (s.onConnection name f).2 := by
  unfold Simulation.onConnection
  split
  · exact h.acts_operate _ _ hf
  · exact .rests (.refl s)

/-! ### Servers -/

theorem Orderly.acts_react (h : Orderly role stopped s) {host : Host} (hh : s.hosts[n]? = some host)
    {e : Server.Event} (he : e.Thorough host.server) (hstop : ∀ order, e ≠ .stop order) (now : Instant) :
    Acts s (s.putHost n host
      (host.server.react (Network.socket host.socket) now s.net e).1
      (host.server.react (Network.socket host.socket) now s.net e).2) := by
  obtain ⟨-, hserver, -⟩ := h.hosts hh
  have hsend (a : Address) (q : Packet) (net : Network) (hnet : Same s.net net) :
      Same s.net ((Network.socket host.socket).send a q net).2 :=
    hnet.trans (Network.send_same net host.socket a q.encode true)
  exact .host hh (hserver.react he now s.net)
    (hserver.react_keeps (Network.socket host.socket) (fun a _ => hsend a) (fun source _ _ _ => hsend source)
      (fun order heq => absurd heq (hstop order)) now (.refl _))

theorem onHost_elim {name : String} {other : α} {f : Nat → Host → α} {P : α → Prop} (hother : P other)
    (hf : ∀ n host, s.hostNames.find? name = some n → s.hosts[n]? = some host → P (f n host)) :
    P (s.onHost name other f) := by
  unfold onHost
  split
  · split
    · exact hf _ _ ‹_› ‹_›
    · exact hother
  · exact hother

theorem Orderly.acts_pollServer (h : Orderly role stopped s) (name : String) : Acts s (s.pollServer name) :=
  onHost_elim (P := Acts s) (.rests (.refl s)) fun _ host _ hh =>
    h.acts_react hh (e := .poll host.server.clients.values) (.refl _) (by simp) s.now

theorem Orderly.acts_setPendingLife (h : Orderly role stopped s) (name : String) (life : Span) :
    Acts s (s.setPendingLife name life) :=
  onHost_elim (P := Acts s) (.rests (.refl s)) fun _ _ _ hh =>
    h.acts_react hh (e := .setPendingLife life) trivial (by simp) s.now

theorem Orderly.more (h : Orderly role stopped s) (l : List Nat) : Orderly role (l ++ stopped) s :=
  { h with hosts := fun _ _ hh =>
      let ⟨hrole, hserver, a, closed, hbadge, hclosed⟩ := h.hosts hh
      ⟨hrole, hserver, a, closed, hbadge, fun hc => List.mem_append_right l (hclosed hc)⟩ }

theorem Orderly.stop (h : Orderly role stopped s) {host : Host} (hh : s.hosts[n]? = some host) :
    Orderly role (n :: stopped) (s.putHost n host
      (host.server.stop (Network.socket host.socket) s.now s.net).1
      (host.server.stop (Network.socket host.socket) s.now s.net).2) := by
  obtain ⟨-, hserver, a, closed, hbadge, -⟩ := h.hosts hh
  have hstop : host.server.stop (Network.socket host.socket) s.now s.net = _ :=
    Server.react_stop (Network.socket host.socket) host.server host.server.clients.values s.now s.net
  have hsound : (Server.updateEach (Server.dismiss (Network.socket host.socket) s.now)
      host.server.clients.values { host.server with clients := .empty } s.net).1.Sound :=
    hserver.stop (fun _ hm => hm) s.now s.net
  have hkept := Server.updateEach_keeps (v := { host.server with clients := .empty })
    (I := Same s.net) (Server.handling_dismiss (Network.socket host.socket) s.now) hserver.shares
    (fun _ (_ : _ ∈ host.server.clients.values) i _ q net hnet =>
      hnet.trans (Network.send_same net host.socket i.1 q.encode true)) (.refl _)
  have hset := h.setHost hh hsound ((h.tenured.same hkept).close host.socket)
    (fun x hx => (Network.badge_close_ne _ hx).trans (hkept.badge x)) (fun _ => List.mem_cons_of_mem n)
    ⟨a, true, Network.badge_close_self ((hkept.badge _).trans hbadge), fun _ => List.mem_cons_self⟩
  rw [hstop]
  exact hset.rests (rests_reports host _ _)

theorem Orderly.stopServer (h : Orderly role stopped s) (name : String) :
    Orderly role ((s.hostNames.find? name).toList ++ stopped) (s.stopServer name) := by
  refine onHost_elim (P := fun s' => Orderly role ((s.hostNames.find? name).toList ++ stopped) s') (h.more _)
    fun n host hn hh => ?_
  have hr : Rests s (s.stopLoop host.loop) := rests_stopLoop s host.loop
  rw [hn]
  exact (h.rests hr).stop (hr.hosts ▸ hh)

theorem forgetServer_of_some {name : String} {host : Host} (hn : s.hostNames.find? name = some n)
    (hh : s.hosts[n]? = some host) : s.forgetServer name =
      stopLoop { s with
        hostNames := s.hostNames.erase name, hosts := s.hosts.set! n { host with held := false } } host.loop := by
  simp only [forgetServer, hn, dropHost, hh]

theorem forgetServer_of_none {name : String} (hn : s.hostNames.find? name = none) :
    s.forgetServer name = s := by
  simp only [forgetServer, hn]

theorem Orderly.forgetServer (h : Orderly role stopped s) (name : String) :
    Orderly role stopped (s.forgetServer name) := by
  cases hn : s.hostNames.find? name with
  | none => rwa [forgetServer_of_none hn]
  | some n =>
    obtain ⟨⟨host, hh, -⟩, -⟩ := h.hostNames hn
    rw [forgetServer_of_some hn hh]
    exact (h.letHostGo hn hh).rests (rests_stopLoop _ _)

theorem Orderly.forgetServer_other (h : Orderly role stopped s) (name : String)
    (hn : ∀ y, s.hostNames.find? y ≠ some n) : (s.forgetServer name).hosts[n]? = s.hosts[n]? ∧
      ∀ y, (s.forgetServer name).hostNames.find? y ≠ some n := by
  cases hm : s.hostNames.find? name with
  | none =>
    rw [forgetServer_of_none hm]
    exact ⟨rfl, hn⟩
  | some m =>
    obtain ⟨⟨host, hh, -⟩, -⟩ := h.hostNames hm
    have hne : m ≠ n := fun he => hn name (he ▸ hm)
    have hr := rests_stopLoop { s with
      hostNames := s.hostNames.erase name, hosts := s.hosts.set! m { host with held := false } } host.loop
    rw [forgetServer_of_some hm hh, hr.hosts, hr.hostNames]
    refine ⟨?_, fun y hy => ?_⟩
    · exact (getElem?_set_of_some hh _ n).trans (if_neg hne)
    · by_cases hyn : y = name
      · rw [hyn, Table.find?_erase_self] at hy
        cases hy
      · rw [Table.find?_erase_ne _ hyn] at hy
        exact hn y hy

theorem Orderly.startLoop (h : Orderly role stopped s) (audience : Audience) (hid : role id = audience.role)
    (hs : s.Seats id) : Orderly role stopped (s.startLoop id audience).2 :=
  (h.pushLoop (l := { socket := id, audience }) hid hs).rests (rests_spawn _ _)

/-- A server gets a fresh socket, a loop that reads it and a name. -/
theorem Orderly.addHost (h : Orderly role stopped s) (hf : Fresh role id s) {host : Host}
    (hsocket : host.socket = id) (hserver : host.server.Sound) (hheld : host.held = true) (name : String) :
    let s₁ := (s.startLoop id (.host s.hosts.size)).2
    let s₂ := { s₁ with hosts := s₁.hosts.push host }.forgetServer name
    ∃ role', Orderly role' stopped { s₂ with hostNames := s₂.hostNames.put name s.hosts.size } := by
  subst hsocket
  have hassigned := h.assign hf (r := .host s.hosts.size) (by simp)
  have hstarted := hassigned.startLoop (.host s.hosts.size) (assign_self role _ _) hf.seats
  have hpushed := hstarted.pushHost (assign_self role _ _) hf.seats hserver hf.opened
  have hnew (y : String) : s.hostNames.find? y ≠ some s.hosts.size := fun hy => by
    obtain ⟨⟨host, hh, -⟩, -⟩ := h.hostNames hy
    exact Nat.lt_irrefl _ (Array.getElem?_eq_some_iff.mp hh).1
  obtain ⟨hhost, hnone⟩ := hpushed.forgetServer_other name (n := s.hosts.size) hnew
  exact ⟨_, (hpushed.forgetServer name).putHostName (hhost.trans Array.getElem?_push_size) hheld hnone name⟩

theorem Orderly.startServer (h : Orderly role stopped s) (name factory : String) (a : Address)
    (application : Application) (admitted : Option (List Address)) (config : Settings) :
    ∃ role', Orderly role' stopped (s.startServer name factory a application admitted config).2 := by
  unfold Simulation.startServer
  rcases h.bind (s.factoryNumber factory) a with ⟨id, net, hb, hbound, hf⟩ | ⟨e, hb⟩ <;> simp only [hb]
  · split
    · exact ⟨role, hbound.dropFresh hf⟩
    · exact hbound.addHost hf rfl (Server.sound_new config _ _) rfl name
  · exact ⟨role, h⟩

theorem Orderly.nameHandle (h : Orderly role stopped s) (handle : Handle)
    (hh : ∀ i, s.handleSocket? handle = some i → s.Seats i) (name : String) :
    Orderly role stopped (s.nameHandle name handle) := by
  have hput := h.putHandle hh name
  unfold Simulation.nameHandle
  simp only
  split
  · exact hput.rests (rests_letGo _ _)
  · exact hput

theorem Orderly.grab (h : Orderly role stopped s) (server : String) (peer : Address) (name : String) :
    Orderly role stopped (s.grab server peer name).2 := by
  refine onHost_elim (P := fun r : Answer × Simulation => Orderly role stopped r.2) h fun n host hn hh => ?_
  obtain ⟨⟨host', hh', hheld⟩, -⟩ := h.hostNames hn
  have hrefers : s.Refers host'.socket :=
    ⟨.host n, Option.map_eq_some_iff.mpr ⟨host', Option.filter_eq_some_iff.mpr ⟨hh', hheld⟩, rfl⟩⟩
  split
  · refine h.nameHandle _ (fun i hi => ?_) name
    simp only [handleSocket?, hh', Option.map_some, Option.some.injEq] at hi
    exact hi ▸ h.seats hrefers
  · exact h

/-! ### Sockets, loops and names -/

theorem Orderly.bindNamed (h : Orderly role stopped s) (name factory : String) (a : Address) :
    ∃ role', Orderly role' stopped (s.bind name factory a).2 := by
  unfold Simulation.bind
  rcases h.bind (s.factoryNumber factory) a with ⟨id, net, hb, hbound, hf⟩ | ⟨e, hb⟩ <;> simp only [hb]
  · have hassigned := hbound.assign hf (r := .named) (by simp)
    exact ⟨_, hassigned.putName (assign_self role id _) hf.seats name⟩
  · exact ⟨role, h⟩

theorem Orderly.bindMany (h : Orderly role stopped s) (factory : Nat) (a : Address) (n : Nat) (last : Answer) :
    Orderly role stopped { s with net := (bindMany factory a n last s.net).2 } := by
  induction n generalizing s last with
  | zero => exact h
  | succ n ih =>
    unfold Simulation.bindMany
    rcases h.bind factory a with ⟨id, net, hb, hbound, hf⟩ | ⟨e, hb⟩ <;> simp only [hb]
    · exact ih (hbound.dropFresh hf) _
    · exact h

theorem Orderly.onSocket (h : Orderly role stopped s) (name : String)
    {f : SocketId → Network → Answer × Network}
    (hf : ∀ id, role id = .named → Orderly role stopped { s with net := (f id s.net).2 }) :
    Orderly role stopped (s.onSocket name f).2 := by
  unfold Simulation.onSocket
  split
  · exact hf _ (h.names ‹_›)
  · exact h

theorem Orderly.startListener (h : Orderly role stopped s) (name socket : String) (refused : List Seq) :
    Orderly role stopped (s.startListener name socket refused) := by
  unfold Simulation.startListener
  split
  · rename_i id hid
    have hr := rests_dropLoop s name
    have hdropped := h.rests hr
    rw [← hr.socketNames] at hid
    have hstarted := hdropped.startLoop (.listener name refused) (hdropped.names hid)
      (hdropped.seats ⟨.name socket, hid⟩)
    exact hstarted.rests (.other (.refl _))
  · exact h

theorem Orderly.dropConnection (h : Orderly role stopped s) (name : String) :
    Orderly role stopped (s.dropConnection name).2 := by
  unfold Simulation.dropConnection
  split
  · exact (h.eraseHandle name).rests (rests_letGo _ _)
  · exact h

/-! ### All commands -/

def stoppedBy (s : Simulation) : Command → List Nat
  | .stopServer name => (s.hostNames.find? name).toList
  | _ => []

def waits : Command → Bool
  | .advance _ | .pump _ _ => true
  | _ => false

theorem Orderly.carryOut (h : Orderly role stopped s) (c : Command) (hc : waits c = false) :
    ∃ role', Orderly role' (s.stoppedBy c ++ stopped) (s.carryOut c).2 := by
  cases c with
  | addFactory name plan describe => exact ⟨role, h.rests (.other ⟨rfl, fun _ => rfl⟩)⟩
  | setMode factory change => exact ⟨role, h.rests (rests_net s ⟨rfl, fun _ => rfl⟩)⟩
  | bind socket factory a => exact h.bindNamed socket factory a
  | bindMany factory a n => exact ⟨role, h.bindMany _ a n .done⟩
  | send socket target b mayHold =>
    exact ⟨role, h.onSocket socket fun id _ => h.rests (rests_net s (Network.send_same s.net id target b mayHold))⟩
  | receive socket limit =>
    exact ⟨role, h.onSocket socket fun id _ => h.rests (rests_net s (Network.receiveAll_same id limit _ _ s.net))⟩
  | readiness socket => exact ⟨role, h.onSocket socket fun _ _ => h⟩
  | inject source target b => exact ⟨role, h.rests (rests_net s (Network.deliver_same s.net _ target))⟩
  | closeSocket socket => exact ⟨role, h.onSocket socket fun id hid => h.closeNamed hid⟩
  | dropSocket socket => exact ⟨role, h.eraseName socket⟩
  | startLoop name socket refused => exact ⟨role, h.startListener name socket refused⟩
  | stopLoop name =>
    refine ⟨role, ?_⟩
    simp only [Simulation.carryOut]
    split
    · exact h.rests (rests_stopLoop s _)
    · exact h
  | dropReceiver name =>
    refine ⟨role, ?_⟩
    simp only [Simulation.carryOut, dropReceiver]
    split
    · exact h.rests (rests_modifyLoop s _ fun _ => rfl)
    · exact h
  | dropLoop name => exact ⟨role, h.rests (rests_dropLoop s name)⟩
  | startServer name factory a application admitted config =>
    exact h.startServer name factory a application admitted config
  | pollServer name => exact ⟨role, (h.acts_pollServer name).orderly h⟩
  | stopServer name => exact ⟨role, h.stopServer name⟩
  | dropServer name => exact ⟨role, h.forgetServer name⟩
  | setPendingLife name life => exact ⟨role, (h.acts_setPendingLife name life).orderly h⟩
  | grab server peer name => exact ⟨role, h.grab server peer name⟩
  | openConnection name factory target timeout application config =>
    exact ⟨role, (h.pushOpening rfl).rests (rests_spawn _ _)⟩
  | pollConnection name =>
    exact ⟨role, (h.acts_onConnection name (operates_one .poll fun _ _ _ => rfl)).orderly h⟩
  | sendReliable name payload =>
    exact ⟨role, (h.acts_onConnection name (operates_one (.sendReliable payload) fun _ _ _ => rfl)).orderly h⟩
  | sendUnreliable name payload =>
    exact ⟨role, (h.acts_onConnection name (operates_one (.sendUnreliable payload) fun _ _ _ => rfl)).orderly h⟩
  | sendCounters name first n reliably =>
    exact ⟨role, (h.acts_onConnection name (operates_sendCounters reliably s.now first n .done)).orderly h⟩
  | closeConnection name =>
    exact ⟨role, (h.acts_onConnection name (operates_one .close fun _ _ _ => rfl)).orderly h⟩
  | setSendTimeout name limit =>
    exact ⟨role, (h.acts_onConnection name (operates_one (.setSendTimeout limit) fun _ _ _ => rfl)).orderly h⟩
  | dropConnection name => exact ⟨role, h.dropConnection name⟩
  | sentCount factory => exact ⟨role, h⟩
  | loopEnded name => exact ⟨role, h⟩
  | describeServer name => exact ⟨role, h⟩
  | describeConnection name => exact ⟨role, h⟩
  | advance span => cases hc
  | pump rounds span => cases hc

end Simulation

end DatagramStreams
