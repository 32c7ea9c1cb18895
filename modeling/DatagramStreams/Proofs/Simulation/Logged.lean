import DatagramStreams.Proofs.Simulation.LetterLog
import DatagramStreams.Proofs.Simulation.Moves

/-! Every run of a network has its record. Whatever connections, servers, openings and loops do to the network, they
do it by sending, reading, binding, closing and dropping; a turn goes to the errand in front, or to a task that keeps
its place there meanwhile.
Main statements: `Logged.move` and `Reached.logged`.
-/

set_option autoImplicit false

namespace DatagramStreams

open Network (Outside)

/-! ### Connections on any socket -/

section

variable {σ : Type} {sock : Socket σ} {I : σ → Prop} (hsend : ∀ a p s, I s → I (sock.send a p s).2)
  (hclose : ∀ s, I s → I (sock.close s))

include hsend

theorem Link.keepsEach_state (now : Instant) :
    Link.KeepsEach (fun _ => True) sock now True fun _ s => I s := by
  intro p l s _ hs
  have hsent := hsend l.peer (loaded p (l.attach p).1) s hs
  unfold Link.send
  rcases hr : sock.send l.peer (loaded p (l.attach p).1) s with ⟨e | u, s'⟩ <;> rw [hr] at hsent <;> simp only [hr]
  · exact ⟨_, _, _, rfl, .inr trivial, hsent⟩
  · exact ⟨_, _, _, rfl, .inr trivial, hsent⟩

include hclose

theorem Connection.custody_state (now : Instant) (owned : Bool) :
    Connection.Custody sock now owned (fun _ => True) (fun _ _ s => I s) fun _ _ _ s => I s where
  fresh _ _ _ := trivial
  send _ := Link.keepsEach_state hsend now
  acks := ReliableStream.keepsAck_of_send (Link.keepsEach_state hsend now) (fun _ => trivial) fun _ _ _ h => h
  close := by
    intro a l s hs
    obtain ⟨result, l', s', hsent, -, hs'⟩ := @Link.keepsEach_state σ sock I hsend now .closeNotice l s trivial hs
    simp only [Link.sendQuietly, hsent]
    cases owned with
    | true => exact hclose s' hs'
    | false => exact hs'
  closedByPeer := by
    intro a l s hs
    cases owned with
    | true => exact hclose s hs
    | false => exact hs

/-- A connection does nothing to its socket but send on it and close it. -/
theorem Connection.Turn.run_keeps (turn : Connection.Turn) (now : Instant) (c : Connection) {s : σ} (hs : I s) :
    I (turn.run sock now c s).2 := by
  by_cases ho : c.state = .opened
  · have hc : Connection.Guarded c.ownsSocket (fun _ => True) (fun _ _ s => I s) (fun _ _ s => I s) c s :=
      .still ho rfl (fun _ _ => trivial) hs
    exact (turn.run_guarded (Connection.custody_state hsend hclose now c.ownsSocket) (.same fun _ _ h => h) hc).always
  · rwa [(turn.run_of_not_opened ho sock now s).2]

theorem Connection.Use.runAll_keeps (uses : List Connection.Use) (now : Instant) (c : Connection) {s : σ} (hs : I s) :
    I (runAll sock now uses c s).2 := by
  induction uses generalizing c s with
  | nil => exact hs
  | cons what rest ih => exact ih _ (Connection.Turn.run_keeps hsend hclose (.use what) now c hs)

end

namespace Simulation

open Connection (Use)

variable {role : SocketId → Role} {stopped : List Nat} {s₀ s s' s'' : Simulation} {t : Task} {n : Nat}
  {id : SocketId} {α : Type}

/-! ### What leaves the network alone -/

/-- Nothing has happened to clock, network and errands, and tasks have become ready behind those that were. -/
structure Idle (s s' : Simulation) : Prop extends TakesOn [] s s' where
  ready : s.ready.toList <+: s'.ready.toList

theorem Idle.trans (h₁ : Idle s s') (h₂ : Idle s' s'') : Idle s s'' :=
  ⟨h₁.toTakesOn.trans h₂.toTakesOn, h₁.ready.trans h₂.ready⟩

theorem Idle.other {draws : Draws} {clients : Array Client} {hosts : Array Host} {loops : Array LoopTask}
    {openings : Array OpeningTask} {factoryNames loopNames hostNames : Table String Nat}
    {socketNames : Table String SocketId} {connectionNames : Table String Handle} {events : List Event}
    {ended : List (String × Except ConnectionError Nat)}
    {opened : List (String × Except ConnectionError ConnectionReport)} :
    Idle s { s with
      draws, clients, hosts, loops, openings, factoryNames, socketNames, loopNames, hostNames, connectionNames,
      events, ended, opened } :=
  ⟨⟨rfl, rfl, (List.append_nil _).symm, rfl, fun h => ⟨h.sleepers, h.alarms⟩⟩, List.prefix_rfl⟩

theorem Idle.refl (s : Simulation) : Idle s s := .other

theorem idle_foldl {f : Simulation → α → Simulation} (hf : ∀ s x, Idle s (f s x)) (l : List α) (s : Simulation) :
    Idle s (l.foldl f s) := by
  induction l generalizing s with
  | nil => exact .refl s
  | cons x rest ih => exact (hf s x).trans (ih _)

theorem idle_wake (s : Simulation) (ht : t.errand? = none) : Idle s (s.wake t) := by
  refine ⟨aside_wake s ht, ?_⟩
  simp only [wake]
  split
  · exact List.prefix_rfl
  · simp

theorem idle_spawn (s : Simulation) (ht : t.errand? = none) : Idle s (s.spawn t) := by
  have hnew := takesOn_spawn s t
  rw [ht] at hnew
  exact ⟨hnew, by simp [spawn]⟩

theorem idle_sleep (s : Simulation) (id : SocketId) (ht : t.errand? = none) : Idle s (s.sleep id t) := by
  refine ⟨⟨rfl, rfl, (List.append_nil _).symm, rfl, fun h => ⟨fun e he => ?_, h.alarms⟩⟩, List.prefix_rfl⟩
  rcases List.mem_append.mp he with he | he
  · exact h.sleepers e he
  · exact List.mem_singleton.mp he ▸ ht

theorem idle_setAlarm (s : Simulation) (instant : Instant) (ht : t.errand? = none) :
    Idle s (s.setAlarm instant t) := by
  refine ⟨⟨rfl, rfl, (List.append_nil _).symm, ?_, fun h => ⟨h.sleepers, fun a ha => ?_⟩⟩, List.prefix_rfl⟩
  · cases t <;> first | rfl | cases ht
  · rcases List.mem_cons.mp ha with rfl | ha
    · rintro h rfl
      cases ht
    · exact h.alarms a ha

theorem idle_emit (s : Simulation) (watched : Bool) (owner : String) (peer : Address) (entries : List EventEntry) :
    Idle s (s.emit watched owner peer entries) := by
  unfold emit
  split
  · exact .other
  · exact .refl s

theorem idle_stopLoop (s : Simulation) (n : Nat) : Idle s (s.stopLoop n) := by
  unfold stopLoop
  split
  · exact .refl s
  · have hstop : Idle s { s with loops := s.loops.modify n fun l => { l with loop := l.loop.stop } } := .other
    exact hstop.trans (idle_wake _ rfl)

theorem idle_startLoop (s : Simulation) (socket : SocketId) (audience : Audience) :
    Idle s (s.startLoop socket audience).2 := by
  have hpush : Idle s { s with loops := s.loops.push { socket, audience } } := .other
  exact hpush.trans (idle_spawn _ rfl)

theorem idle_dropLoop (s : Simulation) (name : String) : Idle s (s.dropLoop name) := by
  unfold dropLoop
  split
  · refine Idle.trans ?_ (idle_stopLoop _ _)
    exact .other
  · exact .refl s

theorem idle_forgetServer (s : Simulation) (name : String) : Idle s (s.forgetServer name) := by
  unfold forgetServer
  split
  · unfold dropHost
    split
    · refine Idle.trans ?_ (idle_stopLoop _ _)
      exact .other
    · exact .other
  · exact .refl s

theorem idle_letGo (s : Simulation) (handle : Handle) : Idle s (s.letGo handle) := by
  unfold letGo
  split
  · exact .refl s
  · cases handle with
    | client n =>
      simp only
      split
      · exact idle_stopLoop s _
      · exact .refl s
    | hosted n k => exact .refl s

theorem idle_nameHandle (s : Simulation) (name : String) (handle : Handle) : Idle s (s.nameHandle name handle) := by
  have hput : Idle s { s with connectionNames := s.connectionNames.put name handle } := .other
  unfold nameHandle
  simp only
  split
  · exact hput.trans (idle_letGo _ _)
  · exact hput

theorem idle_afterClient (s : Simulation) (n : Nat) : Idle s (s.afterClient n) := by
  unfold afterClient
  split
  · split
    · exact .refl s
    · exact idle_stopLoop s _
  · exact .refl s

theorem idle_putClient (s : Simulation) (n : Nat) (c : Client) (after : Connection) (net : Network) :
    Idle { s with net } (s.putClient n c after net) := by
  have hset : Idle { s with net } { s with net, clients := s.clients.set! n { c with connection := after } } := .other
  exact (hset.trans (idle_emit _ _ _ _ _)).trans (idle_afterClient _ n)

theorem idle_putHost (s : Simulation) (n : Nat) (h : Host) (after : Server) (net : Network) :
    Idle { s with net } (s.putHost n h after net) := by
  have hset : Idle { s with net } { s with net, hosts := s.hosts.set! n { h with server := after } } := .other
  exact hset.trans (idle_foldl (fun s (e : Connection × Nat) => idle_emit s _ _ _ _) _ _)

theorem idle_lookAt (s : Simulation) (e : String × Except ConnectionError Nat) : Idle s (s.lookAt e) := by
  unfold lookAt
  split
  · exact .other
  · split
    · rename_i c _
      have hopened : Idle s { s with opened := (e.1, .ok (s.report c.connection c.socket)) :: s.opened } := .other
      exact hopened.trans (idle_nameHandle _ _ _)
    · exact .refl s

theorem idle_lookAtEnded (s : Simulation) : Idle s s.lookAtEnded := by
  have hclear : Idle s { s with ended := [] } := .other
  exact hclear.trans (idle_foldl idle_lookAt _ _)

/-! ### What has a record -/

def Logged (s : Simulation) : Prop := ∃ c, LetterLog.Reached c ∧ c.sim = s

theorem logged_start : Logged {} := ⟨.fresh #[], .start #[] (by simp), rfl⟩

theorem Logged.aside (h : s.Logged) (ha : Aside s s') : s'.Logged := by
  obtain ⟨c, hrun, rfl⟩ := h
  exact ⟨_, hrun.aside ha, rfl⟩

theorem Logged.act (h : s.Logged) (x : Outside) (hx : x.takesSignals = false) :
    Logged { s with net := x.run s.net } := by
  obtain ⟨c, hrun, rfl⟩ := h
  exact ⟨_, hrun.act x hx, rfl⟩

theorem Logged.hearAll (h : s.Logged) : s.hearAll.Logged := by
  obtain ⟨c, hrun, rfl⟩ := h
  exact ⟨_, hrun.hear, rfl⟩

theorem Logged.runErrand (h : s.Logged) (hfront : s.errandInFront = true) :
    s.runErrand.Logged := by
  obtain ⟨c, hrun, rfl⟩ := h
  refine ⟨_, hrun.turn, ?_⟩
  rcases hrun.tied.turn_cases with ⟨hnone, -⟩ | ⟨l, begun, queued, -, -, ⟨-, hturn⟩ | ⟨-, hturn⟩⟩
  · rw [hfront] at hnone
    cases hnone
  · rw [hturn]
    rfl
  · rw [hturn]
    rfl

theorem Logged.forget (h : s.Logged) : s.reported.Logged := by
  obtain ⟨c, hrun, rfl⟩ := h
  have hevents : Idle c.forget.sim c.sim.reported := .other
  exact ⟨_, hrun.forget.aside hevents.toTakesOn, rfl⟩

theorem Logged.pass (h : s.Logged) (span : Span) : { s with now := s.now + span }.ring.Logged := by
  obtain ⟨c, hrun, rfl⟩ := h
  exact ⟨_, hrun.pass span, rfl⟩

theorem Logged.sweepSockets (h : s.Logged) : s.sweepSockets.Logged :=
  sweepSockets_keeps (P := fun net => Logged { s with net }) (fun _ id hnet => hnet.act (.drop id) rfl) h

/-- A record goes on to this state, and whoever was ready still has its place in front. -/
structure Follows (s₀ s : Simulation) : Prop where
  logged : s.Logged
  ready : s₀.ready.toList <+: s.ready.toList

theorem Logged.follows (h : s.Logged) : s.Follows s := ⟨h, List.prefix_rfl⟩

theorem Follows.idle (h : s₀.Follows s) (hi : Idle s s') : s₀.Follows s' :=
  ⟨h.logged.aside hi.toTakesOn, h.ready.trans hi.ready⟩

theorem Follows.act (h : s₀.Follows s) (x : Outside) (hx : x.takesSignals = false) :
    s₀.Follows { s with net := x.run s.net } :=
  ⟨h.logged.act x hx, h.ready⟩

/-! ### Connections and servers -/

theorem follows_send (own : SocketId) (a : Address) (p : Packet) (net : Network)
    (h : s₀.Follows { s with net }) :
    s₀.Follows { s with net := ((Network.socket own).send a p net).2 } :=
  h.act (.send own a p.encode true) rfl

theorem follows_close (own : SocketId) (net : Network) (h : s₀.Follows { s with net }) :
    s₀.Follows { s with net := (Network.socket own).close net } :=
  h.act (.close own) rfl

theorem Follows.operate (h : s₀.Follows s) (handle : Handle) (other : α)
    {f : Socket Network → Connection → Network → α × Connection × Network} (hf : Operates s.now f) :
    s₀.Follows (s.operate handle other f).2 := by
  cases handle with
  | client n =>
    simp only [Simulation.operate]
    split
    · rename_i c hc
      obtain ⟨uses, huses⟩ := hf (Network.socket c.socket) c.connection s.net
      simp only [huses]
      have hused := Use.runAll_keeps (I := fun net => s₀.Follows { s with net })
        (follows_send c.socket) (follows_close c.socket) uses s.now c.connection h
      exact hused.idle (idle_putClient s n c _ _)
    · exact h
  | hosted n k =>
    simp only [Simulation.operate]
    split
    · rename_i host hh
      split
      · rename_i c hc
        obtain ⟨uses, huses⟩ := hf (Network.socket host.socket) c s.net
        simp only [huses]
        have hused := Use.runAll_keeps (I := fun net => s₀.Follows { s with net })
          (follows_send host.socket) (follows_close host.socket) uses s.now c h
        exact hused.idle (idle_putHost s n host _ _)
      · exact h
    · exact h

theorem Follows.onConnection (h : s₀.Follows s) (name : String)
    {f : Socket Network → Connection → Network → Answer × Connection × Network} (hf : Operates s.now f) :
    s₀.Follows (s.onConnection name f).2 := by
  unfold Simulation.onConnection
  split
  · exact h.operate _ _ hf
  · exact h

theorem Follows.react (h : s₀.Follows s) (ho : Orderly role stopped s) {host : Host}
    (hh : s.hosts[n]? = some host) (e : Server.Event) (now : Instant) :
    s₀.Follows (s.putHost n host
      (host.server.react (Network.socket host.socket) now s.net e).1
      (host.server.react (Network.socket host.socket) now s.net e).2) := by
  obtain ⟨-, hserver, -⟩ := ho.hosts hh
  have hreacted := hserver.react_keeps (Network.socket host.socket) (e := e)
    (I := fun net => s₀.Follows { s with net }) (fun a _ => follows_send host.socket a)
    (fun source _ _ _ => follows_send host.socket source) (fun _ _ => follows_close host.socket) now h
  exact hreacted.idle (idle_putHost s n host _ _)

theorem Follows.take (h : s₀.Follows s) (ho : Orderly role stopped s) (l : LoopTask) (source : Address)
    (p : Packet) : s₀.Follows ((receiver l).take source p s).2 := by
  unfold receiver
  cases l.audience with
  | listener name refused => exact h.idle (idle_emit s true name source [.packet p])
  | client n =>
    simp only [clientTake]
    split
    · rename_i c hc
      have htaken := Connection.Turn.run_keeps (I := fun net => s₀.Follows { s with net })
        (follows_send c.socket) (follows_close c.socket) (.arrival source p) s.now c.connection h
      exact htaken.idle (idle_putClient s n c _ _)
    · exact h
  | host n =>
    simp only [hostTake]
    split
    · rename_i host hh
      obtain ⟨-, hserver, -⟩ := ho.hosts hh
      have htaken := hserver.receive_keeps (Network.socket host.socket)
        (I := fun net => s₀.Follows { s with net }) (follows_send host.socket source) p s.now s.draws h
      refine htaken.idle (Idle.trans ?_ (idle_putHost _ n host _ _))
      exact .other
    · exact h

/-! ### Loops and openings -/

theorem Follows.receive (h : s₀.Follows s) (id : SocketId) (limit : Nat) :
    s₀.Follows ((netSocket id).receive limit s).2 :=
  h.act (.receive id limit) rfl

theorem Follows.turnLoop (h : s₀.Follows s) (ho : Orderly role stopped s) (n : Nat) :
    s₀.Follows (s.turnLoop n).2 := by
  unfold Simulation.turnLoop
  split
  · exact h
  · rename_i l hl
    have hread := h.receive l.socket Socket.bufferLength
    have hstep : s₀.Follows (l.loop.step (netSocket l.socket) (receiver l) s).2 := by
      rcases l.loop.step_cases (netSocket l.socket) (receiver l) s with heq | heq | ⟨source, p, heq⟩ <;> rw [heq]
      · exact h
      · exact hread
      · exact hread.take (ho.rests (rests_receive s l.socket Socket.bufferLength)) l source p
    generalize l.loop.step (netSocket l.socket) (receiver l) s = stepped at hstep ⊢
    obtain ⟨loop, s'⟩ := stepped
    have hmodified (f : LoopTask → LoopTask) : s₀.Follows { s' with loops := s'.loops.modify n f } :=
      hstep.idle .other
    simp only
    split
    · exact (hmodified _).idle (idle_sleep _ _ rfl)
    · exact hmodified _
    · exact hmodified _

theorem Follows.endOpening (h : s₀.Follows s) (n : Nat) (name : String)
    (result : Except ConnectionError Nat) : s₀.Follows (s.endOpening n name result) :=
  h.idle .other

theorem Follows.setStage (h : s₀.Follows s) (n : Nat) (stage : OpeningStage) :
    s₀.Follows (s.setStage n stage) :=
  h.idle .other

theorem Follows.bindOpening (h : s₀.Follows s) (n : Nat) (o : OpeningTask) :
    s₀.Follows (s.bindOpening n o).2 := by
  have hbound := h.act (.bind o.factory o.target.wildcardFor) rfl
  unfold Simulation.bindOpening
  rcases hb : s.net.bind o.factory o.target.wildcardFor with ⟨e | id, net⟩ <;>
    simp only [Outside.run, hb] at hbound ⊢
  · exact hbound.endOpening n o.name _
  · exact hbound.idle .other

theorem Follows.finishOpening (h : s₀.Follows s) (n : Nat) (o : OpeningTask) (id : SocketId)
    (result : Except ConnectionError Agreement) : s₀.Follows (s.finishOpening n o id result) := by
  cases result with
  | ok agreed =>
    have hstarted := h.idle (idle_startLoop s id (.client s.clients.size))
    have hadmitted : s₀.Follows (s.admitClient o id agreed).2 := hstarted.idle .other
    exact hadmitted.endOpening n o.name _
  | error e => exact (h.act (.drop id) rfl).endOpening n o.name _

theorem Follows.stepOpening (h : s₀.Follows s) (n : Nat) (o : OpeningTask) (id : SocketId)
    (opening : Opening) : s₀.Follows (s.stepOpening n o id opening).2 := by
  have hstep := opening.step_state (P := s₀.Follows) (netSocket id) s.now s h
    (fun a p => h.act (.send id a p.encode true) rfl) (h.receive id Socket.bufferLength)
  unfold Simulation.stepOpening
  rcases hs : opening.step (netSocket id) s.now s with ⟨⟨opening', wish⟩, s₁⟩
  rw [hs] at hstep
  have hset := hstep.setStage n (.bound id opening')
  cases wish with
  | again => exact hset
  | sleep mail limit =>
    cases mail <;> cases limit
    · exact hset
    · exact hset.idle (idle_setAlarm _ _ rfl)
    · exact hset.idle (idle_sleep _ id rfl)
    · exact (hset.idle (idle_sleep _ id rfl)).idle (idle_setAlarm _ _ rfl)
  | ended =>
    simp only
    split
    · exact hset.finishOpening n o id _
    · exact hset

theorem Follows.turnOpening (h : s₀.Follows s) (n : Nat) : s₀.Follows (s.turnOpening n).2 := by
  unfold Simulation.turnOpening
  split
  · exact h
  · split
    · exact h.bindOpening n _
    · exact h.stepOpening n _ _ _
    · exact h

/-! ### Turns -/

theorem turn_of_perform {rest : Queue Task} (hpop : s.ready.pop? = some (t, rest)) {again : Bool}
    (hdone : { s with ready := rest.pushFront t }.perform t = (again, s')) :
    s.turn = if again then s'.hearAll else { s' with ready := s'.ready.tail }.hearAll.sweepSockets := by
  simp only [Simulation.turn, hpop, hdone]

theorem turn_of_done {rest : Queue Task} (hpop : s.ready.pop? = some (t, rest))
    (hdone : { s with ready := rest.pushFront t }.perform t = (false, { s' with ready := rest.pushFront t })) :
    s.turn = { s' with ready := rest }.hearAll.sweepSockets := by
  rw [turn_of_perform hpop hdone]
  rfl

theorem turn_of_errand {rest : Queue Task} (hpop : s.ready.pop? = some (t, rest)) (ht : t.errand?.isSome = true) :
    s.turn = s.runErrand.hearAll.sweepSockets := by
  cases t with
  | loop n => cases ht
  | opening n => cases ht
  | release held =>
    have hrun : s.runErrand = { s.deliverHeld held with ready := rest } := by rw [Simulation.runErrand, hpop]; rfl
    rw [hrun]
    exact turn_of_done hpop rfl
  | hold held =>
    have hrun : s.runErrand = { s.holdBack held with ready := rest } := by
      rw [Simulation.runErrand, hpop]
      exact holdBack_ready s rest held
    have hdone : { s with ready := rest.pushFront (.hold held) }.perform (.hold held) =
        (false, { s.holdBack held with ready := rest.pushFront (.hold held) }) := by
      rw [perform, holdBack_ready]
    rw [hrun]
    exact turn_of_done hpop hdone

theorem Logged.turn_errand (h : s.Logged) {rest : Queue Task} (hpop : s.ready.pop? = some (t, rest))
    (ht : t.errand?.isSome = true) : s.turn.Logged := by
  rw [turn_of_errand hpop ht]
  exact (h.runErrand (by simp only [errandInFront, hpop, ht])).hearAll.sweepSockets

/-- Any other task keeps its place in front until it gives that up. -/
theorem Logged.turn_other (h : s.Logged) (ho : Orderly role stopped s) {rest : Queue Task}
    (hpop : s.ready.pop? = some (t, rest)) (ht : t.errand? = none) : s.turn.Logged := by
  have hlist := Queue.toList_of_pop? hpop
  have hfront : Aside s { s with ready := rest.pushFront t } :=
    ⟨rfl, rfl, by simp [errands, hlist], rfl, fun h => ⟨h.sleepers, h.alarms⟩⟩
  have hstart := (h.aside hfront).follows
  have hordered := ho.rests (rests_ready s (rest.pushFront t))
  have hfollows : Follows { s with ready := rest.pushFront t }
      ({ s with ready := rest.pushFront t }.perform t).2 := by
    cases t with
    | loop n => exact hstart.turnLoop hordered n
    | opening n => exact hstart.turnOpening n
    | hold held => cases ht
    | release held => cases ht
  rcases hdone : { s with ready := rest.pushFront t }.perform t with ⟨_ | _, s'⟩ <;> rw [hdone] at hfollows <;>
    rw [turn_of_perform hpop hdone]
  · obtain ⟨new, hnew⟩ := hfollows.ready
    have hgone : Aside s' { s' with ready := s'.ready.tail } := by
      refine ⟨rfl, rfl, ?_, rfl, fun h => ⟨h.sleepers, h.alarms⟩⟩
      simp only [Queue.toList_pushFront] at hnew
      simp [errands, Queue.toList_tail, ← hnew, ht]
    exact (hfollows.logged.aside hgone).hearAll.sweepSockets
  · exact hfollows.logged.hearAll

theorem Logged.turn (h : s.Logged) (ho : Orderly role stopped s) : s.turn.Logged := by
  cases hpop : s.ready.pop? with
  | none => simpa only [Simulation.turn, hpop] using h
  | some popped =>
    obtain ⟨t, rest⟩ := popped
    cases ht : t.errand? with
    | none => exact h.turn_other ho hpop ht
    | some e => exact h.turn_errand hpop (by rw [ht]; rfl)

/-! ### Commands -/

theorem Follows.onSocket (h : s₀.Follows s) (name : String) {f : SocketId → Network → Answer × Network}
    (hf : ∀ id, s₀.Follows { s with net := (f id s.net).2 }) :
    s₀.Follows (s.onSocket name f).2 := by
  unfold Simulation.onSocket
  split
  · exact hf _
  · exact h

theorem Follows.receiveAll (id : SocketId) (limit n : Nat) (got : Queue (Address × Octets)) (net : Network)
    (h : s₀.Follows { s with net }) :
    s₀.Follows { s with net := (Network.receiveAll id limit n got net).2 } := by
  induction n generalizing got net with
  | zero => exact h
  | succ n ih =>
    have hfirst := h.act (.receive id limit) rfl
    unfold Network.receiveAll
    rcases hr : net.receive id limit with ⟨e | x, net'⟩ <;> simp only [Outside.run, hr] at hfirst
    · exact hfirst
    · exact ih _ net' hfirst

theorem Follows.bind (h : s₀.Follows s) (name factory : String) (a : Address) :
    s₀.Follows (s.bind name factory a).2 := by
  have hbound := h.act (.bind (s.factoryNumber factory) a) rfl
  unfold Simulation.bind
  rcases hb : s.net.bind (s.factoryNumber factory) a with ⟨e | id, net⟩ <;> simp only [Outside.run, hb] at hbound ⊢
  · exact hbound
  · exact hbound.idle .other

theorem Follows.bindMany (factory : Nat) (a : Address) (n : Nat) (last : Answer) (net : Network)
    (h : s₀.Follows { s with net }) :
    s₀.Follows { s with net := (bindMany factory a n last net).2 } := by
  induction n generalizing last net with
  | zero => exact h
  | succ n ih =>
    have hbound := h.act (.bind factory a) rfl
    unfold Simulation.bindMany
    rcases hb : net.bind factory a with ⟨e | id, net'⟩ <;> simp only [Outside.run, hb] at hbound ⊢
    · exact hbound
    · exact ih _ _ (hbound.act (.drop id) rfl)

theorem Follows.startListener (h : s₀.Follows s) (name socket : String) (refused : List Seq) :
    s₀.Follows (s.startListener name socket refused) := by
  unfold Simulation.startListener
  split
  · rename_i id _
    have hstarted := (h.idle (idle_dropLoop s name)).idle (idle_startLoop _ id (.listener name refused))
    exact hstarted.idle .other
  · exact h

theorem Follows.startServer (h : s₀.Follows s) (name factory : String) (a : Address)
    (application : Application) (admitted : Option (List Address)) (config : Settings) :
    s₀.Follows (s.startServer name factory a application admitted config).2 := by
  have hbound := h.act (.bind (s.factoryNumber factory) a) rfl
  unfold Simulation.startServer
  rcases hb : s.net.bind (s.factoryNumber factory) a with ⟨e | id, net⟩ <;> simp only [Outside.run, hb] at hbound ⊢
  · exact hbound
  · split
    · exact hbound.act (.drop id) rfl
    · have hstarted := hbound.idle (idle_startLoop _ id (.host s.hosts.size))
      have hpushed (host : Host) : s₀.Follows
          { ({ s with net }.startLoop id (.host s.hosts.size)).2 with hosts := s.hosts.push host } :=
        hstarted.idle .other
      exact ((hpushed _).idle (idle_forgetServer _ name)).idle .other

theorem Follows.carryOut (h : s₀.Follows s) (ho : Orderly role stopped s) (c : Command)
    (hc : waits c = false) : s₀.Follows (s.carryOut c).2 := by
  -- What acts on the network is an event of the log, a server hands over many, and all else is idle.
  cases c with
  | addFactory name plan describe => exact (h.act (.addFactory plan) rfl).idle .other
  | setMode factory change => exact h.act (.setMode _ _) rfl
  | bind socket factory a => exact h.bind socket factory a
  | bindMany factory a n => exact Follows.bindMany _ a n .done s.net h
  | send socket target b mayHold => exact h.onSocket socket fun id => h.act (.send id target b mayHold) rfl
  | receive socket limit => exact h.onSocket socket fun id => Follows.receiveAll id limit _ _ s.net h
  | readiness socket => exact h.onSocket socket fun _ => h
  | inject source target b => exact h.act (.deliver ⟨source, b⟩ target) rfl
  | closeSocket socket => exact h.onSocket socket fun id => h.act (.close id) rfl
  | dropSocket socket => exact h.idle .other
  | startLoop name socket refused => exact h.startListener name socket refused
  | stopLoop name =>
    simp only [Simulation.carryOut]
    split
    · exact h.idle (idle_stopLoop s _)
    · exact h
  | dropReceiver name =>
    simp only [Simulation.carryOut, dropReceiver]
    split
    · exact h.idle .other
    · exact h
  | dropLoop name => exact h.idle (idle_dropLoop s name)
  | startServer name factory a application admitted config =>
    exact h.startServer name factory a application admitted config
  | pollServer name =>
    exact onHost_elim (P := s₀.Follows) h fun _ host _ hh =>
      h.react ho hh (.poll host.server.clients.values) s.now
  | stopServer name =>
    refine onHost_elim (P := s₀.Follows) h fun _ host _ hh => ?_
    have hr : Rests s (s.stopLoop host.loop) := rests_stopLoop s host.loop
    have hstopped := h.idle (idle_stopLoop s host.loop)
    exact hstopped.react (ho.rests hr) (hr.hosts ▸ hh) (.stop host.server.clients.values) _
  | dropServer name => exact h.idle (idle_forgetServer s name)
  | setPendingLife name life =>
    exact onHost_elim (P := s₀.Follows) h fun _ _ _ hh => h.react ho hh (.setPendingLife life) s.now
  | grab server peer name =>
    refine onHost_elim (P := fun r : Answer × Simulation => s₀.Follows r.2) h fun n host _ _ => ?_
    split
    · exact h.idle (idle_nameHandle s name _)
    · exact h
  | openConnection name factory target timeout application config =>
    refine h.idle (Idle.trans ?_ (idle_spawn _ rfl))
    exact .other
  | pollConnection name => exact h.onConnection name (operates_one .poll fun _ _ _ => rfl)
  | sendReliable name payload => exact h.onConnection name (operates_one (.sendReliable payload) fun _ _ _ => rfl)
  | sendUnreliable name payload => exact h.onConnection name (operates_one (.sendUnreliable payload) fun _ _ _ => rfl)
  | sendCounters name first n reliably =>
    exact h.onConnection name (operates_sendCounters reliably s.now first n .done)
  | closeConnection name => exact h.onConnection name (operates_one .close fun _ _ _ => rfl)
  | setSendTimeout name limit => exact h.onConnection name (operates_one (.setSendTimeout limit) fun _ _ _ => rfl)
  | dropConnection name =>
    simp only [Simulation.carryOut, Simulation.dropConnection]
    split
    · refine h.idle (Idle.trans ?_ (idle_letGo _ _))
      exact .other
    · exact h
  | sentCount factory => exact h
  | loopEnded name => exact h
  | describeServer name => exact h
  | describeConnection name => exact h
  | advance span => cases hc
  | pump rounds span => cases hc

/-! ### Moves -/

theorem Logged.move (h : s.Logged) (ho : Orderly role stopped s) (m : Move) (hm : m.waits = false) :
    (m.run s).Logged := by
  cases m with
  | command c => exact (h.follows.carryOut ho c hm).logged
  | sweep => exact h.hearAll.sweepSockets
  | turn => exact h.turn ho
  | look => exact h.aside (idle_lookAtEnded s).toTakesOn
  | report => exact h.forget
  | pass span => exact h.pass span

/-- Whatever happens on a network, there is a record of it. -/
theorem Reached.logged (h : Reached stopped s) : s.Logged := by
  induction h with
  | start => exact logged_start
  | move hreached m hm ih =>
    obtain ⟨role, ho⟩ := hreached.orderly
    exact ih.move ho m hm

end Simulation

end DatagramStreams
