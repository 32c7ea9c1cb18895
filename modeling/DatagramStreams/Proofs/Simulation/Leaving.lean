import DatagramStreams.Proofs.Simulation.Moves

/-! What one move changes about clients and addresses. A move that has to do with the connection of a client
gives no address to anybody, so a client that leaves in a move leaves its address free.
Main statements: `Orderly.passage` and `Orderly.free_of_leaving`.
-/

set_option autoImplicit false

namespace DatagramStreams.Simulation

variable {role role' : SocketId → Role} {stopped stopped' : List Nat} {s s' s'' : Simulation} {n : Nat}

def Frees (s s' : Simulation) : Prop :=
  ∀ a id, s'.net.registry.owner? a = some id → s.net.registry.owner? a = some id

structure Quiet (s s' : Simulation) : Prop where
  clients : s'.clients = s.clients
  frees : Frees s s'

/-- Either no client has changed, or nobody has got an address. -/
inductive Passage (s s' : Simulation) : Prop
  | keeps (h : ∀ (n : Nat) (c : Client), s.clients[n]? = some c → s'.clients[n]? = some c) : Passage s s'
  | frees (sockets : s'.clientSocket? = s.clientSocket?) (h : Frees s s') : Passage s s'

theorem Rests.quiet (h : Rests s s') : Quiet s s' :=
  ⟨h.clients, fun _ _ ho => h.net.registry ▸ ho⟩

theorem Passage.of_clients (h : s'.clients = s.clients) : Passage s s' :=
  .keeps fun _ _ hc => h ▸ hc

theorem Passage.refl (s : Simulation) : Passage s s := .of_clients rfl

theorem Quiet.passage (h : Quiet s s') (h' : Passage s' s'') : Passage s s'' := by
  cases h' with
  | keeps hkeeps => exact .keeps fun n c hc => hkeeps n c (h.clients ▸ hc)
  | frees hsockets hfrees =>
    exact .frees (hsockets.trans (clientSocket?_congr h.clients)) fun a id ho => h.frees a id (hfrees a id ho)

theorem Passage.quiet (h : Passage s s') (h' : Quiet s' s'') : Passage s s'' := by
  cases h with
  | keeps hkeeps => exact .keeps fun n c hc => h'.clients ▸ hkeeps n c hc
  | frees hsockets hfrees =>
    exact .frees ((clientSocket?_congr h'.clients).trans hsockets) fun a id ho => hfrees a id (h'.frees a id ho)

/-- A client that leaves in a move in which nobody gets an address leaves its own free. -/
theorem Orderly.free_of_leaving (h : Orderly role stopped s) (h' : Orderly role' stopped' s')
    (hp : Passage s s') {c c' : Client} {a : Address} (hc : s.clients[n]? = some c)
    (hc' : s'.clients[n]? = some c') (hid : s.Refers c.socket) (hopen : c.connection.isOpen = true)
    (hleft : c'.connection.isOpen = false) (hbadge : s.net.badge c.socket = some (a, false)) :
    s'.net.registry.owner? a = none := by
  cases hp with
  | keeps hkeeps =>
    rw [hkeeps n c hc, Option.some.injEq] at hc'
    rw [← hc', hopen] at hleft
    cases hleft
  | frees hsockets hfrees =>
    have hsocket : c'.socket = c.socket := by
      have hn := congrFun hsockets n
      simp only [clientSocket?, hc, hc', Option.map_some, Option.some.injEq] at hn
      exact hn
    -- Whoever owned the address now would have owned it before: that was the client's socket, now closed.
    refine Option.eq_none_iff_forall_ne_some.mpr fun x hx => ?_
    have howner := h.tenured.bound hid hbadge
    rw [hfrees a x hx, Option.some.injEq] at howner
    obtain ⟨-, -, b, hclosed⟩ := h'.clients hc'
    rw [hsocket, hleft] at hclosed
    exact h'.tenured.owner?_ne_of_closed hclosed a (howner ▸ hx)

/-! ### Clients and servers -/

theorem clients_putHost (s : Simulation) (n : Nat) (host : Host) (after : Server) (net : Network) :
    (s.putHost n host after net).clients = s.clients :=
  (rests_reports host after _).clients

theorem Acts.passage (ha : Acts s s') : Passage s s' := by
  cases ha with
  | rests hr => exact .of_clients hr.clients
  | host _ _ _ => exact .of_clients (clients_putHost _ _ _ _ _)
  | @client n c after net hc _ ho =>
    have hset : Passage s { s with net, clients := s.clients.set! n { c with connection := after } } :=
      .frees (clientSocket?_setClient hc after net) fun _ _ => Network.owner?_of_occupies ho
    exact hset.quiet ((rests_emit _ _ _ _ _).trans (rests_afterClient _ n)).quiet

theorem clients_forgetServer (s : Simulation) (name : String) : (s.forgetServer name).clients = s.clients := by
  unfold forgetServer
  split
  · unfold dropHost
    split
    · exact (rests_stopLoop _ _).clients
    · rfl
  · rfl

theorem clients_startServer (s : Simulation) (name factory : String) (a : Address) (application : Application)
    (admitted : Option (List Address)) (config : Settings) :
    (s.startServer name factory a application admitted config).2.clients = s.clients := by
  unfold startServer
  split
  · rfl
  · split
    · rfl
    · exact clients_forgetServer _ name

theorem clients_grab (s : Simulation) (server : String) (peer : Address) (name : String) :
    (s.grab server peer name).2.clients = s.clients := by
  refine onHost_elim (P := fun r : Answer × Simulation => r.2.clients = s.clients) rfl fun n host _ _ => ?_
  split
  · exact (s.nameHandle_frame name _).1
  · rfl

theorem clients_onSocket (s : Simulation) (name : String) (f : SocketId → Network → Answer × Network) :
    (s.onSocket name f).2.clients = s.clients := by
  unfold onSocket
  split <;> rfl

/-! ### Commands -/

theorem Orderly.passage_carryOut (h : Orderly role stopped s) (c : Command) (hc : waits c = false) :
    Passage s (s.carryOut c).2 := by
  cases c with
  | pollConnection name => exact (h.acts_onConnection name (operates_one .poll fun _ _ _ => rfl)).passage
  | sendReliable name payload =>
    exact (h.acts_onConnection name (operates_one (.sendReliable payload) fun _ _ _ => rfl)).passage
  | sendUnreliable name payload =>
    exact (h.acts_onConnection name (operates_one (.sendUnreliable payload) fun _ _ _ => rfl)).passage
  | sendCounters name first n reliably =>
    exact (h.acts_onConnection name (operates_sendCounters reliably s.now first n .done)).passage
  | closeConnection name => exact (h.acts_onConnection name (operates_one .close fun _ _ _ => rfl)).passage
  | setSendTimeout name limit =>
    exact (h.acts_onConnection name (operates_one (.setSendTimeout limit) fun _ _ _ => rfl)).passage
  | advance span => cases hc
  | pump rounds span => cases hc
  | bind socket factory a =>
    refine .of_clients ?_
    simp only [Simulation.carryOut, Simulation.bind]
    split <;> rfl
  | send socket target b mayHold => exact .of_clients (clients_onSocket s socket _)
  | receive socket limit => exact .of_clients (clients_onSocket s socket _)
  | readiness socket => exact .of_clients (clients_onSocket s socket _)
  | closeSocket socket => exact .of_clients (clients_onSocket s socket _)
  | startLoop name socket refused =>
    refine .of_clients ?_
    simp only [Simulation.carryOut, Simulation.startListener]
    split
    · exact (rests_dropLoop s name).clients
    · rfl
  | stopLoop name =>
    refine .of_clients ?_
    simp only [Simulation.carryOut]
    split
    · exact (rests_stopLoop s _).clients
    · rfl
  | dropReceiver name =>
    refine .of_clients ?_
    simp only [Simulation.carryOut, dropReceiver]
    split <;> rfl
  | dropLoop name => exact .of_clients (rests_dropLoop s name).clients
  | startServer name factory a application admitted config =>
    exact .of_clients (clients_startServer s name factory a application admitted config)
  | pollServer name => exact (h.acts_pollServer name).passage
  | setPendingLife name life => exact (h.acts_setPendingLife name life).passage
  | stopServer name =>
    exact .of_clients (onHost_elim (P := fun s' : Simulation => s'.clients = s.clients) rfl
      fun n host _ _ => (clients_putHost _ n host _ _).trans (rests_stopLoop s host.loop).clients)
  | dropServer name => exact .of_clients (clients_forgetServer s name)
  | grab server peer name => exact .of_clients (clients_grab s server peer name)
  | dropConnection name =>
    refine .of_clients ?_
    simp only [Simulation.carryOut, Simulation.dropConnection]
    split
    · exact (rests_letGo _ _).clients
    · rfl
  | _ => exact .of_clients rfl

/-! ### Turns -/

theorem quiet_loops (s : Simulation) (loops : Array LoopTask) : Quiet s { s with loops } :=
  ⟨rfl, fun _ _ ho => ho⟩

theorem Orderly.passage_turnLoop (h : Orderly role stopped s) (n : Nat) : Passage s (s.turnLoop n).2 := by
  unfold Simulation.turnLoop
  split
  · exact .refl s
  · rename_i l hl
    obtain ⟨s₁, hr, hacts⟩ := h.acts_stepLoop l
    have hstep := hr.quiet.passage hacts.passage
    simp only
    split
    · exact (hstep.quiet (quiet_loops _ _)).quiet (rests_sleep _ _ _).quiet
    · exact hstep.quiet (quiet_loops _ _)
    · exact hstep.quiet (quiet_loops _ _)

theorem passage_finishOpening (s : Simulation) (n : Nat) (o : OpeningTask) (id : SocketId)
    (result : Except ConnectionError Agreement) : Passage s (s.finishOpening n o id result) := by
  cases result with
  | ok agreed => exact .keeps fun _ _ hc => getElem?_push_of_some hc
  | error e => exact .of_clients rfl

theorem Attempts.passage {o : OpeningTask} (ha : Attempts n o s s') : Passage s s' := by
  cases ha with
  | idle => exact .refl s
  | refused => exact .of_clients rfl
  | bound => exact .of_clients rfl
  | goesOn => exact .of_clients rfl
  | @ends id opening opening' net result _ hsame =>
    have hset : Quiet s ({ s with net }.setStage n (.bound id opening')) := ⟨rfl, (rests_net s hsame).quiet.frees⟩
    exact hset.passage (passage_finishOpening _ n o id result)

theorem passage_turnOpening (s : Simulation) (n : Nat) : Passage s (s.turnOpening n).2 := by
  cases ho : s.openings[n]? with
  | none => simpa only [turnOpening, ho] using .refl s
  | some o => exact (attempts_turnOpening ho).passage

theorem Orderly.passage_perform (h : Orderly role stopped s) (t : Task) : Passage s (s.perform t).2 := by
  cases t with
  | loop n => exact h.passage_turnLoop n
  | opening n => exact passage_turnOpening s n
  | hold held => exact .of_clients (rests_holdBack s held).clients
  | release held => exact .of_clients rfl

theorem quiet_sweepSockets (s : Simulation) : Quiet s s.sweepSockets where
  clients := rfl
  frees a id := sweepSockets_keeps (P := fun net => net.registry.owner? a = some id → s.net.registry.owner? a = some id)
    (fun _ _ hnet ho => hnet (Network.owner?_of_drop ho)) fun ho => ho

theorem Orderly.passage_turn (h : Orderly role stopped s) : Passage s s.turn := by
  unfold Simulation.turn
  split
  · exact .refl s
  · rename_i t rest _
    have hready := rests_ready s (rest.pushFront t)
    have hdone := hready.quiet.passage ((h.rests hready).passage_perform t)
    simp only
    split
    · exact hdone.quiet (rests_hearAll _).quiet
    · exact (hdone.quiet ((rests_ready _ _).trans (rests_hearAll _)).quiet).quiet (quiet_sweepSockets _)

/-! ### Moves -/

theorem clients_lookAtEnded (s : Simulation) : s.lookAtEnded.clients = s.clients := by
  have heach (l : List (String × Except ConnectionError Nat)) (s : Simulation) :
      (l.foldl lookAt s).clients = s.clients := by
    induction l generalizing s with
    | nil => rfl
    | cons e rest ih => exact (ih (s.lookAt e)).trans (s.lookAt_frame e).1
  exact heach s.ended.reverse { s with ended := [] }

theorem Orderly.passage (h : Orderly role stopped s) (m : Move) (hm : m.waits = false) :
    Passage s (m.run s) := by
  cases m with
  | command c => exact h.passage_carryOut c hm
  | sweep => exact .of_clients (rests_hearAll s).clients
  | turn => exact h.passage_turn
  | look => exact .of_clients s.clients_lookAtEnded
  | report => exact .of_clients rfl
  | pass span => exact .of_clients (rests_ring _).clients

end DatagramStreams.Simulation
