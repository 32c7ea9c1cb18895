import DatagramStreams.Proofs.Simulation.Commands

/-! What background tasks do to the order on a running network. A loop hands packets to the one it reads for,
an opening works on a socket of its own until that goes over to a client, and sockets that nobody refers to are
swept away.
Main statements: `attempts_turnOpening`, `Orderly.turn`, `Orderly.sweepSockets` and `Orderly.lookAtEnded`.
-/

set_option autoImplicit false

namespace DatagramStreams

open Network (Same)

namespace Reader

variable {σ : Type}

/-- A loop does nothing, reads, or reads a packet and hands it on. -/
theorem step_cases (l : Reader) (sock : Socket σ) (receiver : Receiver σ) (s : σ) :
    (l.step sock receiver s).2 = s ∨ (l.step sock receiver s).2 = (sock.receive Socket.bufferLength s).2 ∨
      ∃ source p, (l.step sock receiver s).2 =
        (receiver.take source p (sock.receive Socket.bufferLength s).2).2 := by
  unfold step
  cases l.phase with
  | idle => exact .inl rfl
  | waiting => exact .inl rfl
  | ended => exact .inl rfl
  | draining =>
    refine .inr ?_
    simp only [drain]
    rcases sock.receive Socket.bufferLength s with ⟨e | ⟨source, b⟩, s'⟩
    · refine .inl ?_
      simp only
      split
      · rfl
      · split <;> rfl
    · simp only
      split
      · split
        · exact .inr ⟨source, _, rfl⟩
        · exact .inl rfl
      · exact .inl rfl

theorem hasEnded_step {l : Reader} (h : l.hasEnded = true) (sock : Socket σ) (receiver : Receiver σ) (s : σ) :
    (l.step sock receiver s).1.hasEnded = true := by
  have hphase : l.phase = .ended := of_decide_eq_true h
  simp only [step, hphase, h]

end Reader

namespace Opening

variable {σ : Type}

theorem step_state {P : σ → Prop} (o : Opening) (sock : Socket σ) (now : Instant) (s : σ) (hs : P s)
    (hsend : ∀ a p, P (sock.send a p s).2) (hreceive : P (sock.receive Socket.bufferLength s).2) :
    P (o.step sock now s).2 := by
  have hrequest : (o.sendRequest sock s).2 = (sock.send o.target (.request o.request) s).2 := by
    unfold sendRequest
    split <;> simp [*]
  have hconfirm (agreed : Agreement) : (o.sendConfirm sock agreed s).2 =
      (sock.send o.target (.ackOnly agreed.sequenceIn) s).2 := by
    unfold sendConfirm
    split <;> simp [*]
  have hlisten : (o.listen sock now s).2 = (sock.receive Socket.bufferLength s).2 := by
    unfold listen
    split
    · split <;> simp [*]
    · split
      · simp [*]
      · split <;> simp [*]
  -- Asking whether there is room, before or during a wait, touches nothing.
  have hask (room : Readiness) : P (o.ask sock room now s).2 := by
    unfold ask
    split
    · exact hrequest ▸ hsend _ _
    · exact hs
    · exact hs
  have hgiven (agreed : Agreement) (room : Readiness) : P (o.confirm sock agreed room s).2 := by
    unfold confirm
    split
    · exact hconfirm agreed ▸ hsend _ _
    · exact hs
    · exact hs
  unfold step
  cases o.phase with
  | requesting => exact hs
  | checked => exact hask _
  | awaitingRoom => exact hask _
  | asked => exact hs
  | listening => exact hlisten ▸ hreceive
  | confirming agreed => exact hgiven agreed _
  | awaitingReply => exact hs
  | awaitingConfirm agreed => exact hgiven agreed _
  | finished result => exact hs

end Opening

namespace Simulation

variable {role : SocketId → Role} {stopped : List Nat} {s s' : Simulation} {id : SocketId} {n : Nat}
  {net : Network}

/-! ### Receive loops -/

theorem Orderly.acts_clientTake (h : Orderly role stopped s) (n : Nat) (source : Address) (p : Packet) :
    Acts s (clientTake n source p s).2 := by
  unfold Simulation.clientTake
  split
  · rename_i c hc
    obtain ⟨-, hown, -⟩ := h.clients hc
    let turn : Connection.Turn := .arrival source p
    have hb := turn.run_bound c.connection (Network.socket c.socket) s.now s.net
    exact .client hc (hb.owned.trans hown) (turn.run_occupies c.socket s.now c.connection s.net hown)
  · exact .rests (.refl s)

theorem Orderly.acts_hostTake (h : Orderly role stopped s) (n : Nat) (source : Address) (p : Packet) :
    Acts s (hostTake n source p s).2 := by
  unfold Simulation.hostTake
  split
  · rename_i host hh
    obtain ⟨-, hserver, -⟩ := h.hosts hh
    have hsound : (host.server.receive (Network.socket host.socket) source p s.now s.draws s.net).1.Sound :=
      hserver.receive source p s.now s.draws s.net
    have hsame := hserver.receive_keeps (Network.socket host.socket) (I := Same s.net)
      (fun q net hnet => hnet.trans (Network.send_same net host.socket source q.encode true)) p s.now s.draws
      (.refl _)
    exact .host hh hsound hsame
  · exact .rests (.refl s)

theorem Orderly.acts_take (h : Orderly role stopped s) (l : LoopTask) (source : Address) (p : Packet) :
    Acts s ((receiver l).take source p s).2 := by
  unfold receiver
  cases l.audience with
  | listener name refused => exact .rests (rests_emit s true name source [.packet p])
  | client n => exact h.acts_clientTake n source p
  | host n => exact h.acts_hostTake n source p

theorem rests_receive (s : Simulation) (id : SocketId) (limit : Nat) :
    Rests s ((netSocket id).receive limit s).2 :=
  rests_net s (Network.receive_same s.net id limit)

theorem Orderly.acts_stepLoop (h : Orderly role stopped s) (l : LoopTask) :
    ∃ s₁, Rests s s₁ ∧ Acts s₁ (l.loop.step (netSocket l.socket) (receiver l) s).2 := by
  have hr := rests_receive s l.socket Socket.bufferLength
  rcases l.loop.step_cases (netSocket l.socket) (receiver l) s with heq | heq | ⟨source, p, heq⟩ <;> rw [heq]
  · exact ⟨s, .refl s, .rests (.refl s)⟩
  · exact ⟨_, hr, .rests (.refl _)⟩
  · exact ⟨_, hr, (h.rests hr).acts_take l source p⟩

theorem Orderly.turnLoop (h : Orderly role stopped s) (n : Nat) : Orderly role stopped (s.turnLoop n).2 := by
  unfold Simulation.turnLoop
  split
  · exact h
  · rename_i l hl
    obtain ⟨s₁, hr, hacts⟩ := h.acts_stepLoop l
    have hmodified := (hacts.orderly (h.rests hr)).modifyLoop (n := n) (f := fun l' =>
        { l' with loop := { (l.loop.step (netSocket l.socket) (receiver l) s).1 with stopped := l'.loop.stopped } })
      fun l' hl' => ⟨rfl, rfl, fun hended => ?_⟩
    · simp only
      split
      · exact hmodified.rests (rests_sleep _ _ _)
      · exact hmodified
      · exact hmodified
    · have hpost := (hacts.loops n).trans (hr.loops n)
      rw [hl, hl'] at hpost
      have hbefore : l'.loop.hasEnded = l.loop.hasEnded :=
        congrArg (fun x => x.2.2) (Option.some.inj hpost)
      -- What the loop is told meanwhile does not begin it again if it has ended before its step.
      exact Reader.hasEnded_step (hbefore.symm.trans hended) _ _ s

/-! ### Openings -/

theorem step_opening (o : Opening) (id : SocketId) (now : Instant) (s : Simulation) :
    ∃ net, Same s.net net ∧ (o.step (netSocket id) now s).2 = { s with net } :=
  o.step_state (P := fun s' => ∃ net, Same s.net net ∧ s' = { s with net }) (netSocket id) now s
    ⟨_, .refl _, rfl⟩ (fun a p => ⟨_, Network.send_same s.net id a p.encode true, rfl⟩)
    ⟨_, Network.receive_same s.net id Socket.bufferLength, rfl⟩

/-- All that an opening can do in a turn. -/
inductive Attempts (n : Nat) (o : OpeningTask) (s : Simulation) : Simulation → Prop
  | idle (h : o.stage = .over) : Attempts n o s s
  | refused {e : IoError} (h : o.stage = .unbound)
      (hb : s.net.bind o.factory o.target.wildcardFor = (.error e, s.net)) :
      Attempts n o s (s.endOpening n o.name (.error (.io e)))
  | bound {id : SocketId} {net : Network} {draws : Draws} {opening : Opening} (h : o.stage = .unbound)
      (hb : s.net.bind o.factory o.target.wildcardFor = (.ok id, net)) :
      Attempts n o s ({ s with net, draws }.setStage n (.bound id opening))
  | goesOn {id : SocketId} {opening opening' : Opening} {net : Network} {sleepers : List (SocketId × Task)}
      {alarms : List Alarm} (h : o.stage = .bound id opening) (hsame : Same s.net net) :
      Attempts n o s { { s with net }.setStage n (.bound id opening') with sleepers, alarms }
  | ends {id : SocketId} {opening opening' : Opening} {net : Network} {result : Except ConnectionError Agreement}
      (h : o.stage = .bound id opening) (hsame : Same s.net net) :
      Attempts n o s (({ s with net }.setStage n (.bound id opening')).finishOpening n o id result)

theorem attempts_turnOpening {o : OpeningTask} (ho : s.openings[n]? = some o) :
    Attempts n o s (s.turnOpening n).2 := by
  simp only [Simulation.turnOpening, ho]
  split
  · rename_i hstage
    unfold bindOpening
    rcases s.net.bind_cases o.factory o.target.wildcardFor with ⟨b, net, hb, -⟩ | ⟨e, hb⟩ <;> simp only [hb]
    · exact .bound hstage hb
    · exact .refused hstage hb
  · rename_i id opening hstage
    obtain ⟨net, hsame, hnet⟩ := step_opening opening id s.now s
    unfold stepOpening
    rcases hstep : opening.step (netSocket id) s.now s with ⟨⟨opening', wish⟩, s₁⟩
    obtain rfl : s₁ = { s with net } := by rw [← hnet, hstep]
    cases wish with
    | again => exact .goesOn hstage hsame
    | sleep mail limit =>
      cases mail <;> cases limit <;> exact .goesOn hstage hsame
    | ended =>
      simp only
      split
      · exact .ends hstage hsame
      · exact .goesOn hstage hsame
  · exact .idle ‹_›

theorem Orderly.setOver (h : Orderly role stopped s) (n : Nat) : Orderly role stopped (s.setStage n .over) :=
  h.setStage (by simp [OpeningStage.socket?])

theorem Orderly.endOpening (h : Orderly role stopped s) (n : Nat) (name : String) (e : ConnectionError) :
    Orderly role stopped (s.endOpening n name (.error e)) :=
  (h.setOver n).pushFailure name e

theorem Orderly.unused (h : Orderly role stopped s) (hid : role id = .opening n) :
    ¬ (s.setStage n .over).Refers id := by
  intro hrefers
  rcases (h.setOver n).refers_cases hrefers with hr | ⟨m, hr⟩ | ⟨m, hr⟩ | ⟨m, o, hr, ho, ho'⟩
  · simp [hid] at hr
  · simp [hid] at hr
  · simp [hid] at hr
  · rw [hid, Role.opening.injEq] at hr
    subst hr
    simp only [Simulation.setStage, Array.getElem?_modify, if_true, Option.map_eq_some_iff] at ho
    obtain ⟨o₀, -, rfl⟩ := ho
    cases ho'

theorem Orderly.failOpening (h : Orderly role stopped s) (hid : role id = .opening n) (o : OpeningTask)
    (e : ConnectionError) : Orderly role stopped (s.finishOpening n o id (.error e)) :=
  ((h.setOver n).drop (h.unused hid)).pushFailure o.name e

theorem Orderly.finishOpening (h : Orderly role stopped s) {o o' : OpeningTask} (ho : s.openings[n]? = some o)
    (hid : o.stage.socket? = some id) (result : Except ConnectionError Agreement) :
    ∃ role', Orderly role' stopped (s.finishOpening n o' id result) := by
  obtain ⟨hrole, -⟩ := h.openings ho id hid
  cases result with
  | ok agreed =>
    have hseats : s.Seats id := h.seats ⟨.opening n, Option.bind_eq_some_iff.mpr ⟨o, ho, hid⟩⟩
    have hadmitted := h.admit ho hid (c := {
        name := o'.name
        connection := .establish o'.target agreed.sequenceIn agreed.sequenceOut o'.config
          o'.application.handler true
        socket := id, loop := s.loops.size, watched := o'.application.watched }) rfl rfl rfl o'.name
    -- The loop is started before the client is stored, which comes to the same state.
    exact ⟨_, hadmitted.startLoop (.client s.clients.size) (assign_self role id _) hseats⟩
  | error e => exact ⟨role, h.failOpening hrole o' e⟩

theorem Orderly.keepStage (h : Orderly role stopped s) {o : OpeningTask} (ho : s.openings[n]? = some o)
    (hid : o.stage.socket? = some id) (opening : Opening) :
    Orderly role stopped (s.setStage n (.bound id opening)) := by
  obtain ⟨hrole, hopen⟩ := h.openings ho id hid
  refine h.setStage fun i hi => ?_
  cases hi
  exact ⟨hrole, h.seats ⟨.opening n, Option.bind_eq_some_iff.mpr ⟨o, ho, hid⟩⟩, hopen⟩

theorem Orderly.attempts (h : Orderly role stopped s) {o : OpeningTask} (ho : s.openings[n]? = some o)
    (ha : Attempts n o s s') : ∃ role', Orderly role' stopped s' := by
  cases ha with
  | idle => exact ⟨role, h⟩
  | refused => exact ⟨role, h.endOpening n o.name _⟩
  | bound hstage hb =>
    rcases h.bind o.factory o.target.wildcardFor with ⟨id, net, hb', hbound, hf⟩ | ⟨e, hb'⟩ <;>
      rw [hb, Prod.mk.injEq] at hb'
    · obtain ⟨hid, rfl⟩ := hb'
      cases hid
      have hassigned := hbound.assign hf (r := .opening n) (by simp)
      refine ⟨_, (hassigned.rests (.other (.refl _))).setStage fun i hi => ?_⟩
      cases hi
      exact ⟨assign_self role _ _, hf.seats, hf.opened⟩
    · cases hb'.1
  | @goesOn id opening opening' net sleepers alarms hstage hsame =>
    have hset := (h.rests (rests_net s hsame)).keepStage ho (congrArg OpeningStage.socket? hstage) opening'
    exact ⟨role, hset.rests (.other (.refl _))⟩
  | @ends id opening opening' net result hstage hsame =>
    have hset := (h.rests (rests_net s hsame)).keepStage ho (congrArg OpeningStage.socket? hstage) opening'
    refine hset.finishOpening (o := { o with stage := .bound id opening' }) ?_ rfl _
    simp [Simulation.setStage, Array.getElem?_modify, ho]

theorem Orderly.turnOpening (h : Orderly role stopped s) (n : Nat) :
    ∃ role', Orderly role' stopped (s.turnOpening n).2 := by
  cases ho : s.openings[n]? with
  | none => simpa only [Simulation.turnOpening, ho] using ⟨role, h⟩
  | some o => exact h.attempts ho (attempts_turnOpening ho)

/-! ### Turns -/

theorem Orderly.perform (h : Orderly role stopped s) (t : Task) :
    ∃ role', Orderly role' stopped (s.perform t).2 := by
  cases t with
  | loop n => exact ⟨role, h.turnLoop n⟩
  | opening n => exact h.turnOpening n
  | hold held => exact ⟨role, h.rests (rests_holdBack s held)⟩
  | release held => exact ⟨role, h.rests (rests_deliverHeld s held)⟩

/-- All that sweeping does to the network is to drop sockets. -/
theorem sweepSockets_keeps {P : Network → Prop} (hdrop : ∀ net id, P net → P (net.drop id)) (h : P s.net) :
    P s.sweepSockets.net :=
  List.foldlRecOn _ Network.drop h fun net hnet id _ => hdrop net id hnet

theorem Orderly.sweepSockets (h : Orderly role stopped s) : Orderly role stopped s.sweepSockets := by
  refine List.foldlRecOn (motive := fun net => Orderly role stopped { s with net }) _ Network.drop h
    fun net hnet id hid => hnet.drop fun hrefers => ?_
  have hidle := (List.mem_filter.mp hid).2
  simp only [List.contains_eq_mem, Bool.not_eq_true', decide_eq_false_iff_not] at hidle
  exact hidle (mem_heldSockets.mpr ((stays_net s net).refers hrefers))

theorem rests_ready (s : Simulation) (ready : Queue Task) : Rests s { s with ready } :=
  .other (.refl _)

theorem Orderly.turn (h : Orderly role stopped s) : ∃ role', Orderly role' stopped s.turn := by
  unfold Simulation.turn
  split
  · exact ⟨role, h⟩
  · rename_i t rest _
    obtain ⟨role', hdone⟩ := (h.rests (rests_ready s (rest.pushFront t))).perform t
    refine ⟨role', ?_⟩
    simp only
    split
    · exact hdone.rests (rests_hearAll _)
    · exact (hdone.rests ((rests_ready _ _).trans (rests_hearAll _))).sweepSockets

/-! ### Connections that get their names -/

/-- The connection that has come of an opening keeps its address until it has a name. -/
def SeatsOpened (s : Simulation) (e : String × Except ConnectionError Nat) : Prop :=
  ∀ n, e.2 = .ok n → ∀ id, s.clientSocket? n = some id → s.Seats id

theorem SeatsOpened.mono {e : String × Except ConnectionError Nat} (h : s.SeatsOpened e)
    (hclients : s'.clients = s.clients) (hsame : Same s.net s'.net) : s'.SeatsOpened e := by
  intro n hn id hid a hb
  rw [hsame.registry]
  refine h n hn id ?_ a ((hsame.badge id).symm.trans hb)
  rwa [clientSocket?, hclients] at hid

theorem nameHandle_frame (s : Simulation) (name : String) (handle : Handle) :
    (s.nameHandle name handle).clients = s.clients ∧ Same s.net (s.nameHandle name handle).net := by
  unfold nameHandle
  simp only
  split
  · rename_i old _
    have hr := rests_letGo { s with connectionNames := s.connectionNames.put name handle } old
    exact ⟨hr.clients, hr.net⟩
  · exact ⟨rfl, .refl _⟩

theorem lookAt_frame (s : Simulation) (e : String × Except ConnectionError Nat) :
    (s.lookAt e).clients = s.clients ∧ Same s.net (s.lookAt e).net := by
  unfold lookAt
  split
  · exact ⟨rfl, .refl _⟩
  · split
    · exact nameHandle_frame _ _ _
    · exact ⟨rfl, .refl _⟩

theorem Orderly.lookAt (h : Orderly role stopped s) {e : String × Except ConnectionError Nat}
    (he : s.SeatsOpened e) : Orderly role stopped (s.lookAt e) := by
  unfold Simulation.lookAt
  split
  · exact h.rests (.other (.refl _))
  · rename_i n hn
    split
    · rename_i c _
      have hopened : Orderly role stopped
          { s with opened := (e.1, .ok (s.report c.connection c.socket)) :: s.opened } :=
        h.rests (.other (.refl _))
      exact hopened.nameHandle (.client n) (he n hn) e.1
    · exact h

theorem Orderly.lookAtEach (h : Orderly role stopped s) {l : List (String × Except ConnectionError Nat)}
    (hl : ∀ e ∈ l, s.SeatsOpened e) : Orderly role stopped (l.foldl Simulation.lookAt s) := by
  induction l generalizing s with
  | nil => exact h
  | cons e rest ih =>
    obtain ⟨hclients, hsame⟩ := s.lookAt_frame e
    exact ih (h.lookAt (hl e List.mem_cons_self)) fun x hx =>
      (hl x (List.mem_cons_of_mem e hx)).mono hclients hsame

theorem Orderly.lookAtEnded (h : Orderly role stopped s) : Orderly role stopped s.lookAtEnded := by
  refine h.clearEnded.lookAtEach fun e he n hn id hid => ?_
  obtain ⟨k, hk⟩ := List.mem_iff_getElem?.mp (List.mem_reverse.mp he)
  refine h.seats ⟨.ended k, Option.bind_eq_some_iff.mpr ⟨e, hk, ?_⟩⟩
  rw [hn]
  exact hid

end Simulation

end DatagramStreams
