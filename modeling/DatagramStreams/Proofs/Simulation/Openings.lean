import DatagramStreams.Proofs.Simulation.Ownership

/-! What an opening does while it lasts, and what is left of one that fails. Whatever it does in its turns, no
other socket gains or loses an address by it, and as long as no connection comes of it there is nobody whose
handler could be called. When it fails, at whatever point, its own address is free at once.
Main statements: `Attempts.spares`, `Attempts.discreet` and `Attainable.withdraws`.
-/

set_option autoImplicit false

namespace DatagramStreams.Simulation

variable {role : SocketId → Role} {stopped : List Nat} {s s' : Simulation} {id : SocketId} {n : Nat}
  {o : OpeningTask} {a : Address}

/-- What a run can come to. At any moment the factories may begin to lose, delay and fail as they please. -/
inductive Attainable : Simulation → Prop
  | start : Attainable {}
  | move {s : Simulation} (h : Attainable s) (m : Move) (hm : m.waits = false) : Attainable (m.run s)
  | chance {s : Simulation} (h : Attainable s) (factories : Array Factory) :
      Attainable { s with net := { s.net with factories } }

theorem Attainable.orderly (h : Attainable s) : ∃ role stopped, Orderly role stopped s := by
  induction h with
  | start => exact ⟨_, _, orderly_start⟩
  | move _ m hm ih =>
    obtain ⟨role, stopped, ho⟩ := ih
    obtain ⟨role', ho'⟩ := ho.move m hm
    exact ⟨role', _, ho'⟩
  | chance _ factories ih =>
    obtain ⟨role, stopped, ho⟩ := ih
    exact ⟨role, stopped, ho.rests (rests_net _ ⟨rfl, fun _ => rfl⟩)⟩

theorem Reached.attainable (h : Reached stopped s) : Attainable s := by
  induction h with
  | start => exact .start
  | move _ m hm ih => exact ih.move m hm

/-- What the task in front does in its turn, before anybody hears of it. -/
def taken (s : Simulation) : Simulation :=
  match s.ready.pop? with
  | none => s
  | some (t, rest) => ({ s with ready := rest.pushFront t }.perform t).2

structure Discreet (s s' : Simulation) : Prop where
  clients : s'.clients = s.clients
  hosts : s'.hosts = s.hosts
  loops : s'.loops = s.loops
  events : s'.events = s.events

structure Apart (s : Simulation) (id : SocketId) : Prop where
  loop : ∀ (k : Nat) l, s.loops[k]? = some l → l.socket ≠ id
  client : ∀ (m : Nat) c, s.clients[m]? = some c → c.socket ≠ id

structure Vacated (s : Simulation) (id : SocketId) (a : Address) : Prop extends Apart s id where
  free : s.net.registry.owner? a = none
  offered : s.net.Offers a
  unbound : ∀ b, s.net.registry.owner? b ≠ some id
  unused : ¬ s.Refers id

/-! ### One turn of an opening -/

theorem Attempts.spares (ha : Attempts n o s s') (hid : o.stage.socket? ≠ some id) (hlt : id < s.net.sockets.size)
    (a : Address) : s'.net.registry.owner? a = some id ↔ s.net.registry.owner? a = some id := by
  cases ha with
  | idle => rfl
  | refused => rfl
  | @bound x net draws opening hstage hb =>
    rcases s.net.bind_cases o.factory o.target.wildcardFor with
      ⟨b, net', hb', -, hfree, hown, hothers, -⟩ | ⟨e, hb'⟩ <;> rw [hb, Prod.mk.injEq] at hb'
    · obtain ⟨-, rfl⟩ := hb'
      change net.registry.owner? a = some id ↔ _
      by_cases hab : a = b
      · subst hab
        simp [hown, hfree, Nat.ne_of_gt hlt]
      · rw [hothers a hab]
    · cases hb'.1
  | goesOn _ hsame =>
    rw [← hsame.registry]
    rfl
  | @ends x opening opening' net result hstage hsame =>
    -- What is given up is the socket of the opening itself.
    have hne : x ≠ id := by
      rintro rfl
      exact hid (congrArg OpeningStage.socket? hstage)
    rw [← hsame.registry]
    cases result with
    | ok agreed => rfl
    | error e =>
      change (net.drop x).registry.owner? a = some id ↔ _
      unfold Network.drop
      split
      · exact Registry.owner?_release_iff hne _
      · rfl

theorem Attempts.discreet (ha : Attempts n o s s') :
    Discreet s s' ∨ ∃ m, s'.ended = (o.name, .ok m) :: s.ended := by
  cases ha with
  | idle => exact .inl ⟨rfl, rfl, rfl, rfl⟩
  | refused => exact .inl ⟨rfl, rfl, rfl, rfl⟩
  | bound => exact .inl ⟨rfl, rfl, rfl, rfl⟩
  | goesOn => exact .inl ⟨rfl, rfl, rfl, rfl⟩
  | @ends x opening opening' net result _ _ =>
    cases result with
    | ok agreed => exact .inr ⟨_, rfl⟩
    | error e => exact .inl ⟨rfl, rfl, rfl, rfl⟩

theorem Attempts.told (ha : Attempts n o s s') (ho : s.openings[n]? = some o) {o' : OpeningTask}
    (ho' : s'.openings[n]? = some o') (hover : o'.stage = .over) :
    o.stage = .over ∨ ∃ r, s'.ended = (o.name, r) :: s.ended := by
  have hset {s₁ : Simulation} {stage : OpeningStage} (h₁ : s₁.openings = s.openings)
      (hget : (s₁.setStage n stage).openings[n]? = some o') : stage = .over := by
    simp only [setStage, Array.getElem?_modify, if_true, h₁, ho, Option.map_some, Option.some.injEq] at hget
    rw [← hover, ← hget]
  cases ha with
  | idle h => exact .inl h
  | refused => exact .inr ⟨_, rfl⟩
  | bound => cases hset rfl ho'
  | goesOn => cases hset rfl ho'
  | @ends x opening opening' net result _ _ => cases result <;> exact .inr ⟨_, rfl⟩

theorem Attempts.failed (ha : Attempts n o s s') {e : ConnectionError}
    (he : s'.ended = (o.name, .error e) :: s.ended) :
    o.stage.socket? = none ∧ s'.net = s.net ∨ ∃ id net opening, o.stage.socket? = some id ∧
      Network.Same s.net net ∧
      s' = ({ s with net }.setStage n (.bound id opening)).finishOpening n o id (.error e) := by
  have hself (x : String × Except ConnectionError Nat) : s.ended ≠ x :: s.ended := (List.cons_ne_self _ _).symm
  cases ha with
  | idle => exact absurd he (hself _)
  | refused hstage => exact .inl ⟨congrArg OpeningStage.socket? hstage, rfl⟩
  | bound => exact absurd he (hself _)
  | goesOn => exact absurd he (hself _)
  | @ends x opening opening' net result hstage hsame =>
    cases result with
    | ok agreed => cases (List.cons.inj he).1
    | error e' =>
      cases (List.cons.inj he).1
      exact .inr ⟨x, net, opening', congrArg OpeningStage.socket? hstage, hsame, rfl⟩

/-! ### Around the turn -/

theorem Orderly.apart (h : Orderly role stopped s) (hid : role id = .opening n) : s.Apart id where
  loop k l hl he := by
    have hrole := h.loops hl
    rw [he, hid] at hrole
    cases ha : l.audience <;> rw [ha] at hrole <;> cases hrole
  client m c hc he := by
    have hrole := (h.clients hc).1
    rw [he, hid] at hrole
    cases hrole

theorem badge_sweepSockets (s : Simulation) (id : SocketId) : s.sweepSockets.net.badge id = s.net.badge id :=
  sweepSockets_keeps (P := fun net => net.badge id = s.net.badge id)
    (fun net x hnet => (Network.badge_drop net x id).trans hnet) rfl

structure GivesUp (role : SocketId → Role) (n : Nat) (s : Simulation) (id : SocketId) (a : Address) : Prop where
  role : role id = .opening n
  ended : ∀ o, s.openings[n]? = some o → o.stage.socket? = none
  badge : s.net.badge id = some (a, false)
  free : s.net.registry.owner? a = none

theorem GivesUp.rests (h : GivesUp role n s id a) (hr : Rests s s') : GivesUp role n s' id a where
  role := h.role
  ended o ho := h.ended o (hr.openings ▸ ho)
  badge := (hr.net.badge id).trans h.badge
  free := hr.net.registry ▸ h.free

theorem GivesUp.sweepSockets (h : GivesUp role n s id a) : GivesUp role n s.sweepSockets id a where
  role := h.role
  ended := h.ended
  badge := (badge_sweepSockets s id).trans h.badge
  free := by
    refine Option.eq_none_iff_forall_ne_some.mpr fun x hx => ?_
    have hbefore := (quiet_sweepSockets s).frees a x hx
    rw [h.free] at hbefore
    cases hbefore

theorem Orderly.vacated (h : Orderly role stopped s) (hg : GivesUp role n s id a) : s.Vacated id a where
  toApart := h.apart hg.role
  free := hg.free
  offered := h.tenured.offers hg.badge hg.free
  unbound b hb := by
    have hopen := h.tenured.sound hb
    rw [hg.badge] at hopen
    obtain ⟨rfl, -⟩ := Prod.mk.inj (Option.some.inj hopen)
    rw [hg.free] at hb
    cases hb
  unused hrefers := by
    rcases h.refers_cases hrefers with hr | ⟨m, hr⟩ | ⟨m, hr⟩ | ⟨m, o, hr, ho, hsocket⟩ <;>
      rw [hg.role] at hr <;> cases hr
    rw [hg.ended o ho] at hsocket
    cases hsocket

theorem Orderly.givesUp (h : Orderly role stopped s) (ho : s.openings[n]? = some o)
    (hid : o.stage.socket? = some id) (howner : s.net.registry.owner? a = some id) (ha : Attempts n o s s')
    {e : ConnectionError} (he : s'.ended = (o.name, .error e) :: s.ended) :
    Orderly role stopped s' ∧ GivesUp role n s' id a := by
  rcases ha.failed he with ⟨hnone, -⟩ | ⟨x, net, opening, hx, hsame, rfl⟩
  · rw [hnone] at hid
    cases hid
  · obtain rfl := Option.some.inj (hx.symm.trans hid)
    obtain ⟨hrole, -⟩ := h.openings ho x hx
    have hbadge := (hsame.badge x).trans (h.tenured.sound howner)
    have hset := (h.rests (rests_net s hsame)).keepStage ho hx opening
    refine ⟨hset.failOpening hrole o e, hrole, fun o' ho' => ?_, (Network.badge_drop net x x).trans hbadge, ?_⟩
    · simp only [Simulation.finishOpening, Simulation.endOpening, Simulation.setStage, Array.getElem?_modify,
        if_true] at ho'
      obtain ⟨o₁, -, rfl⟩ := Option.map_eq_some_iff.mp ho'
      rfl
    · change (net.drop x).registry.owner? a = none
      rw [Network.registry_drop hbadge, hsame.registry]
      exact Registry.owner?_release_self howner

theorem taken_turn {t : Task} {rest : Queue Task} (hfront : s.ready.pop? = some (t, rest)) :
    s.taken = ({ s with ready := rest.pushFront t }.perform t).2 ∧
      ∃ s₁, Rests s.taken s₁ ∧ (s.turn = s₁ ∨ s.turn = s₁.sweepSockets) := by
  have htaken : s.taken = ({ s with ready := rest.pushFront t }.perform t).2 := by simp only [taken, hfront]
  refine ⟨htaken, ?_⟩
  rw [htaken]
  simp only [turn, hfront]
  split
  · exact ⟨_, rests_hearAll _, .inl rfl⟩
  · exact ⟨_, (rests_ready _ _).trans (rests_hearAll _), .inr rfl⟩

structure Withdraws (s : Simulation) (n : Nat) (o : OpeningTask) : Prop where
  /-- While it lasts nobody reads its socket, and there is no connection whose handler could be called. -/
  apart : ∀ id, o.stage.socket? = some id → s.Apart id ∧
    ∃ a, s.net.badge id = some (a, false) ∧ s.net.registry.owner? a = some id
  spares : ∀ id, o.stage.socket? ≠ some id → id < s.net.sockets.size → ∀ a,
    s.taken.net.registry.owner? a = some id ↔ s.net.registry.owner? a = some id
  /-- Loops and handlers come in with a connection, and not before. -/
  discreet : Discreet s s.taken ∨ ∃ m, s.taken.ended = (o.name, .ok m) :: s.ended
  told : ∀ o', s.taken.openings[n]? = some o' → o'.stage = .over →
    o.stage = .over ∨ ∃ r, s.taken.ended = (o.name, r) :: s.ended
  unbound : ∀ e, s.taken.ended = (o.name, .error e) :: s.ended → o.stage.socket? = none → s.taken.net = s.net
  vacated : ∀ e, s.taken.ended = (o.name, .error e) :: s.ended → ∀ id a, o.stage.socket? = some id →
    s.net.registry.owner? a = some id → s.turn.Vacated id a

/-- In every run, at whatever point an opening fails, the address it had bound is free from then on, no other
socket has gained or lost one by any of its turns, and neither a loop nor a connection has had its socket. -/
theorem Attainable.withdraws (h : Attainable s) {rest : Queue Task}
    (hfront : s.ready.pop? = some (.opening n, rest)) (ho : s.openings[n]? = some o) : s.Withdraws n o := by
  obtain ⟨role, stopped, hs⟩ := h.orderly
  obtain ⟨htaken, s₁, hr, hturn⟩ := taken_turn hfront
  have hready := hs.rests (rests_ready s (rest.pushFront (.opening n)))
  have ha : Attempts n o { s with ready := rest.pushFront (.opening n) } s.taken :=
    htaken ▸ attempts_turnOpening ho
  refine ⟨fun id hid => ?_, fun id hid hlt a => ha.spares hid hlt a, ?_, fun o' ho' hover => ha.told ho ho' hover,
    fun e he hid => ?_, fun e he id a hid howner => ?_⟩
  · obtain ⟨hrole, a, hbadge⟩ := hs.openings ho id hid
    exact ⟨hs.apart hrole, a, hbadge, hs.seats ⟨.opening n, Option.bind_eq_some_iff.mpr ⟨o, ho, hid⟩⟩ a hbadge⟩
  · exact ha.discreet.imp_left fun hd => ⟨hd.clients, hd.hosts, hd.loops, hd.events⟩
  · rcases ha.failed he with ⟨-, hnet⟩ | ⟨x, net, opening, hx, -⟩
    · exact hnet
    · rw [hx] at hid
      cases hid
  · obtain ⟨htook, hg⟩ := hready.givesUp ho hid howner ha he
    rcases hturn with hturn | hturn <;> rw [hturn]
    · exact (htook.rests hr).vacated (hg.rests hr)
    · exact (htook.rests hr).sweepSockets.vacated (hg.rests hr).sweepSockets

/-- A server has answered, but its client is not allowed to send the last ACK. -/
theorem Attainable.withdraws_unconfirmed :
    let server : Address := { ip := Ip.v4Loopback, port := 7000 }
    let client : Address := { ip := Ip.v4Loopback, port := 49152 }
    let quiet : Application := ⟨.ofScript {}, false⟩
    let moves : List Move := [.command (.addFactory "far" {} false), .command (.addFactory "near" {} false),
      .command (.startServer "server" "far" server quiet none {}),
      .command (.openConnection "client" "near" server (Span.milliseconds 5000) quiet {}), .sweep] ++
      List.replicate 12 .turn ++ [.command (.setMode "near" { send := some (some .permissionDenied) })]
    let s := Move.runAll moves {}
    (∃ e, s.taken.ended = [("client", .error e)]) ∧ s.net.registry.owner? client = some 1 ∧
      s.turn.Vacated 1 client ∧ s.taken.net.registry.owner? server = some 0 := by
  intro server client quiet moves s
  have h : Attainable s := (Reached.start.moves moves (by decide +kernel)).attainable
  have hfront : s.ready.pop?.map Prod.fst = some (.opening 0) := by decide +kernel
  have hview : s.openings[0]?.map (fun o => (o.name, o.stage.socket?)) = some ("client", some 1) := by
    decide +kernel
  have hnone : s.ended.map Prod.fst = [] := by decide +kernel
  have hended : s.taken.ended.map (fun e => (e.1, e.2.toOption)) = [("client", none)] := by decide +kernel
  have hclient : s.net.registry.owner? client = some 1 := by decide +kernel
  have hserver : s.net.registry.owner? server = some 0 := by decide +kernel
  obtain ⟨⟨_, rest⟩, hfront, rfl⟩ := Option.map_eq_some_iff.mp hfront
  obtain ⟨o, ho, hview⟩ := Option.map_eq_some_iff.mp hview
  obtain ⟨hname, hsocket⟩ := Prod.mk.inj hview
  obtain ⟨⟨x, result⟩, l, hended, hx, hl⟩ := List.map_eq_cons_iff.mp hended
  rw [List.map_eq_nil_iff] at hnone hl
  cases result with
  | ok m => cases hx
  | error e =>
    cases hx
    subst hl
    have hw := h.withdraws hfront ho
    refine ⟨⟨e, hended⟩, hclient, hw.vacated e (by rw [hended, hnone, hname]) 1 client hsocket hclient, ?_⟩
    exact (hw.spares 0 (by simp [hsocket]) (by decide +kernel) server).mpr hserver

end DatagramStreams.Simulation
