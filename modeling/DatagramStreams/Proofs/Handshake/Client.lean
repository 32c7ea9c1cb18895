import DatagramStreams.Handshake.Opening
import DatagramStreams.Proofs.Transport.Emission

/-! The client's side of a handshake over a socket that plays any script.
Main statements: `step_leads`, all that a step can do, and `step_progress`, what it comes to.
-/

set_option autoImplicit false

namespace DatagramStreams

theorem Recorder.receive_cases (limit : Nat) (r : Recorder) : ∃ result r',
    r.receive limit = (result, r') ∧ r'.attempts = r.attempts ∧ r'.arrivals <:+ r.arrivals ∧
      ∀ source b, result = .ok (source, b) →
        ∃ octets, r.arrivals = .datagram source octets :: r'.arrivals ∧ b = octets.take limit := by
  unfold Recorder.receive
  split
  · exact ⟨_, _, rfl, rfl, List.suffix_refl _, nofun⟩
  · split
    · exact ⟨_, _, rfl, rfl, List.suffix_refl _, nofun⟩
    · rename_i source octets arrivals harrivals
      refine ⟨_, _, rfl, rfl, harrivals ▸ List.suffix_cons _ _, fun source' b hb => ?_⟩
      cases hb
      exact ⟨octets, harrivals, rfl⟩
    · rename_i harrivals
      exact ⟨_, _, rfl, rfl, harrivals ▸ List.suffix_cons _ _, nofun⟩

theorem Recorder.send_noted (target : Address) (p : Packet) (r : Recorder) : ∃ failure r',
    r.send target p = (failure.elim (.ok ()) fun k => .error (.injected k), r') ∧
      r'.attempts.toList = r.attempts.toList ++ [⟨target, p, failure⟩] ∧ r'.arrivals = r.arrivals := by
  refine ⟨r.outcome.1, (r.send target p).2, ?_, by simp [send], rfl⟩
  cases ho : r.outcome.1 <;> simp [send, ho]

namespace Opening

def Phase.agreed? : Phase → Option Agreement
  | .confirming agreed | .awaitingConfirm agreed | .finished (.ok agreed) => some agreed
  | _ => none

/-- What a phase is about, also when it waits for room or for mail. -/
def Phase.aim : Phase → Phase
  | .awaitingRoom => .checked
  | .awaitingReply => .listening
  | .awaitingConfirm agreed => .confirming agreed
  | phase => phase

@[simp] theorem Phase.agreed?_aim (phase : Phase) : phase.aim.agreed? = phase.agreed? := by
  cases phase <;> rfl

theorem Phase.eq_of_aim_eq_finished {phase : Phase} {result : Except ConnectionError Agreement}
    (h : phase.aim = .finished result) : phase = .finished result := by
  cases phase <;> first | exact h | cases h

def Phase.listens : Phase → Bool
  | .asked | .listening | .awaitingReply => true
  | _ => false

def renewed (o : Opening) : Opening :=
  { o with phase := .requesting, request := Seq.next o.expectedAck }

/-- Where a send leads that met this failure: one that would block counts as sent. -/
def afterSend (o done : Opening) : Option IoKind → Opening
  | none => done
  | some k => if k = .wouldBlock then done else o.enter (.finished (.error (.io (.injected k))))

/-- From `o` to the next opening in one step, with what is handed to the socket and the mail that is left. -/
inductive Moved (o : Opening) (now : Instant) (mail : List Recorder.Arrival) :
    Opening → List Recorder.Attempt → List Recorder.Arrival → Prop
  | checked (hphase : o.phase = .requesting) (ht : now < o.deadline) : Moved o now mail (o.enter .checked) [] mail
  | expired (ht : o.deadline ≤ now) : Moved o now mail (o.enter (.finished (.error (.timeout o.timeout)))) [] mail
  | asked (haim : o.phase.aim = .checked) (failure : Option IoKind) :
      Moved o now mail (o.afterSend (o.enter .asked) failure) [⟨o.target, .request o.request, failure⟩] mail
  | scheduled (hphase : o.phase = .asked) : Moved o now mail (o.listeningFrom now) [] mail
  | renewed (hphase : o.phase = .listening) (ht : o.retryAt ≤ now) {rest : List Recorder.Arrival}
      (hrest : rest <:+ mail) : Moved o now mail o.renewed [] rest
  | heard (hphase : o.phase = .listening) {octets : Octets} {t : Seq} {rest : List Recorder.Arrival}
      (hmail : mail = .datagram o.target octets :: rest)
      (hreply : o.replyIn? o.target (octets.take Socket.bufferLength) = some t) :
      Moved o now mail
        (o.enter (.confirming { sequenceIn := Seq.next t, sequenceOut := o.expectedAck })) [] rest
  | listened (hphase : o.phase = .listening) {phase : Phase} (haim : phase.aim = .listening)
      {rest : List Recorder.Arrival} (hrest : rest <:+ mail) : Moved o now mail (o.enter phase) [] rest
  | confirmed {agreed : Agreement} (haim : o.phase.aim = .confirming agreed) (failure : Option IoKind) :
      Moved o now mail (o.afterSend (o.enter (.finished (.ok agreed))) failure)
        [⟨o.target, .ackOnly agreed.sequenceIn, failure⟩] mail
  | waited {phase : Phase} (haim : phase.aim = o.phase.aim) : Moved o now mail (o.enter phase) [] mail
  | failed (e : IoError) {rest : List Recorder.Arrival} (hrest : rest <:+ mail) :
      Moved o now mail (o.enter (.finished (.error (.io e)))) [] rest

variable {o : Opening} {now : Instant} {r : Recorder}

theorem Moved.lingered {mail rest : List Recorder.Arrival} (hp : o.phase = .listening) (hrest : rest <:+ mail) :
    Moved o now mail o [] rest :=
  have haim : o.phase.aim = .listening := by rw [hp]; rfl
  .listened hp haim hrest

theorem Moved.stayed (o : Opening) (now : Instant) (mail : List Recorder.Arrival) :
    Moved o now mail o [] mail :=
  .waited rfl

theorem step_of_finished {σ : Type} {result : Except ConnectionError Agreement}
    (h : o.phase = .finished result) (sock : Socket σ) (now : Instant) (s : σ) :
    o.step sock now s = ((o, .ended), s) := by
  simp only [step, h]

theorem replyIn?_eq_some {source : Address} {b : Octets} {t : Seq} : o.replyIn? source b = some t ↔
    source = o.target ∧ ∃ p, Packet.decode? b = some p ∧ p.connectRequest = true ∧
      p.ack = some o.expectedAck ∧ p.sequence = t := by
  unfold replyIn?
  cases Packet.decode? b <;> simp [and_assoc]

def Leads (o : Opening) (now : Instant) (r : Recorder) (x : (Opening × Wish) × Recorder) : Prop :=
  ∃ new, x.2.attempts.toList = r.attempts.toList ++ new ∧ Moved o now r.arrivals x.1.1 new x.2.arrivals

theorem Moved.leads {o' : Opening} {wish : Wish} {r' : Recorder} (h : Moved o now r.arrivals o' [] r'.arrivals)
    (hr : r'.attempts = r.attempts) : Leads o now r ((o', wish), r') :=
  ⟨[], by simp [hr], h⟩

theorem sent_leads {target : Address} {p : Packet} {done : Opening} {x : (Opening × Wish) × Recorder}
    (h : ∀ failure, Moved o now r.arrivals (o.afterSend done failure) [⟨target, p, failure⟩] r.arrivals)
    (hok : ∀ s, r.send target p = (.ok (), s) → x.1.1 = done ∧ x.2 = s)
    (herror : ∀ e s, r.send target p = (.error e, s) →
      x.1.1 = (if e.kind = .wouldBlock then done else o.enter (.finished (.error (.io e)))) ∧ x.2 = s) :
    Leads o now r x := by
  obtain ⟨failure, r', hsend, hnew, hmail⟩ := r.send_noted target p
  have hx : x.1.1 = o.afterSend done failure ∧ x.2 = r' := by
    cases failure with
    | none => exact hok r' hsend
    | some k => exact herror (.injected k) r' hsend
  obtain ⟨hdone, rfl⟩ := hx
  refine ⟨_, hnew, ?_⟩
  rw [hdone, hmail]
  exact h failure

theorem sendRequest_leads (haim : o.phase.aim = .checked) :
    Leads o now r (o.sendRequest Recorder.socket r) := by
  refine sent_leads (fun failure => .asked haim failure) (fun s hs => ?_) fun e s hs => ?_ <;>
    simp only [sendRequest, Recorder.socket, hs]
  · exact ⟨trivial, trivial⟩
  · split <;> exact ⟨rfl, trivial⟩

theorem sendConfirm_leads {agreed : Agreement} (haim : o.phase.aim = .confirming agreed) :
    Leads o now r (o.sendConfirm Recorder.socket agreed r) := by
  refine sent_leads (fun failure => .confirmed haim failure) (fun s hs => ?_) fun e s hs => ?_ <;>
    simp only [sendConfirm, Recorder.socket, hs]
  · exact ⟨trivial, trivial⟩
  · split <;> exact ⟨rfl, trivial⟩

theorem attempt_leads (hp : o.phase = .requesting) : Leads o now r (o.attempt now, r) := by
  unfold attempt
  split
  · exact (Moved.expired ‹_›).leads rfl
  · exact (Moved.checked hp (Nat.lt_of_not_le ‹_›)).leads rfl

theorem ask_leads (haim : o.phase.aim = .checked) (room : Readiness) :
    Leads o now r (o.ask Recorder.socket room now r) := by
  have hwaits : Phase.awaitingRoom.aim = o.phase.aim := haim.symm
  unfold ask
  split
  · exact sendRequest_leads haim
  · exact (Moved.failed _ (List.suffix_refl _)).leads rfl
  · split
    · exact (Moved.expired ‹_›).leads rfl
    · exact (Moved.waited hwaits).leads rfl

theorem nothingLeft_leads (hp : o.phase = .listening) {r' : Recorder} (hr : r'.attempts = r.attempts)
    (hrest : r'.arrivals <:+ r.arrivals) : Leads o now r (o.nothingLeft Recorder.socket now r', r') := by
  unfold nothingLeft
  split
  · exact (Moved.renewed hp ‹_› hrest).leads hr
  · split
    · exact (Moved.lingered hp hrest).leads hr
    · exact (Moved.listened hp rfl hrest).leads hr
    · exact (Moved.failed _ hrest).leads hr

theorem listen_leads (hp : o.phase = .listening) : Leads o now r (o.listen Recorder.socket now r) := by
  obtain ⟨result, r', hreceive, hr, hrest, hmail⟩ := r.receive_cases Socket.bufferLength
  have hstays : Moved o now r.arrivals o [] r'.arrivals := .lingered hp hrest
  simp only [listen, Recorder.socket, hreceive]
  cases result with
  | ok got =>
    obtain ⟨source, b⟩ := got
    obtain ⟨octets, hfirst, rfl⟩ := hmail source b rfl
    simp only
    cases hreply : o.replyIn? source (octets.take Socket.bufferLength) with
    | none => exact hstays.leads hr
    | some t =>
      obtain rfl := (replyIn?_eq_some.mp hreply).1
      exact (Moved.heard hp hfirst hreply).leads hr
  | error e =>
    simp only
    split
    · exact nothingLeft_leads hp hr hrest
    · split
      · exact hstays.leads hr
      · exact (Moved.failed e hrest).leads hr

theorem resume_leads (hp : o.phase = .awaitingReply) : Leads o now r (o.resume Recorder.socket now r, r) := by
  have hback : Moved o now r.arrivals (o.enter .listening) [] r.arrivals := .waited (by rw [hp]; rfl)
  unfold resume
  split
  · exact hback.leads rfl
  · exact (Moved.failed _ (List.suffix_refl _)).leads rfl
  · split
    · exact hback.leads rfl
    · exact (Moved.stayed o now _).leads rfl

theorem confirm_leads {agreed : Agreement} (haim : o.phase.aim = .confirming agreed) (room : Readiness) :
    Leads o now r (o.confirm Recorder.socket agreed room r) := by
  have hwaits : (Phase.awaitingConfirm agreed).aim = o.phase.aim := haim.symm
  unfold confirm
  split
  · exact sendConfirm_leads haim
  · exact (Moved.waited hwaits).leads rfl
  · exact (Moved.failed _ (List.suffix_refl _)).leads rfl

theorem step_leads (o : Opening) (now : Instant) (r : Recorder) :
    Leads o now r (o.step Recorder.socket now r) := by
  have hstays : Moved o now r.arrivals o [] r.arrivals := .stayed o now _
  unfold step
  split <;> rename_i hp
  · exact attempt_leads hp
  · exact ask_leads (by rw [hp]; rfl) _
  · exact ask_leads (by rw [hp]; rfl) _
  · exact (Moved.scheduled hp).leads rfl
  · exact listen_leads hp
  · exact resume_leads hp
  · exact confirm_leads (by rw [hp]; rfl) _
  · exact confirm_leads (by rw [hp]; rfl) _
  · exact hstays.leads rfl

/-- From `o` to `o'`, with the packets that the socket took and what it had to read. -/
inductive Progress (o : Opening) (arrivals : List Recorder.Arrival) (o' : Opening) : List Packet → Prop where
  /-- Whatever was agreed on before may have come to nothing, and there is nothing new. -/
  | quiet (hagreed : ∀ agreed, o'.phase.agreed? = some agreed → o.phase.agreed? = some agreed)
      (hdone : ∀ agreed, o'.phase = .finished (.ok agreed) → o.phase = .finished (.ok agreed)) :
      Progress o arrivals o' []
  | requested (hphase : o'.phase.agreed? = none) : Progress o arrivals o' [.request o.request]
  | heard {octets : Octets} {t : Seq} (harrival : .datagram o.target octets ∈ arrivals)
      (hreply : o.replyIn? o.target (octets.take Socket.bufferLength) = some t)
      (hphase : o'.phase = .confirming { sequenceIn := Seq.next t, sequenceOut := o.expectedAck }) :
      Progress o arrivals o' []
  | confirmed {agreed : Agreement} {sent : List Packet} (haim : o.phase.aim = .confirming agreed)
      (hdone : o'.phase = .finished (.ok agreed)) (hsent : sent = [] ∨ sent = [.ackOnly agreed.sequenceIn]) :
      Progress o arrivals o' sent

theorem Progress.none {arrivals : List Recorder.Arrival} {o' : Opening} (h : o'.phase.agreed? = none) :
    Progress o arrivals o' [] :=
  .quiet (fun agreed ha => by simp [h] at ha) fun agreed ha => by simp [ha, Phase.agreed?] at h

theorem afterSend_cases (o done : Opening) (failure : Option IoKind) : o.afterSend done failure = done ∨
    ∃ k, failure = some k ∧ o.afterSend done failure = o.enter (.finished (.error (.io (.injected k)))) := by
  cases failure with
  | none => exact .inl rfl
  | some k =>
    by_cases hk : k = .wouldBlock
    · exact .inl (if_pos hk)
    · exact .inr ⟨k, rfl, if_neg hk⟩

def taken (new : List Recorder.Attempt) : List Packet :=
  (new.filter fun a => a.failure.isNone).map Recorder.Attempt.packet

theorem Moved.progress {mail rest : List Recorder.Arrival} {o' : Opening} {new : List Recorder.Attempt}
    (h : Moved o now mail o' new rest) : o'.target = o.target ∧ Progress o mail o' (taken new) := by
  cases h with
  | checked => exact ⟨rfl, .none rfl⟩
  | scheduled => exact ⟨rfl, .none rfl⟩
  | asked _ failure =>
    rcases afterSend_cases o (o.enter .asked) failure with hdone | ⟨k, rfl, hdone⟩ <;> rw [hdone]
    · refine ⟨rfl, ?_⟩
      cases failure with
      | none => exact .requested rfl
      | some k => exact .none rfl
    · exact ⟨rfl, .none rfl⟩
  | expired => exact ⟨rfl, .none rfl⟩
  | renewed => exact ⟨rfl, .none rfl⟩
  | heard _ hmail hreply => exact ⟨rfl, .heard (hmail ▸ .head _) hreply rfl⟩
  | listened hphase haim =>
    refine ⟨rfl, .none ?_⟩
    rw [enter, ← Phase.agreed?_aim, haim]
    rfl
  | @confirmed agreed haim failure =>
    rcases afterSend_cases o (o.enter (.finished (.ok agreed))) failure with hdone | ⟨k, rfl, hdone⟩ <;>
      rw [hdone]
    · refine ⟨rfl, .confirmed haim rfl ?_⟩
      cases failure with
      | none => exact .inr rfl
      | some k => exact .inl rfl
    · exact ⟨rfl, .none rfl⟩
  | waited haim =>
    refine ⟨rfl, .quiet (fun agreed ha => ?_) fun agreed hdone => ?_⟩
    · rwa [← Phase.agreed?_aim, ← haim, Phase.agreed?_aim]
    · obtain rfl : _ = Phase.finished (.ok agreed) := hdone
      exact Phase.eq_of_aim_eq_finished haim.symm
  | failed => exact ⟨rfl, .none rfl⟩

theorem step_progress (o : Opening) (now : Instant) (hr : r.passed = []) :
    (o.step Recorder.socket now r).1.1.target = o.target ∧
      Progress o r.arrivals (o.step Recorder.socket now r).1.1
        (o.step Recorder.socket now r).2.passed := by
  obtain ⟨new, hnew, hmoved⟩ := o.step_leads now r
  have hpassed : (o.step Recorder.socket now r).2.passed = r.passed ++ taken new := by
    simp [Recorder.passed, hnew, taken]
  rw [hpassed, hr]
  exact hmoved.progress

end Opening

end DatagramStreams
