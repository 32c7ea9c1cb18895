import DatagramStreams.Proofs.Session.Actions
import DatagramStreams.Proofs.Session.Ended

/-! What a connection goes through, one turn at a time: its application uses it, or a packet arrives. Over
any socket, a turn that is no poll calls nothing back, and a poll calls back what is due and nothing else.
Main statements: `poll_of_opened_calls`, `poll_of_closing_calls`, `Use.run_calls` and `receive_hears`.
-/

set_option autoImplicit false

namespace DatagramStreams

namespace Callback

def unreliableRead? : Callback → Option Octets
  | .unreliable b => some b
  | _ => none

def isRead : Callback → Bool
  | .reliable _ | .unreliable _ => true
  | _ => false

end Callback

namespace Journal

def unreliableReads (j : Journal) : List Octets := j.callbacks.filterMap Callback.unreliableRead?

@[simp] theorem callbacks_callback (j : Journal) (call : Callback) :
    (j.add (.callback call)).callbacks = j.callbacks ++ [call] := by
  simp [callbacks]

theorem callbacks_add {j : Journal} {h : Happening} (hc : ∀ call, h ≠ .callback call) :
    (j.add h).callbacks = j.callbacks := by
  cases h with
  | callback call => exact absurd rfl (hc call)
  | _ => simp [callbacks]

@[simp] theorem callbacks_noteSend (j : Journal) (payload : Octets) (result : Except ConnectionError Unit) :
    (j.noteSend payload result).callbacks = j.callbacks := by
  cases result <;> rfl

end Journal

namespace ReliableStream

variable {σ : Type} (sock : Socket σ)

theorem inbound_send (r : ReliableStream) (l : Link) (payload : Octets) (now : Instant) (s : σ) :
    (r.send sock l payload now s).2.1.inbound = r.inbound := rfl

theorem inbound_poll (r : ReliableStream) (l : Link) (now : Instant) (s : σ) :
    (r.poll sock l now s).2.1.inbound = r.inbound := by
  unfold poll
  split
  · rfl
  · split <;> rfl

theorem inbound_receive (r : ReliableStream) (l : Link) (p : Packet) (now : Instant) (s : σ) :
    (r.receive sock l p now s).2.1.inbound = r.inbound ∨ ∃ payload, p.payload = some payload ∧
      (r.receive sock l p now s).2.1.inbound = r.inbound.accept payload := by
  have hack : (r.receiveAck p.ack now).2.inbound = r.inbound := by
    cases p.ack <;> rfl
  unfold receive
  rcases hr : r.receiveAck p.ack now with ⟨e | u, r₁⟩ <;> rw [hr] at hack
  · exact .inl hack
  · cases p.reliable with
    | false => exact .inl hack
    | true =>
      cases hp : p.payload with
      | none => exact .inl hack
      | some payload =>
        simp only [receivePayload]
        cases r₁.inbound.classify p.sequence with
        | expected => exact .inr ⟨payload, rfl, congrArg (·.accept payload) hack⟩
        | ahead => exact .inl hack
        | duplicate => exact .inl hack

end ReliableStream

theorem UnreliableStream.delivered_send {σ : Type} (sock : Socket σ) (u : UnreliableStream) (l : Link)
    (payload : Octets) (now : Instant) (s : σ) :
    (u.send sock l payload now s).2.1.delivered = u.delivered := by
  unfold send
  split
  · rfl
  · simp only
    split <;> rfl

namespace Connection

variable {σ : Type} {sock : Socket σ} {c c₁ c₂ : Connection} {calls more : List Callback} {now : Instant} {s : σ}

/-- From `c` to `c'` these callbacks ran and nothing was taken from the peer, whatever was sent. The
connection may have begun to close. -/
structure Calls (calls : List Callback) (c c' : Connection) : Prop where
  callbacks : c'.journal.callbacks = c.journal.callbacks ++ calls
  announced : c'.announced = c.announced
  reliable : c'.reliable.inbound = c.reliable.inbound
  unreliable : c'.unreliable.delivered = c.unreliable.delivered
  state : c'.state = c.state ∨ c.state = .opened ∧ c'.state = .closing

theorem Calls.refl (c : Connection) : Calls [] c c := ⟨(List.append_nil _).symm, rfl, rfl, rfl, .inl rfl⟩

theorem Calls.trans (h₁ : Calls calls c c₁) (h₂ : Calls more c₁ c₂) : Calls (calls ++ more) c c₂ where
  callbacks := by rw [h₂.callbacks, h₁.callbacks, List.append_assoc]
  announced := h₂.announced.trans h₁.announced
  reliable := h₂.reliable.trans h₁.reliable
  unreliable := h₂.unreliable.trans h₁.unreliable
  state := by
    rcases h₁.state with h | ⟨hc, h⟩
    · rw [← h]
      exact h₂.state
    · refine .inr ⟨hc, ?_⟩
      rcases h₂.state with h' | ⟨ho, -⟩
      · rw [h', h]
      · rw [h] at ho
        cases ho

theorem Calls.record (h : Calls calls c c₁) {what : Happening} (hw : ∀ call, what ≠ .callback call) :
    Calls calls c (c₁.record what) :=
  ⟨(Journal.callbacks_add hw).trans h.callbacks, h.announced, h.reliable, h.unreliable, h.state⟩

variable (sock now s)

theorem close_calls (c : Connection) : Calls [] c (c.close sock now s).1 := by
  unfold close
  split
  · exact ⟨(List.append_nil _).symm, rfl, rfl, rfl, .inr ⟨‹_›, rfl⟩⟩
  · exact .refl c

theorem unreliable_close (c : Connection) : (c.close sock now s).1.unreliable = c.unreliable := by
  unfold close
  split <;> rfl

theorem closedByPeer_calls (c : Connection) : Calls [] c (c.closedByPeer sock s).1 := by
  unfold closedByPeer
  split
  · exact ⟨(List.append_nil _).symm, rfl, rfl, rfl, .inr ⟨‹_›, rfl⟩⟩
  · exact .refl c

theorem closeIfFatal_calls (c : Connection) (result : Except ConnectionError Unit) :
    Calls [] c (c.closeIfFatal sock result now s).2.1 := by
  cases result with
  | ok u => exact .refl c
  | error e =>
    simp only [closeIfFatal]
    split
    · exact close_calls sock now s c
    · exact .refl c

theorem sendReliable_calls (c : Connection) (payload : Octets) :
    Calls [] c (c.sendReliable sock payload now s).2.1 := by
  unfold sendReliable
  split
  · exact .refl c
  · have hinbound := c.reliable.inbound_send sock c.link payload now s
    rcases hs : c.reliable.send sock c.link payload now s with ⟨result, r, l, s₁⟩
    rw [hs] at hinbound
    have h : Calls [] c { c with reliable := r, link := l, journal := c.journal.noteSend payload result } :=
      ⟨by simp, rfl, hinbound, rfl, .inl rfl⟩
    exact h.trans (closeIfFatal_calls sock now s₁ _ result)

theorem sendUnreliable_calls (c : Connection) (payload : Octets) :
    Calls [] c (c.sendUnreliable sock payload now s).2.1 := by
  unfold sendUnreliable
  split
  · exact .refl c
  · have hdelivered := c.unreliable.delivered_send sock c.link payload now s
    rcases hs : c.unreliable.send sock c.link payload now s with ⟨result, u, l, s₁⟩
    rw [hs] at hdelivered
    have h : Calls [] c { c with unreliable := u, link := l } :=
      ⟨by simp, rfl, rfl, hdelivered, .inl rfl⟩
    exact h.trans (closeIfFatal_calls sock now s₁ _ result)

theorem pollStream_calls (c : Connection) : Calls [] c (c.pollStream sock now s).1 := by
  unfold pollStream
  have hinbound := c.reliable.inbound_poll sock c.link now s
  rcases hs : c.reliable.poll sock c.link now s with ⟨health, r, l, s₁⟩
  rw [hs] at hinbound
  have h : Calls [] c { c with reliable := r, link := l } := ⟨by simp, rfl, hinbound, rfl, .inl rfl⟩
  simp only
  split
  · exact h
  · exact h.trans (close_calls sock now s₁ _)

theorem perform_calls (c : Connection) (action : Action) : Calls [] c (c.perform sock now s action).1 := by
  cases action with
  | sendReliable payload => exact (sendReliable_calls sock now s c payload).record (by simp)
  | sendUnreliable payload => exact (sendUnreliable_calls sock now s c payload).record (by simp)
  | close => exact (close_calls sock now s c).record (by simp)
  | askState => exact (Calls.refl c).record (by simp)

theorem performAll_calls (c : Connection) (actions : List Action) :
    Calls [] c (performAll sock now actions c s).1 := by
  induction actions generalizing c s with
  | nil => exact .refl c
  | cons action rest ih => exact (perform_calls sock now s c action).trans (ih _ _)

theorem notify_calls (c : Connection) (call : Callback) :
    Calls [call] c (c.notify sock now call s).1 := by
  have h : Calls [call] c (c.record (.callback call)) :=
    ⟨c.journal.callbacks_callback call, rfl, rfl, rfl, .inl rfl⟩
  exact h.trans (performAll_calls sock now s _ _)

theorem notifyAll_calls (c : Connection) (calls : List Callback) :
    Calls calls c (notifyAll sock now calls c s).1 := by
  induction calls generalizing c s with
  | nil => exact .refl c
  | cons call rest ih => exact (notify_calls sock now s c call).trans (ih _ _)

def introduction (c : Connection) : List Callback := if c.announced then [] else [.opened]

theorem announce_calls (c : Connection) :
    Calls c.introduction { c with announced := true } (c.announce sock now s).1 := by
  unfold announce introduction
  split
  · rename_i h
    rw [← h]
    exact .refl c
  · exact notify_calls sock now s { c with announced := true } .opened

def unread (c : Connection) : List Callback :=
  c.unreliable.delivered.toList.map .unreliable ++ c.reliable.inbound.delivered.toList.map .reliable

def emptied (c : Connection) : Connection :=
  { c with unreliable := c.unreliable.takeDelivered.2, reliable := c.reliable.takeDelivered.2 }

theorem dispatch_calls (c : Connection) : Calls c.unread c.emptied (c.dispatch sock now s).1 :=
  notifyAll_calls sock now s c.emptied c.unread

variable {sock now s}

theorem Calls.unread (h : Calls calls c c₁) : c₁.unread = c.unread := by
  rw [Connection.unread, Connection.unread, h.reliable, h.unreliable]

theorem Calls.emptied (h : Calls calls c c₁) : Calls calls c.emptied c₁.emptied where
  callbacks := h.callbacks
  announced := h.announced
  reliable := congrArg (fun i => i.takeDelivered.2) h.reliable
  unreliable := rfl
  state := h.state

theorem poll_of_opened_calls (h : c.state = .opened) (sock : Socket σ) (now : Instant) (s : σ) :
    (c.poll sock now s).1 = .ok () ∧ Calls (c.introduction ++ c.unread)
      { c with announced := true }.emptied (c.poll sock now s).2.1 := by
  have ha := announce_calls sock now s c
  have hd := dispatch_calls sock now (c.announce sock now s).2 (c.announce sock now s).1
  rw [ha.unread] at hd
  have hboth : Calls (c.introduction ++ c.unread) { c with announced := true }.emptied _ :=
    ha.emptied.trans hd
  unfold poll
  split <;> rename_i hstate <;> rw [h] at hstate
  · cases hstate
  · cases hstate
  · refine ⟨rfl, ?_⟩
    simp only
    split
    · have hp := hboth.trans (pollStream_calls sock now
        ((c.announce sock now s).1.dispatch sock now (c.announce sock now s).2).2 _)
      rwa [List.append_nil] at hp
    · exact hboth

theorem poll_of_closing_calls (h : c.state = .closing) (sock : Socket σ) (now : Instant) (s : σ) :
    (c.poll sock now s).1 = .ok () ∧ Calls (c.introduction ++ [.closed])
      { c with announced := true, state := .closed } (c.poll sock now s).2.1 := by
  have ha := announce_calls sock now s c
  have hstate := (announce_of_not_opened sock now s (c := c) (by simp [h])).1.trans h
  simp only [poll, h, finishClose, hstate]
  refine ⟨trivial, ?_⟩
  have hclosed : Calls c.introduction { c with announced := true, state := .closed }
      { (c.announce sock now s).1 with state := .closed } :=
    ⟨ha.callbacks, ha.announced, ha.reliable, ha.unreliable, .inl rfl⟩
  exact hclosed.trans (notify_calls sock now _ _ .closed)

theorem Use.run_calls {what : Use} (h : what ≠ .poll) (sock : Socket σ) (now : Instant) (c : Connection)
    (s : σ) : Calls [] c (what.run sock now c s).1 := by
  cases what with
  | sendReliable payload => exact sendReliable_calls sock now s c payload
  | sendUnreliable payload => exact sendUnreliable_calls sock now s c payload
  | setSendTimeout limit => exact ⟨(List.append_nil _).symm, rfl, rfl, rfl, .inl rfl⟩
  | poll => exact absurd rfl h
  | close => exact close_calls sock now s c

theorem Use.callbacks_of_closed (h : c.state = .closed) (what : Use) :
    (what.run sock now c s).1.journal.callbacks = c.journal.callbacks := by
  by_cases hp : what = .poll
  · subst hp
    simp only [run, poll_of_closed h]
  · exact (run_calls hp sock now c s).callbacks.trans (List.append_nil _)

/-- From `c` to `c'` nothing was called back, and at most this payload was accepted, by one of the
streams. -/
structure Hears (payload : Option Octets) (c c' : Connection) : Prop where
  callbacks : c'.journal.callbacks = c.journal.callbacks
  announced : c'.announced = c.announced
  reliable : c'.reliable.inbound = c.reliable.inbound ∨
    ∃ b, payload = some b ∧ c'.reliable.inbound = c.reliable.inbound.accept b
  unreliable : c'.unreliable = c.unreliable ∨ ∃ b, payload = some b ∧
    c'.unreliable.delivered = c.unreliable.delivered.push b ∧
      c'.unreliable.sequenceIn ≠ c.unreliable.sequenceIn
  state : c'.state = c.state ∨ c.state = .opened ∧ c'.state = .closing

theorem Hears.refl (payload : Option Octets) (c : Connection) : Hears payload c c :=
  ⟨rfl, rfl, .inl rfl, .inl rfl, .inl rfl⟩

theorem receiveUnreliable_hears (c : Connection) (p : Packet) :
    Hears p.payload c (c.receiveUnreliable p) := by
  unfold receiveUnreliable UnreliableStream.receive
  split
  · cases hp : p.payload with
    | none => exact .refl none c
    | some b =>
      simp only
      split
      · rename_i hnew
        exact ⟨rfl, rfl, .inl rfl, .inr ⟨b, rfl, rfl, Seq.next_ne_of_isNew hnew⟩, .inl rfl⟩
      · exact .refl _ c
  · exact .refl _ c

theorem receiveData_hears (c : Connection) (p : Packet) (sock : Socket σ) (now : Instant) (s : σ) :
    Hears p.payload c (c.receiveData sock p now s).2.1 := by
  unfold receiveData
  split
  · have hinbound := c.reliable.inbound_receive sock c.link p now s
    rcases hs : c.reliable.receive sock c.link p now s with ⟨e | u, r, l, s₁⟩ <;> rw [hs] at hinbound
    · have hclose := close_calls sock now s₁ { c with reliable := r, link := l }
      exact ⟨hclose.callbacks.trans (List.append_nil _), hclose.announced, hclose.reliable ▸ hinbound,
        .inl (unreliable_close sock now s₁ _), hclose.state⟩
    · obtain ⟨hcalls, hannounced, -, hunreliable, hstate⟩ :=
        receiveUnreliable_hears { c with reliable := r, link := l } p
      refine ⟨hcalls, hannounced, ?_, hunreliable, hstate⟩
      simp only [receiveUnreliable]
      split <;> exact hinbound
  · exact receiveUnreliable_hears c p

theorem receive_hears (c : Connection) (source : Address) (p : Packet) (sock : Socket σ) (now : Instant)
    (s : σ) : Hears p.payload c (c.receive sock source p now s).2.1 := by
  unfold receive
  split
  · exact .refl _ c
  · split
    · have h := closedByPeer_calls sock s c
      refine ⟨h.callbacks.trans (List.append_nil _), h.announced, .inl h.reliable, .inl ?_, h.state⟩
      unfold closedByPeer
      split <;> rfl
    · exact receiveData_hears c p sock now s

inductive Turn where
  | use (what : Use)
  | arrival (source : Address) (p : Packet)

def Turn.run (sock : Socket σ) (now : Instant) : Turn → Connection → σ → Connection × σ
  | .use what, c, s => what.run sock now c s
  | .arrival source p, c, s => (c.receive sock source p now s).2

theorem Turn.run_lockstep {τ : Type} {sock' : Socket τ} {peer : Address} {owned : Bool} {R : σ → τ → Prop}
    {t : τ} (h : sock.Alike sock' peer owned R) (hb : c.Bound peer owned) (hr : R s t) (turn : Turn)
    (now : Instant) : Lockstep peer owned R (turn.run sock now c s) (turn.run sock' now c t) := by
  cases turn with
  | use what => exact what.run_lockstep h hb hr now
  | arrival source p => exact (receive_lockstep h hb hr source p now).2

theorem Turn.run_bound (turn : Turn) (c : Connection) (sock : Socket σ) (now : Instant) (s : σ) :
    (turn.run sock now c s).1.Bound c.peer c.ownsSocket :=
  (turn.run_lockstep (Socket.alike_refl sock _ _) ⟨rfl, rfl⟩ rfl now).bound

/-- The state moves from open to closing, from closing to closed, or not at all. -/
theorem Turn.run_state (turn : Turn) (c : Connection) (sock : Socket σ) (now : Instant) (s : σ) :
    (turn.run sock now c s).1.state = c.state ∨
      c.state = .opened ∧ (turn.run sock now c s).1.state = .closing ∨
      c.state = .closing ∧ (turn.run sock now c s).1.state = .closed := by
  cases turn with
  | arrival source p => exact (receive_hears c source p sock now s).state.imp_right .inl
  | use what =>
    by_cases hp : what = .poll
    · subst hp
      cases hstate : c.state with
      | closed => exact .inl (by simp [run, Use.run, poll_of_closed hstate, hstate])
      | closing => exact .inr (.inr ⟨rfl, (poll_of_closing hstate).1⟩)
      | opened =>
        have hc : (c.poll sock now s).2.1.state = c.state ∨ c.state = .opened ∧
            (c.poll sock now s).2.1.state = .closing := (poll_of_opened_calls hstate sock now s).2.state
        rw [hstate] at hc
        exact hc.imp_right .inl
    · exact (Use.run_calls hp sock now c s).state.imp_right .inl

/-- Once it has left the open state, a connection neither opens again nor touches its socket. -/
theorem Turn.run_of_not_opened (h : c.state ≠ .opened) (turn : Turn) (sock : Socket σ) (now : Instant)
    (s : σ) : (turn.run sock now c s).1.state ≠ .opened ∧ (turn.run sock now c s).2 = s := by
  have hstate := turn.run_state c sock now s
  refine ⟨by rcases hstate with he | ⟨ho, -⟩ | ⟨-, he⟩ <;> simp_all, ?_⟩
  cases turn with
  | arrival source p => simp only [run, receive_of_not_opened h]
  | use what =>
    cases what with
    | sendReliable payload => simp only [run, Use.run, sendReliable_of_not_opened h]
    | sendUnreliable payload => simp only [run, Use.run, sendUnreliable_of_not_opened h]
    | setSendTimeout limit => rfl
    | close => simp only [run, Use.run, close_of_not_opened h]
    | poll =>
      cases hc : c.state with
      | opened => exact absurd hc h
      | closing => exact (poll_of_closing hc).2
      | closed => simp only [run, Use.run, poll_of_closed hc]

/-- The callbacks so far: none, or the first one, then reads, then the last one if the connection is
closed. -/
structure Paired (c : Connection) : Prop where
  silent : c.announced = false → c.journal.callbacks = [] ∧ c.state ≠ .closed
  called : c.announced = true → ∃ reads : List Callback, (∀ r ∈ reads, r.isRead = true) ∧
    c.journal.callbacks = .opened :: (reads ++ if c.state = .closed then [.closed] else [])

theorem paired_establish (peer : Address) (sequenceIn sequenceOut : Seq) (config : Settings)
    (handler : Handler) (ownsSocket : Bool) :
    (establish peer sequenceIn sequenceOut config handler ownsSocket).Paired :=
  ⟨fun _ => ⟨rfl, by simp [establish, Lifecycle.initial]⟩, fun h => by simp [establish] at h⟩

theorem Paired.unchanged (h : c.Paired) (hcallbacks : c₁.journal.callbacks = c.journal.callbacks)
    (hannounced : c₁.announced = c.announced)
    (hstate : c₁.state = c.state ∨ c.state = .opened ∧ c₁.state = .closing) : c₁.Paired := by
  have hclosed : c₁.state = .closed ↔ c.state = .closed := by
    rcases hstate with h | ⟨ho, hc⟩
    · rw [h]
    · simp [ho, hc]
  refine ⟨fun ha => ?_, fun ha => ?_⟩
  · rw [hcallbacks, ne_eq, hclosed]
    exact h.silent (hannounced ▸ ha)
  · rw [hcallbacks]
    simpa only [hclosed] using h.called (hannounced ▸ ha)

theorem introduction_append (h : c.Paired) (hstate : c.state ≠ .closed) : ∃ reads : List Callback,
    (∀ r ∈ reads, r.isRead = true) ∧ c.journal.callbacks ++ c.introduction = .opened :: reads := by
  cases ha : c.announced with
  | false => exact ⟨[], by simp, by simp [introduction, ha, (h.silent ha).1]⟩
  | true =>
    obtain ⟨reads, hreads, hcalls⟩ := h.called ha
    exact ⟨reads, hreads, by simp [introduction, ha, hcalls, hstate]⟩

theorem Paired.order (h : c.Paired) : c.journal.callbacks = [] ∨ ∃ reads : List Callback,
    (∀ r ∈ reads, r.isRead = true) ∧
      (c.journal.callbacks = .opened :: reads ∨ c.journal.callbacks = .opened :: (reads ++ [.closed])) := by
  cases ha : c.announced with
  | false => exact .inl (h.silent ha).1
  | true =>
    obtain ⟨reads, hreads, hcalls⟩ := h.called ha
    refine .inr ⟨reads, hreads, ?_⟩
    split at hcalls
    · exact .inr hcalls
    · exact .inl (by simpa using hcalls)

/-- Closed, and told so: the first and the last callback have run, each once. -/
structure Finished (c : Connection) : Prop where
  state : c.state = .closed
  opened : c.journal.callbacks.count .opened = 1
  closed : c.journal.callbacks.count .closed = 1

theorem Paired.finished (h : c.Paired) (hstate : c.state = .closed) : c.Finished := by
  have hannounced : c.announced = true := by
    cases ha : c.announced with
    | true => rfl
    | false => exact absurd hstate (h.silent ha).2
  obtain ⟨reads, hreads, hcalls⟩ := h.called hannounced
  have hnone (call : Callback) (hcall : call.isRead = false) : reads.count call = 0 :=
    List.count_eq_zero_of_not_mem fun hm => by simp [hreads call hm] at hcall
  rw [hstate, if_pos rfl] at hcalls
  refine ⟨hstate, ?_, ?_⟩
  · simp [hcalls, hnone .opened rfl]
  · simp [hcalls, hnone .closed rfl]

theorem Paired.introduction_eq (h : c.Paired) :
    c.introduction = if .opened ∈ c.journal.callbacks then [] else [.opened] := by
  cases ha : c.announced with
  | false => simp [introduction, ha, (h.silent ha).1]
  | true =>
    obtain ⟨reads, -, hcalls⟩ := h.called ha
    simp [introduction, ha, hcalls]

theorem isRead_unread (c : Connection) : ∀ r ∈ c.unread, r.isRead = true := by
  intro r hr
  simp only [unread, List.mem_append, List.mem_map] at hr
  rcases hr with ⟨b, -, rfl⟩ | ⟨b, -, rfl⟩ <;> rfl

theorem Paired.poll (h : c.Paired) (sock : Socket σ) (now : Instant) (s : σ) :
    (c.poll sock now s).2.1.Paired := by
  cases hstate : c.state with
  | closed =>
    rw [poll_of_closed hstate]
    exact h
  | closing =>
    obtain ⟨-, hc⟩ := poll_of_closing_calls hstate sock now s
    obtain ⟨reads, hreads, hcalls⟩ := introduction_append h (by simp [hstate])
    have hclosed := hc.state.resolve_right (by simp)
    have hannounced : (c.poll sock now s).2.1.announced = true := hc.announced
    refine ⟨fun ha => by simp [ha] at hannounced, fun _ => ⟨reads, hreads, ?_⟩⟩
    rw [hc.callbacks, hclosed, if_pos rfl, ← List.append_assoc, ← List.cons_append, ← hcalls]
  | opened =>
    obtain ⟨-, hc⟩ := poll_of_opened_calls hstate sock now s
    obtain ⟨reads, hreads, hcalls⟩ := introduction_append h (by simp [hstate])
    have hne : (c.poll sock now s).2.1.state ≠ .closed := by
      rcases hc.state with h | ⟨-, h⟩ <;> simp [h, emptied, hstate]
    have hannounced : (c.poll sock now s).2.1.announced = true := hc.announced
    refine ⟨fun ha => by simp [ha] at hannounced, fun _ => ⟨reads ++ c.unread, ?_, ?_⟩⟩
    · intro r hr
      exact (List.mem_append.mp hr).elim (hreads r) (isRead_unread c r)
    · rw [hc.callbacks, if_neg hne, List.append_nil, ← List.cons_append, ← hcalls, List.append_assoc]
      rfl

theorem Paired.turn (h : c.Paired) (sock : Socket σ) (now : Instant) (turn : Turn) (s : σ) :
    (turn.run sock now c s).1.Paired := by
  cases turn with
  | arrival source p =>
    have hr := receive_hears c source p sock now s
    exact h.unchanged hr.callbacks hr.announced hr.state
  | use what =>
    by_cases hp : what = .poll
    · rw [hp]
      exact h.poll sock now s
    · have hc := Use.run_calls hp sock now c s
      exact h.unchanged (hc.callbacks.trans (List.append_nil _)) hc.announced hc.state

end Connection

namespace Server

variable {σ : Type} {sock : Socket σ}

theorem receiveFrom_eq (source : Address) (p : Packet) (now : Instant) (c : Connection) (s : σ) :
    receiveFrom sock source p now c s = (c.receive sock source p now s).2 := by
  have hfault : ∀ e, (c.receive sock source p now s).1 = .error e →
      (c.receive sock source p now s).2.1.state ≠ .opened := by
    intro e
    unfold Connection.receive Connection.receiveData
    split
    · simp
    · split
      · simp
      · split
        · simp only
          split
          · simp
          · exact fun _ => Connection.state_close_ne _ _ _ _
        · simp
  unfold receiveFrom
  rcases hr : c.receive sock source p now s with ⟨e | u, c₁, s₁⟩
  · rw [hr] at hfault
    exact Connection.close_of_not_opened (hfault e rfl)
  · rfl

theorem pollOne_eq (now : Instant) (c : Connection) (s : σ) :
    pollOne sock now c s = (c.poll sock now s).2 := by
  unfold pollOne Connection.poll
  cases c.state <;> rfl

end Server

end DatagramStreams
