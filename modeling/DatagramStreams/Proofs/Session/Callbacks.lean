import DatagramStreams.Proofs.Session.Turns

/-! Callbacks of a connection over a whole run, with whatever its handler does inside them. An observer
writes down which payloads were accepted, and sees them come back in the callbacks.
Main statement: `AcceptanceLog.Reached.callback_protocol`.
-/

set_option autoImplicit false

namespace DatagramStreams

namespace Connection

def Turn.brought : Turn → List Octets
  | .use _ => []
  | .arrival _ p => p.payload.toList

def heardUnreliably (c : Connection) : List Octets :=
  c.journal.unreliableReads ++ c.unreliable.delivered.toList

variable {σ : Type} {sock : Socket σ} {c c₁ : Connection}

theorem reads_introduction (c : Connection) : c.introduction.filterMap Callback.read? = [] ∧
    c.introduction.filterMap Callback.unreliableRead? = [] := by
  unfold introduction
  split <;> exact ⟨rfl, rfl⟩

theorem reads_unread (c : Connection) :
    c.unread.filterMap Callback.read? = c.reliable.inbound.delivered.toList ∧
      c.unread.filterMap Callback.unreliableRead? = c.unreliable.delivered.toList := by
  simp [unread, Function.comp_def, Callback.read?, Callback.unreliableRead?]

theorem heard_unchanged (hcallbacks : c₁.journal.callbacks = c.journal.callbacks)
    (hinbound : c₁.reliable.inbound = c.reliable.inbound) : c₁.heard = c.heard := by
  rw [heard, heard, Journal.reads, Journal.reads, hcallbacks, hinbound]

theorem heardUnreliably_unchanged (hcallbacks : c₁.journal.callbacks = c.journal.callbacks)
    (hdelivered : c₁.unreliable.delivered = c.unreliable.delivered) :
    c₁.heardUnreliably = c.heardUnreliably := by
  rw [heardUnreliably, heardUnreliably, Journal.unreliableReads, Journal.unreliableReads, hcallbacks,
    hdelivered]

theorem poll_heard (c : Connection) (sock : Socket σ) (now : Instant) (s : σ) :
    (c.poll sock now s).2.1.heard = c.heard ∧
      (c.poll sock now s).2.1.heardUnreliably = c.heardUnreliably := by
  obtain ⟨hintro, hintro'⟩ := c.reads_introduction
  cases hstate : c.state with
  | closed =>
    rw [poll_of_closed hstate]
    exact ⟨rfl, rfl⟩
  | closing =>
    obtain ⟨-, hc⟩ := poll_of_closing_calls hstate sock now s
    constructor
    · simp [heard, Journal.reads, hc.callbacks, hc.reliable, hintro, Callback.read?]
    · simp [heardUnreliably, Journal.unreliableReads, hc.callbacks, hc.unreliable, hintro',
        Callback.unreliableRead?]
  | opened =>
    obtain ⟨-, hc⟩ := poll_of_opened_calls hstate sock now s
    obtain ⟨hunread, hunread'⟩ := c.reads_unread
    constructor
    · simp [heard, Journal.reads, hc.callbacks, hc.reliable, hintro, hunread, emptied,
        ReliableStream.takeDelivered, Inbound.takeDelivered]
    · simp [heardUnreliably, Journal.unreliableReads, hc.callbacks, hc.unreliable, hintro', hunread',
        emptied, UnreliableStream.takeDelivered]

theorem Use.run_heard (what : Use) (c : Connection) (sock : Socket σ) (now : Instant) (s : σ) :
    (what.run sock now c s).1.heard = c.heard ∧
      (what.run sock now c s).1.heardUnreliably = c.heardUnreliably := by
  by_cases hp : what = .poll
  · rw [hp]
    exact poll_heard c sock now s
  · have hc := Use.run_calls hp sock now c s
    have hcallbacks := hc.callbacks.trans (List.append_nil _)
    exact ⟨heard_unchanged hcallbacks hc.reliable, heardUnreliably_unchanged hcallbacks hc.unreliable⟩

theorem receive_heard (c : Connection) (source : Address) (p : Packet) (sock : Socket σ) (now : Instant)
    (s : σ) :
    let c' := (c.receive sock source p now s).2.1
    c'.heard = c.heard ++ (if c'.reliable.inbound.sequence = c.reliable.inbound.sequence then []
        else p.payload.toList) ∧
      c'.heardUnreliably = c.heardUnreliably ++
        (if c'.unreliable.sequenceIn = c.unreliable.sequenceIn then [] else p.payload.toList) := by
  intro c'
  have hr : Hears p.payload c c' := receive_hears c source p sock now s
  constructor
  · rcases hr.reliable with h | ⟨b, hb, h⟩
    · rw [heard_unchanged hr.callbacks h, h, if_pos rfl, List.append_nil]
    · simp [heard, Journal.reads, hr.callbacks, h, hb, Seq.next_ne]
  · rcases hr.unreliable with h | ⟨b, hb, h, hmoved⟩
    · rw [heardUnreliably_unchanged hr.callbacks (by rw [h]), h, if_pos rfl, List.append_nil]
    · simp [heardUnreliably, Journal.unreliableReads, hr.callbacks, if_neg hmoved, h, hb]

theorem Turn.run_heard (turn : Turn) (c : Connection) (sock : Socket σ) (now : Instant) (s : σ) :
    let c' := (turn.run sock now c s).1
    c'.heard = c.heard ++ (if c'.reliable.inbound.sequence = c.reliable.inbound.sequence then []
        else turn.brought) ∧
      c'.heardUnreliably = c.heardUnreliably ++
        (if c'.unreliable.sequenceIn = c.unreliable.sequenceIn then [] else turn.brought) := by
  cases turn with
  | arrival source p => exact receive_heard c source p sock now s
  | use what =>
    simp only [brought, ite_self, List.append_nil]
    exact what.run_heard c sock now s

end Connection

/-- A connection, and the payloads that its streams have accepted, oldest first. -/
structure AcceptanceLog where
  conn : Connection
  reliable : List Octets := []
  unreliable : List Octets := []

namespace AcceptanceLog

open Connection (Turn)

variable {σ : Type} {sock : Socket σ} {w : AcceptanceLog}

/-- A stream has accepted what was brought exactly if the sequence that it expects has moved on. -/
def turn (sock : Socket σ) (w : AcceptanceLog) (turn : Turn) (now : Instant) (s : σ) : AcceptanceLog :=
  let conn := (turn.run sock now w.conn s).1
  { conn
    reliable := w.reliable ++
      if conn.reliable.inbound.sequence = w.conn.reliable.inbound.sequence then [] else turn.brought
    unreliable := w.unreliable ++
      if conn.unreliable.sequenceIn = w.conn.unreliable.sequenceIn then [] else turn.brought }

inductive Reached (sock : Socket σ) : AcceptanceLog → Prop
  | establish (peer : Address) (sequenceIn sequenceOut : Seq) (config : Settings) (handler : Handler)
      (ownsSocket : Bool) :
      Reached sock { conn := .establish peer sequenceIn sequenceOut config handler ownsSocket }
  | turn {w : AcceptanceLog} (h : Reached sock w) (turn : Turn) (now : Instant) (s : σ) :
      Reached sock (w.turn sock turn now s)

structure HandedOn (w : AcceptanceLog) : Prop where
  paired : w.conn.Paired
  reliable : w.conn.heard = w.reliable
  unreliable : w.conn.heardUnreliably = w.unreliable

theorem HandedOn.turn (h : w.HandedOn) (turn : Turn) (now : Instant) (s : σ) : (w.turn sock turn now s).HandedOn := by
  obtain ⟨hreliable, hunreliable⟩ := turn.run_heard w.conn sock now s
  rw [h.reliable] at hreliable
  rw [h.unreliable] at hunreliable
  exact ⟨h.paired.turn sock now turn s, hreliable, hunreliable⟩

theorem Reached.handedOn (h : Reached sock w) : w.HandedOn := by
  induction h with
  | establish peer sequenceIn sequenceOut config handler ownsSocket =>
    exact ⟨Connection.paired_establish _ _ _ _ _ _, rfl, rfl⟩
  | turn _ turn now s ih => exact ih.turn turn now s

structure CallbackProtocol (sock : Socket σ) (w : AcceptanceLog) : Prop where
  order : w.conn.journal.callbacks = [] ∨ ∃ reads : List Callback, (∀ r ∈ reads, r.isRead = true) ∧
    (w.conn.journal.callbacks = .opened :: reads ∨
      w.conn.journal.callbacks = .opened :: (reads ++ [.closed]))
  reliable : w.conn.journal.reads <+: w.reliable
  unreliable : w.conn.journal.unreliableReads <+: w.unreliable
  /-- Nothing but a poll calls back, not even a server that passes a packet on. -/
  elsewhere : ∀ (turn : Turn) (now : Instant) (s : σ), turn ≠ .use .poll →
    (turn.run sock now w.conn s).1.journal.callbacks = w.conn.journal.callbacks
  served : ∀ (source : Address) (p : Packet) (now : Instant) (s : σ),
    (Server.receiveFrom sock source p now w.conn s).1.journal.callbacks = w.conn.journal.callbacks
  opened : w.conn.state = .opened → ∀ now s, (w.conn.poll sock now s).1 = .ok () ∧
    (w.conn.poll sock now s).2.1.journal.callbacks = w.conn.journal.callbacks ++
      ((if .opened ∈ w.conn.journal.callbacks then [] else [.opened]) ++
        ((w.unreliable.drop w.conn.journal.unreliableReads.length).map .unreliable ++
          (w.reliable.drop w.conn.journal.reads.length).map .reliable))
  closing : w.conn.state = .closing → ∀ now s, (w.conn.poll sock now s).1 = .ok () ∧
    (w.conn.poll sock now s).2.1.state = .closed ∧
    (w.conn.poll sock now s).2.1.journal.callbacks = w.conn.journal.callbacks ++
      ((if .opened ∈ w.conn.journal.callbacks then [] else [.opened]) ++ [.closed])
  closed : w.conn.state = .closed → ∀ now s, w.conn.poll sock now s = (.error .closed, w.conn, s)

theorem HandedOn.unread (h : w.HandedOn) : w.conn.unread =
    (w.unreliable.drop w.conn.journal.unreliableReads.length).map .unreliable ++
      (w.reliable.drop w.conn.journal.reads.length).map .reliable := by
  rw [← h.reliable, ← h.unreliable, Connection.heard, Connection.heardUnreliably, List.drop_left,
    List.drop_left, Connection.unread]

/-- Callbacks begin with the first one and end with the last one, reads are what was accepted and come back
in order, and nothing is called back outside a poll. -/
theorem Reached.callback_protocol (h : Reached sock w) : w.CallbackProtocol sock := by
  have hk := h.handedOn
  have hintro := hk.paired.introduction_eq
  refine ⟨hk.paired.order, ⟨_, hk.reliable⟩, ⟨_, hk.unreliable⟩, fun turn now s ht => ?_,
    fun source p now s => ?_, fun hstate now s => ?_, fun hstate now s => ?_, fun hstate now s => ?_⟩
  · cases turn with
    | use what =>
      have hc := Connection.Use.run_calls (fun he => ht (congrArg Turn.use he)) sock now w.conn s
      exact hc.callbacks.trans (List.append_nil _)
    | arrival source p => exact (Connection.receive_hears w.conn source p sock now s).callbacks
  · rw [Server.receiveFrom_eq]
    exact (Connection.receive_hears w.conn source p sock now s).callbacks
  · obtain ⟨hok, hc⟩ := Connection.poll_of_opened_calls hstate sock now s
    rw [← hk.unread, ← hintro]
    exact ⟨hok, hc.callbacks⟩
  · obtain ⟨hok, hc⟩ := Connection.poll_of_closing_calls hstate sock now s
    rw [← hintro]
    exact ⟨hok, (Connection.poll_of_closing hstate).1, hc.callbacks⟩
  · exact Connection.poll_of_closed hstate

def closesOnRead : Handler := .ofScript { reliable := [.close] }

/-- A payload of each stream is accepted before the first poll, and one more reliable one. The handler
closes on the first reliable one, the second is handed over all the same, and the last callback is left to
the next poll. -/
theorem Reached.callback_protocol_closing_handler :
    let arrive (isReliable : Bool) (sequence : Seq) (payload : Octets) (w : AcceptanceLog) : AcceptanceLog :=
      w.turn Recorder.socket (.arrival Recorder.address (.carrying isReliable sequence payload)) 0 {}
    let w₀ : AcceptanceLog := { conn := .establish Recorder.address 7 0 {} closesOnRead true }
    let w₁ := arrive true 8 [3] (arrive false 9 [2] (arrive true 7 [1] w₀))
    let w₂ := w₁.turn Recorder.socket (.use .poll) 0 {}
    let w₃ := w₂.turn Recorder.socket (.use .poll) 0 {}
    w₂.CallbackProtocol Recorder.socket ∧ w₃.CallbackProtocol Recorder.socket ∧
      w₂.conn.journal.callbacks = [.opened, .unreliable [2], .reliable [1], .reliable [3]] ∧
      w₃.conn.journal.callbacks = [.opened, .unreliable [2], .reliable [1], .reliable [3], .closed] := by
  intro arrive w₀ w₁ w₂ w₃
  have arrival {w : AcceptanceLog} (h : Reached Recorder.socket w) (isReliable : Bool) (sequence : Seq)
      (payload : Octets) : Reached Recorder.socket (arrive isReliable sequence payload w) :=
    h.turn (.arrival Recorder.address (.carrying isReliable sequence payload)) 0 {}
  have h₀ : Reached Recorder.socket w₀ := .establish Recorder.address 7 0 {} closesOnRead true
  have h₁ : Reached Recorder.socket w₁ :=
    arrival (arrival (arrival h₀ true 7 [1]) false 9 [2]) true 8 [3]
  have h₂ : Reached Recorder.socket w₂ := h₁.turn (.use .poll) 0 {}
  have h₃ : Reached Recorder.socket w₃ := h₂.turn (.use .poll) 0 {}
  exact ⟨h₂.callback_protocol, h₃.callback_protocol, by decide +kernel, by decide +kernel⟩

end AcceptanceLog

end DatagramStreams
