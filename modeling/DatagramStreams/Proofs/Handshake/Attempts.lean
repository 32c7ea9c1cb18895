import DatagramStreams.Proofs.Handshake.Client
import DatagramStreams.Proofs.Stream.Numbering

/-! A client that asks a server again and again until it is answered. Its socket may do anything, and its mail
may come from anybody.
Main statement: `Caller.Reached.asks_until_answered`. A request is answered by what acknowledges it, and so
also by a late reply to one that had the same sequence, half a ring of requests ago.
-/

set_option autoImplicit false

namespace DatagramStreams

structure Call where
  target : Address
  timeout : Span
  interval : Span
  first : Seq
  begun : Instant

namespace Call

def deadline (w : Call) : Instant := w.begun + w.timeout

def sequence (w : Call) (n : Nat) : Seq := w.first.after (2 * n)

/-- Mail that does not answer request number `n`. -/
inductive Idle (w : Call) (n : Nat) : Recorder.Arrival → Prop
  | stranger {source : Address} {octets : Octets} (h : source ≠ w.target) : Idle w n (.datagram source octets)
  | malformed {source : Address} {octets : Octets} (h : Packet.decode? octets = none) :
      Idle w n (.datagram source octets)
  | other {source : Address} {octets : Octets} {p : Packet} (hdecode : Packet.decode? octets = some p)
      (h : p.connectRequest = false ∨ p.ack ≠ some (Seq.next (w.sequence n))) :
      Idle w n (.datagram source octets)
  /-- A reply to an earlier request, whose sequence has not come round again since. -/
  | late {source : Address} {octets : Octets} {p : Packet} {m : Nat}
      (hdecode : Packet.decode? octets = some p) (hack : p.ack = some (Seq.next (w.sequence m))) (hm : m < n)
      (hround : ¬ Seq.halfSpace ∣ n - m) : Idle w n (.datagram source octets)
  | failure {k : IoKind} (h : k.isTransient = true) : Idle w n (.failure k)

structure Answers (w : Call) (n : Nat) (octets : Octets) (p : Packet) : Prop where
  decodes : Packet.decode? octets = some p
  replies : p.connectRequest = true
  ack : p.ack = some (Seq.next (w.sequence n))

end Call

namespace Opening

variable {w : Call} {o : Opening} {n : Nat}

structure Serves (w : Call) (o : Opening) : Prop where
  target : o.target = w.target
  timeout : o.timeout = w.timeout
  interval : o.retryInterval = w.interval
  deadline : o.deadline = w.deadline

theorem Serves.enter (h : o.Serves w) (phase : Phase) : (o.enter phase).Serves w :=
  ⟨h.target, h.timeout, h.interval, h.deadline⟩

theorem Serves.afterSend (h : o.Serves w) {done : Opening} (hdone : done.Serves w) (failure : Option IoKind) :
    (o.afterSend done failure).Serves w := by
  rcases afterSend_cases o done failure with hcase | ⟨k, -, hcase⟩ <;> rw [hcase]
  · exact hdone
  · exact h.enter _

theorem Serves.listeningFrom (h : o.Serves w) (now : Instant) : (o.listeningFrom now).Serves w :=
  ⟨h.target, h.timeout, h.interval, h.deadline⟩

theorem Serves.moved (h : o.Serves w) {now : Instant} {mail rest : List Recorder.Arrival} {o' : Opening}
    {new : List Recorder.Attempt} (hm : Moved o now mail o' new rest) : o'.Serves w := by
  have hsame : ∀ phase, (o.enter phase).Serves w := h.enter
  cases hm with
  | asked | confirmed => exact h.afterSend (hsame _) _
  | scheduled => exact h.listeningFrom now
  | renewed => exact ⟨h.target, h.timeout, h.interval, h.deadline⟩
  | checked | expired | heard | listened | waited | failed => exact hsame _

/-- The next request waits an interval, or there is none because the deadline comes first. -/
theorem Serves.retryAt_listeningFrom (h : o.Serves w) (now : Instant) :
    now + w.interval ≤ (o.listeningFrom now).retryAt ∨ w.deadline ≤ (o.listeningFrom now).retryAt := by
  simp only [Opening.listeningFrom, h.interval, h.deadline]
  rcases Nat.le_total (now + w.interval) w.deadline with hfits | hlate
  · rw [Nat.min_eq_left hfits]
    exact .inl (Nat.le_refl _)
  · rw [Nat.min_eq_right hlate]
    exact .inr (Nat.le_refl _)

structure Asks (w : Call) (n : Nat) (o : Opening) : Prop where
  target : o.target = w.target
  request : o.request = w.sequence n

theorem Asks.enter (h : o.Asks w n) (phase : Phase) : (o.enter phase).Asks w n := ⟨h.target, h.request⟩

theorem Asks.listeningFrom (h : o.Asks w n) (now : Instant) : (o.listeningFrom now).Asks w n :=
  ⟨h.target, h.request⟩

theorem Asks.renewed (h : o.Asks w n) : o.renewed.Asks w (n + 1) where
  target := h.target
  request := by
    simp only [Opening.renewed, expectedAck, h.request, Call.sequence, Seq.next_after]
    rfl

theorem Asks.replyIn?_eq_some (h : o.Asks w n) {source : Address} {octets : Octets} {t : Seq} :
    o.replyIn? source (octets.take Socket.bufferLength) = some t ↔
      source = w.target ∧ ∃ p, w.Answers n octets p ∧ p.sequence = t := by
  rw [Opening.replyIn?_eq_some, Packet.decode?_take_bufferLength, expectedAck, h.target, h.request]
  refine and_congr_right fun _ => exists_congr fun p => ?_
  constructor
  · rintro ⟨hdecode, hreplies, hack, ht⟩
    exact ⟨⟨hdecode, hreplies, hack⟩, ht⟩
  · rintro ⟨⟨hdecode, hreplies, hack⟩, ht⟩
    exact ⟨hdecode, hreplies, hack, ht⟩

end Opening

/-- Something handed to the socket, whatever became of it. -/
structure Sending where
  moment : Instant
  attempt : Recorder.Attempt

structure Caller where
  opening : Opening
  socket : Recorder
  clock : Instant
  /-- When the clock was looked at before a request, and the deadline was not over. -/
  checks : List Instant := []
  sendings : List Sending := []
  read : List Recorder.Arrival := []

namespace Caller

def start (w : Call) (r : Recorder) : Caller where
  opening := .start w.target w.timeout w.interval w.first w.begun
  socket := r
  clock := w.begun

def requests (c : Caller) : List Sending := c.sendings.filter fun s => s.attempt.packet.connectRequest

def looked (before after : Opening.Phase) (now : Instant) : List Instant :=
  match before, after with
  | .requesting, .checked => [now]
  | _, _ => []

def noted (c : Caller) (now : Instant) (opening : Opening) (socket : Recorder) : Caller where
  opening := opening
  socket := socket
  clock := now
  checks := c.checks ++ looked c.opening.phase opening.phase now
  sendings := c.sendings ++ socket.attempts.toList.map (Sending.mk now)
  read := c.read ++ c.socket.arrivals.take (c.socket.arrivals.length - socket.arrivals.length)

def step (c : Caller) (now : Instant) : Caller :=
  let x := c.opening.step Recorder.socket now { c.socket with attempts := {} }
  c.noted now x.1.1 x.2

def steps (c : Caller) (times : List Instant) : Caller := times.foldl step c

inductive Reached (w : Call) : Caller → Prop
  | start (r : Recorder) : Reached w (start w r)
  | step {c : Caller} (hc : Reached w c) (now : Instant) (ht : c.clock ≤ now) : Reached w (c.step now)
  /-- More mail arrives, and from now on the socket may do anything. -/
  | turn {c : Caller} (hc : Reached w c) (r : Recorder) (hmail : c.socket.arrivals <+: r.arrivals) :
      Reached w { c with socket := r }

def InTurn (c : Caller) (times : List Instant) : Prop := (c.clock :: times).Pairwise (· ≤ ·)

instance (c : Caller) (times : List Instant) : Decidable (c.InTurn times) :=
  inferInstanceAs (Decidable ((c.clock :: times).Pairwise (· ≤ ·)))

theorem Reached.steps {w : Call} {c : Caller} (hc : Reached w c) {times : List Instant} (ht : c.InTurn times) :
    Reached w (c.steps times) := by
  induction times generalizing c with
  | nil => exact hc
  | cons now times ih =>
    obtain ⟨hfirst, hrest⟩ := List.pairwise_cons.mp ht
    exact ih (hc.step now (hfirst now List.mem_cons_self)) hrest

/-- What the client has agreed on is what the last datagram that it read says, and this answers its last request. -/
def Answered (w : Call) (c : Caller) (agreed : Agreement) : Prop :=
  ∃ n octets p, c.requests.length = n + 1 ∧ c.read.getLast? = some (.datagram w.target octets) ∧
    w.Answers n octets p ∧ agreed = ⟨Seq.next p.sequence, Seq.next (w.sequence n)⟩

/-- The request in hand is the next one, and it is time for it unless it is too late. -/
structure Due (w : Call) (c : Caller) : Prop where
  asks : c.opening.Asks w c.requests.length
  checks : c.checks.length = c.requests.length
  waited : ∀ x ∈ c.requests, x.moment + w.interval ≤ c.clock ∨ w.deadline ≤ c.clock

structure Cleared (w : Call) (c : Caller) : Prop where
  asks : c.opening.Asks w c.requests.length
  checks : c.checks.length = c.requests.length + 1
  timely : ∀ t, c.checks[c.requests.length]? = some t → t < w.deadline ∧ t ≤ c.clock

structure Asked (w : Call) (c : Caller) (n : Nat) : Prop where
  asked : c.requests.length = n + 1
  checks : c.checks.length = n + 1
  asks : c.opening.Asks w n
  past : ∀ x ∈ c.requests, x.moment ≤ c.clock

/-- The last request has been sent, and the next one waits for its time. -/
structure Asking (w : Call) (c : Caller) (n : Nat) : Prop where
  asked : c.requests.length = n + 1
  checks : c.checks.length = n + 1
  asks : c.opening.Asks w n
  waits : ∀ x ∈ c.requests, x.moment + w.interval ≤ c.opening.retryAt ∨ w.deadline ≤ c.opening.retryAt

def Stands (w : Call) (c : Caller) : Opening.Phase → Prop
  | .requesting => c.Due w
  | .checked => c.Cleared w
  | .asked => ∃ n, c.Asked w n
  | .listening => ∃ n, c.Asking w n
  | .confirming agreed | .finished (.ok agreed) => c.Answered w agreed
  | .finished (.error (.timeout d)) => w.deadline ≤ c.clock ∧ d = w.timeout
  | _ => True

/-- Requests number by number, each with its look at the clock: before the deadline, not after the request, and an
interval after every request before it. -/
structure InOrder (w : Call) (checks : List Instant) (requests : List Sending) : Prop where
  numbered : ∀ (k : Nat) (x : Sending), requests[k]? = some x →
    x.attempt.target = w.target ∧ x.attempt.packet = .request (w.sequence k)
  checked : ∀ (k : Nat) (x : Sending), requests[k]? = some x →
    ∃ t, checks[k]? = some t ∧ t < w.deadline ∧ t ≤ x.moment
  rested : ∀ (j k : Nat) (x : Sending) (t : Instant), requests[j]? = some x → checks[k]? = some t → j < k →
    x.moment + w.interval ≤ t

variable {w : Call} {c : Caller} {now : Instant}

theorem InOrder.apart {checks : List Instant} {requests : List Sending} (h : InOrder w checks requests) :
    requests.Pairwise fun x y => x.moment + w.interval ≤ y.moment := by
  refine List.pairwise_iff_getElem.mpr fun j k hj hk hjk => ?_
  obtain ⟨t, ht, -, hle⟩ := h.checked k requests[k] (List.getElem?_eq_getElem hk)
  exact Nat.le_trans (h.rested j k _ t (List.getElem?_eq_getElem hj) ht hjk) hle

theorem InOrder.look {checks : List Instant} {requests : List Sending} (h : InOrder w checks requests)
    (hwaited : ∀ x ∈ requests, x.moment + w.interval ≤ now) : InOrder w (checks ++ [now]) requests where
  numbered := h.numbered
  checked k x hx := by
    obtain ⟨t, ht, htimely⟩ := h.checked k x hx
    exact ⟨t, by rw [List.getElem?_append_left (List.getElem?_eq_some_iff.mp ht).1, ht], htimely⟩
  rested j k x t hx ht hjk := by
    rw [List.getElem?_append] at ht
    split at ht
    · exact h.rested j k x t hx ht hjk
    · obtain ⟨-, rfl⟩ := List.getElem?_eq_some_iff.mp ht
      simpa using hwaited x (List.mem_of_getElem? hx)

theorem InOrder.send {checks : List Instant} {requests : List Sending} (h : InOrder w checks requests)
    (hlength : checks.length = requests.length + 1)
    (htimely : ∀ t, checks[requests.length]? = some t → t < w.deadline ∧ t ≤ now) (failure : Option IoKind) :
    InOrder w checks (requests ++ [⟨now, w.target, .request (w.sequence requests.length), failure⟩]) := by
  have hcases {k : Nat} {x : Sending}
      (hx : (requests ++ [⟨now, w.target, .request (w.sequence requests.length), failure⟩])[k]? = some x) :
      requests[k]? = some x ∨
        k = requests.length ∧ x = ⟨now, w.target, .request (w.sequence requests.length), failure⟩ := by
    rw [List.getElem?_append] at hx
    split at hx
    · exact .inl hx
    · obtain ⟨hk, rfl⟩ := List.getElem?_eq_some_iff.mp hx
      simp only [List.length_singleton] at hk
      exact .inr ⟨by omega, by simp⟩
  refine ⟨fun k x hx => ?_, fun k x hx => ?_, fun j k x t hx ht hjk => ?_⟩
  · rcases hcases hx with hx | ⟨rfl, rfl⟩
    · exact h.numbered k x hx
    · exact ⟨rfl, rfl⟩
  · rcases hcases hx with hx | ⟨rfl, rfl⟩
    · exact h.checked k x hx
    · have ht := List.getElem?_eq_getElem (show requests.length < checks.length by omega)
      exact ⟨_, ht, htimely _ ht⟩
  · rcases hcases hx with hx | ⟨rfl, rfl⟩
    · exact h.rested j k x t hx ht hjk
    · have hlt := (List.getElem?_eq_some_iff.mp ht).1
      omega

structure OnCourse (w : Call) (c : Caller) : Prop where
  serves : c.opening.Serves w
  inOrder : InOrder w c.checks c.requests
  stands : c.Stands w c.opening.phase.aim

theorem requests_noted (o : Opening) (r : Recorder) : (c.noted now o r).requests =
    c.requests ++ ((r.attempts.toList.filter fun a => a.packet.connectRequest).map (Sending.mk now)) := by
  simp [requests, noted, List.filter_map, Function.comp_def]

theorem OnCourse.due (h : c.OnCourse w) (haim : c.opening.phase.aim = .requesting) : c.Due w := by
  have hstands := h.stands
  rwa [haim] at hstands

theorem OnCourse.cleared (h : c.OnCourse w) (haim : c.opening.phase.aim = .checked) : c.Cleared w := by
  have hstands := h.stands
  rwa [haim] at hstands

theorem OnCourse.asked (h : c.OnCourse w) (hp : c.opening.phase = .asked) : ∃ n, c.Asked w n := by
  have hstands := h.stands
  rwa [hp] at hstands

theorem OnCourse.asking (h : c.OnCourse w) (hp : c.opening.phase = .listening) : ∃ n, c.Asking w n := by
  have hstands := h.stands
  rwa [hp] at hstands

theorem Stands.frame {c' : Caller} {phase phase' : Opening.Phase} (h : c.Stands w phase)
    (hopening : c'.opening = c.opening.enter phase') (hrequests : c'.requests = c.requests)
    (hchecks : c'.checks = c.checks) (hread : c'.read = c.read) (ht : c.clock ≤ c'.clock) : c'.Stands w phase := by
  have hanswered : ∀ {agreed}, c.Answered w agreed → c'.Answered w agreed := by
    simp only [Answered, hrequests, hread, imp_self, implies_true]
  cases phase with
  | requesting =>
    refine ⟨by rw [hopening, hrequests]; exact h.asks.enter _, by rw [hchecks, hrequests, h.checks], fun x hx => ?_⟩
    exact (h.waited x (hrequests ▸ hx)).imp (Nat.le_trans · ht) (Nat.le_trans · ht)
  | checked =>
    refine ⟨by rw [hopening, hrequests]; exact h.asks.enter _, by rw [hchecks, hrequests, h.checks], fun t ht' => ?_⟩
    rw [hchecks, hrequests] at ht'
    exact (h.timely t ht').imp_right (Nat.le_trans · ht)
  | asked =>
    obtain ⟨n, hasked, hlooked, hasks, hpast⟩ := h
    refine ⟨n, hrequests ▸ hasked, hchecks ▸ hlooked, by rw [hopening]; exact hasks.enter _, fun x hx => ?_⟩
    exact Nat.le_trans (hpast x (hrequests ▸ hx)) ht
  | listening =>
    obtain ⟨n, hasked, hlooked, hasks, hwaits⟩ := h
    refine ⟨n, hrequests ▸ hasked, hchecks ▸ hlooked, by rw [hopening]; exact hasks.enter _, ?_⟩
    rw [hopening, hrequests]
    exact hwaits
  | confirming agreed => exact hanswered h
  | finished result =>
    cases result with
    | ok agreed => exact hanswered h
    | error e =>
      cases e with
      | timeout d => exact ⟨Nat.le_trans h.1 ht, h.2⟩
      | _ => trivial
  | _ => trivial

theorem Stands.answered {phase : Opening.Phase} (h : c.Stands w phase.aim) {agreed : Agreement}
    (ha : phase.agreed? = some agreed) : c.Answered w agreed := by
  cases phase with
  | confirming | awaitingConfirm => exact Option.some.inj ha ▸ h
  | finished result =>
    cases result with
    | ok => exact Option.some.inj ha ▸ h
    | error => cases ha
  | _ => cases ha

theorem requests_noted_of_quiet {o : Opening} {r : Recorder}
    (h : ∀ a ∈ r.attempts.toList, a.packet.connectRequest = false) : (c.noted now o r).requests = c.requests := by
  rw [requests_noted, List.filter_eq_nil_iff.mpr (by simpa using h), List.map_nil, List.append_nil]

theorem read_noted_of_unread {o : Opening} {r : Recorder} (h : r.arrivals = c.socket.arrivals) :
    (c.noted now o r).read = c.read := by
  simp [noted, h]

theorem looked_of_ne {before after : Opening.Phase} (h : before ≠ .requesting ∨ after ≠ .checked) :
    looked before after now = [] := by
  unfold looked
  split
  · simp at h
  · rfl

theorem looked_of_aim {before after : Opening.Phase} (h : after.aim = before.aim) : looked before after now = [] :=
  looked_of_ne <| by
    by_cases hb : before = .requesting
    · refine .inr fun ha => ?_
      rw [ha, hb] at h
      cases h
    · exact .inl hb

theorem checks_noted {o : Opening} (h : c.opening.phase ≠ .requesting ∨ o.phase ≠ .checked) (r : Recorder) :
    (c.noted now o r).checks = c.checks := by
  simp [noted, looked_of_ne h]

theorem OnCourse.check (h : c.OnCourse w) (ht : c.clock ≤ now) (hp : c.opening.phase = .requesting)
    (hbefore : now < w.deadline) {r : Recorder} (hnew : r.attempts.toList = []) :
    (c.noted now (c.opening.enter .checked) r).OnCourse w := by
  have hdue := h.due (by rw [hp]; rfl)
  have hrequests : (c.noted now (c.opening.enter .checked) r).requests = c.requests :=
    requests_noted_of_quiet (by simp [hnew])
  have hchecks : (c.noted now (c.opening.enter .checked) r).checks = c.checks ++ [now] := by
    simp [Caller.noted, looked, Opening.enter, hp]
  -- The deadline is not over, so all that has been waited for is the interval.
  have hwaited : ∀ x ∈ c.requests, x.moment + w.interval ≤ now := fun x hx =>
    (hdue.waited x hx).elim (Nat.le_trans · ht) fun hlate =>
      absurd (Nat.le_trans hlate ht) (Nat.not_le_of_lt hbefore)
  refine ⟨h.serves.enter _, ?_, ?_, ?_, fun t ht' => ?_⟩
  · rw [hchecks, hrequests]
    exact h.inOrder.look hwaited
  · rw [hrequests]
    exact hdue.asks.enter _
  · rw [hchecks, hrequests, List.length_append, hdue.checks, List.length_singleton]
  · rw [hchecks, hrequests, ← hdue.checks, List.getElem?_concat_length, Option.some.injEq] at ht'
    exact ht' ▸ ⟨hbefore, Nat.le_refl _⟩

theorem OnCourse.send (h : c.OnCourse w) (ht : c.clock ≤ now) (haim : c.opening.phase.aim = .checked) {o : Opening}
    {r : Recorder} {failure : Option IoKind}
    (hnew : r.attempts.toList = [⟨c.opening.target, .request c.opening.request, failure⟩])
    (ho : o = c.opening.enter .asked ∨ ∃ k, failure = some k ∧
      o = c.opening.enter (.finished (.error (.io (.injected k))))) : (c.noted now o r).OnCourse w := by
  have hcleared := h.cleared haim
  have hrequests : (c.noted now o r).requests =
      c.requests ++ [⟨now, w.target, .request (w.sequence c.requests.length), failure⟩] := by
    rw [requests_noted, hnew, hcleared.asks.target, hcleared.asks.request]
    rfl
  have hp : c.opening.phase ≠ .requesting := fun hp => by simp [hp, Opening.Phase.aim] at haim
  have hchecks : (c.noted now o r).checks = c.checks := checks_noted (.inl hp) r
  have htimely : ∀ t, c.checks[c.requests.length]? = some t → t < w.deadline ∧ t ≤ now := fun t ht' =>
    (hcleared.timely t ht').imp_right (Nat.le_trans · ht)
  have hinOrder : InOrder w (c.noted now o r).checks (c.noted now o r).requests := by
    rw [hchecks, hrequests]
    exact h.inOrder.send hcleared.checks htimely failure
  rcases ho with rfl | ⟨k, -, rfl⟩
  · refine ⟨h.serves.enter _, hinOrder, c.requests.length, by simp [hrequests], hchecks ▸ hcleared.checks,
      hcleared.asks.enter _, fun x hx => ?_⟩
    have hapart := hinOrder.apart
    rw [hrequests] at hx hapart
    rcases List.mem_append.mp hx with hx | hx
    · have hlast := (List.pairwise_append.mp hapart).2.2 x hx _ (List.mem_singleton_self _)
      exact Nat.le_trans (Nat.le_add_right _ _) hlast
    · exact Nat.le_of_eq (congrArg Sending.moment (List.mem_singleton.mp hx))
  · exact ⟨h.serves.enter _, hinOrder, trivial⟩

/-- One case for each thing that a step can do. Only a look at the clock and a request touch the order of requests,
and only a reply brings about an agreement. -/
theorem OnCourse.noted (h : c.OnCourse w) (ht : c.clock ≤ now) {o : Opening} {r : Recorder}
    (hm : c.opening.Moved now c.socket.arrivals o r.attempts.toList r.arrivals) : (c.noted now o r).OnCourse w := by
  have hserves := h.serves.moved hm
  generalize hnew : r.attempts.toList = new at hm
  generalize hrest : r.arrivals = rest at hm
  -- A step that makes no request and no look at the clock before one leaves their order as it is.
  have hquiet (hnone : ∀ a ∈ new, a.packet.connectRequest = false)
      (hlooked : looked c.opening.phase o.phase now = []) : (c.noted now o r).requests = c.requests ∧
        (c.noted now o r).checks = c.checks ∧ InOrder w (c.noted now o r).checks (c.noted now o r).requests := by
    have hrequests : (c.noted now o r).requests = c.requests := requests_noted_of_quiet (hnew ▸ hnone)
    have hchecks : (c.noted now o r).checks = c.checks := by simp [Caller.noted, hlooked]
    exact ⟨hrequests, hchecks, by rw [hrequests, hchecks]; exact h.inOrder⟩
  cases hm with
  | checked hphase hbefore => exact h.check ht hphase (h.serves.deadline ▸ hbefore) hnew
  | asked haim failure =>
    exact h.send ht haim hnew (Opening.afterSend_cases c.opening (c.opening.enter .asked) failure)
  | expired hlate =>
    obtain ⟨-, -, hinOrder⟩ := hquiet (List.forall_mem_nil _) (looked_of_ne (.inr nofun))
    exact ⟨hserves, hinOrder, h.serves.deadline ▸ hlate, h.serves.timeout⟩
  | scheduled hphase =>
    obtain ⟨hrequests, hchecks, hinOrder⟩ := hquiet (List.forall_mem_nil _) (looked_of_ne (.inr nofun))
    obtain ⟨n, hasked, hlooked, hasks, hpast⟩ := h.asked hphase
    refine ⟨hserves, hinOrder, n, hrequests ▸ hasked, hchecks ▸ hlooked, hasks.listeningFrom now, fun x hx => ?_⟩
    have hle := Nat.le_trans (hpast x (hrequests ▸ hx)) ht
    exact (h.serves.retryAt_listeningFrom now).imp_left (Nat.le_trans (Nat.add_le_add_right hle _))
  | renewed hphase hretry =>
    obtain ⟨hrequests, hchecks, hinOrder⟩ := hquiet (List.forall_mem_nil _) (looked_of_ne (.inr nofun))
    obtain ⟨n, hasked, hlooked, hasks, hwaits⟩ := h.asking hphase
    refine ⟨hserves, hinOrder, ?_, by rw [hrequests, hchecks, hasked, hlooked], ?_⟩
    · rw [hrequests, hasked]
      exact hasks.renewed
    · rw [hrequests]
      exact fun x hx => (hwaits x hx).imp (Nat.le_trans · hretry) (Nat.le_trans · hretry)
  | heard hphase hmail hreply =>
    obtain ⟨hrequests, -, hinOrder⟩ := hquiet (List.forall_mem_nil _) (looked_of_ne (.inr nofun))
    obtain ⟨n, hasked, -, hasks, -⟩ := h.asking hphase
    obtain ⟨-, p, hanswers, rfl⟩ := hasks.replyIn?_eq_some.mp hreply
    refine ⟨hserves, hinOrder, n, _, p, hrequests ▸ hasked, ?_, hanswers, ?_⟩
    · simp [Caller.noted, hrest, hmail, hasks.target]
    · rw [Opening.expectedAck, hasks.request]
  | @listened hphase phase haim =>
    have hsame : phase.aim = c.opening.phase.aim := by rw [haim, hphase]; rfl
    obtain ⟨hrequests, hchecks, hinOrder⟩ := hquiet (List.forall_mem_nil _) (looked_of_aim hsame)
    obtain ⟨n, hasked, hlooked, hasks, hwaits⟩ := h.asking hphase
    refine ⟨hserves, hinOrder, ?_⟩
    change Stands w _ phase.aim
    rw [haim]
    exact ⟨n, hrequests ▸ hasked, hchecks ▸ hlooked, hasks.enter phase, hrequests ▸ hwaits⟩
  | @confirmed agreed haim failure =>
    have hstands := h.stands
    rw [haim] at hstands
    have hp : c.opening.phase ≠ .requesting := fun hp => by simp [hp, Opening.Phase.aim] at haim
    obtain ⟨hrequests, hchecks, hinOrder⟩ := hquiet (List.forall_mem_singleton.mpr rfl) (looked_of_ne (.inl hp))
    refine ⟨hserves, hinOrder, ?_⟩
    rcases Opening.afterSend_cases c.opening (c.opening.enter (.finished (.ok agreed))) failure with
      hcase | ⟨k, -, hcase⟩ <;> rw [hcase] at hrequests hchecks ⊢
    · exact hstands.frame rfl hrequests hchecks (read_noted_of_unread hrest) ht
    · trivial
  | @waited phase haim =>
    obtain ⟨hrequests, hchecks, hinOrder⟩ := hquiet (List.forall_mem_nil _) (looked_of_aim haim)
    refine ⟨hserves, hinOrder, ?_⟩
    change Stands w _ phase.aim
    rw [haim]
    exact h.stands.frame rfl hrequests hchecks (read_noted_of_unread hrest) ht
  | failed =>
    obtain ⟨-, -, hinOrder⟩ := hquiet (List.forall_mem_nil _) (looked_of_ne (.inr nofun))
    exact ⟨hserves, hinOrder, trivial⟩

theorem OnCourse.step (h : c.OnCourse w) (ht : c.clock ≤ now) : (c.step now).OnCourse w := by
  obtain ⟨new, hnew, hmoved⟩ := c.opening.step_leads now { c.socket with attempts := {} }
  rw [Queue.toList_empty, List.nil_append] at hnew
  exact h.noted ht (hnew ▸ hmoved)

theorem OnCourse.turn (h : c.OnCourse w) (r : Recorder) : OnCourse w { c with socket := r } := by
  have hsame : c.opening = c.opening.enter c.opening.phase := rfl
  exact ⟨h.serves, h.inOrder, h.stands.frame hsame rfl rfl rfl (Nat.le_refl _)⟩

/-- With nothing new handed to its socket the client has come to this opening, and this mail is left. -/
structure ComesTo (c : Caller) (o : Opening) (rest : List Recorder.Arrival) (c' : Caller) : Prop where
  opening : c'.opening = o
  checks : c'.checks = c.checks
  sendings : c'.sendings = c.sendings
  mail : c'.socket.arrivals = rest
  isOpen : c'.socket.closed = false

variable {n : Nat} {rest : List Recorder.Arrival}

theorem ComesTo.trans {o o' : Opening} {rest' : List Recorder.Arrival} {c₁ c₂ : Caller} (h : ComesTo c o rest c₁)
    (h' : ComesTo c₁ o' rest' c₂) : ComesTo c o' rest' c₂ :=
  ⟨h'.opening, h'.checks.trans h.checks, h'.sendings.trans h.sendings, h'.mail, h'.isOpen⟩

theorem OnCourse.listening (h : c.OnCourse w) (hlistens : c.opening.phase.listens = true) :
    ∃ n, c.requests.length = n + 1 ∧ c.opening.Asks w n := by
  have hstands := h.stands
  cases hp : c.opening.phase with
  | asked =>
    rw [hp] at hstands
    obtain ⟨n, hn⟩ := hstands
    exact ⟨n, hn.asked, hn.asks⟩
  | listening | awaitingReply =>
    rw [hp] at hstands
    obtain ⟨n, hn⟩ := hstands
    exact ⟨n, hn.asked, hn.asks⟩
  | _ => simp [hp, Opening.Phase.listens] at hlistens

end Caller

end DatagramStreams
