import DatagramStreams.Proofs.Stream.Lockstep
import DatagramStreams.Session.Server

/-! A connection over two sockets that answer alike, and what follows for a server's handling of it. The
handler, the timers and the streams see nothing of the socket but what becomes of sends to the peer.
Main statements: `poll_lockstep`, `receive_lockstep` and the sends; `Lockstep.bind` puts steps together.
-/

set_option autoImplicit false

namespace DatagramStreams

namespace Connection

variable {σ τ : Type} {sock : Socket σ} {sock' : Socket τ} {peer : Address} {owned : Bool}
  {R : σ → τ → Prop} {c : Connection} {s : σ} {t : τ}

structure Bound (peer : Address) (owned : Bool) (c : Connection) : Prop where
  peer : c.peer = peer
  owned : c.ownsSocket = owned

/-- The same connection on either side, and related sockets. -/
structure Lockstep (peer : Address) (owned : Bool) (R : σ → τ → Prop) (x : Connection × σ)
    (y : Connection × τ) : Prop where
  same : x.1 = y.1
  bound : x.1.Bound peer owned
  related : R x.2 y.2

theorem Lockstep.bind {x : Connection × σ} {y : Connection × τ} {f : Connection → σ → Connection × σ}
    {g : Connection → τ → Connection × τ} (h : Lockstep peer owned R x y)
    (hk : ∀ c s t, c.Bound peer owned → R s t → Lockstep peer owned R (f c s) (g c t)) :
    Lockstep peer owned R (f x.1 x.2) (g y.1 y.2) :=
  h.same ▸ hk x.1 x.2 y.2 h.bound h.related

theorem Lockstep.refl (hb : c.Bound peer owned) (hr : R s t) : Lockstep peer owned R (c, s) (c, t) :=
  ⟨rfl, hb, hr⟩

theorem Lockstep.record {x : Connection × σ} {y : Connection × τ} (h : Lockstep peer owned R x y)
    (what : Happening) : Lockstep peer owned R (x.1.record what, x.2) (y.1.record what, y.2) :=
  ⟨congrArg (Connection.record · what) h.same, ⟨h.bound.peer, h.bound.owned⟩, h.related⟩

theorem releaseSocket_related (h : sock.Alike sock' peer owned R) (hb : c.Bound peer owned) (hr : R s t) :
    R (c.releaseSocket sock s) (c.releaseSocket sock' t) := by
  unfold releaseSocket
  split
  · exact h.close (hb.owned ▸ ‹_›) s t hr
  · exact hr

theorem close_lockstep (h : sock.Alike sock' peer owned R) (hb : c.Bound peer owned) (hr : R s t)
    (now : Instant) : Lockstep peer owned R (c.close sock now s) (c.close sock' now t) := by
  unfold close
  split
  · obtain ⟨l, s₁, t₁, hs, ht, hp, hr⟩ := Link.sendQuietly_lockstep h hb.peer hr .closeNotice now
    simp only [hs, ht]
    exact ⟨rfl, ⟨hp, hb.owned⟩, releaseSocket_related h hb hr⟩
  · exact .refl hb hr

theorem closedByPeer_lockstep (h : sock.Alike sock' peer owned R) (hb : c.Bound peer owned) (hr : R s t) :
    Lockstep peer owned R (c.closedByPeer sock s) (c.closedByPeer sock' t) := by
  unfold closedByPeer
  split
  · exact ⟨rfl, ⟨hb.peer, hb.owned⟩, releaseSocket_related h hb hr⟩
  · exact .refl hb hr

theorem closeIfFatal_lockstep (h : sock.Alike sock' peer owned R) (hb : c.Bound peer owned) (hr : R s t)
    (result : Except ConnectionError Unit) (now : Instant) :
    (c.closeIfFatal sock result now s).1 = (c.closeIfFatal sock' result now t).1 ∧
      Lockstep peer owned R (c.closeIfFatal sock result now s).2 (c.closeIfFatal sock' result now t).2 := by
  cases result with
  | ok u => exact ⟨rfl, .refl hb hr⟩
  | error e =>
    refine ⟨rfl, ?_⟩
    simp only [closeIfFatal]
    split
    · exact close_lockstep h hb hr now
    · exact .refl hb hr

theorem sendReliable_lockstep (h : sock.Alike sock' peer owned R) (hb : c.Bound peer owned) (hr : R s t)
    (payload : Octets) (now : Instant) :
    (c.sendReliable sock payload now s).1 = (c.sendReliable sock' payload now t).1 ∧
      Lockstep peer owned R (c.sendReliable sock payload now s).2
        (c.sendReliable sock' payload now t).2 := by
  unfold sendReliable
  split
  · exact ⟨rfl, .refl hb hr⟩
  · obtain ⟨result, r, l, s₁, t₁, hs, ht, hp, hr⟩ :=
      ReliableStream.send_lockstep h hb.peer hr c.reliable payload now
    simp only [hs, ht]
    exact closeIfFatal_lockstep h (c := { c with
      reliable := r, link := l, journal := c.journal.noteSend payload result }) ⟨hp, hb.owned⟩ hr result now

theorem sendUnreliable_lockstep (h : sock.Alike sock' peer owned R) (hb : c.Bound peer owned) (hr : R s t)
    (payload : Octets) (now : Instant) :
    (c.sendUnreliable sock payload now s).1 = (c.sendUnreliable sock' payload now t).1 ∧
      Lockstep peer owned R (c.sendUnreliable sock payload now s).2
        (c.sendUnreliable sock' payload now t).2 := by
  unfold sendUnreliable
  split
  · exact ⟨rfl, .refl hb hr⟩
  · obtain ⟨result, u, l, s₁, t₁, hs, ht, hp, hr⟩ :=
      UnreliableStream.send_lockstep h hb.peer hr c.unreliable payload now
    simp only [hs, ht]
    exact closeIfFatal_lockstep h (c := { c with unreliable := u, link := l }) ⟨hp, hb.owned⟩ hr result now

theorem perform_lockstep (h : sock.Alike sock' peer owned R) (hb : c.Bound peer owned) (hr : R s t)
    (action : Action) (now : Instant) :
    Lockstep peer owned R (c.perform sock now s action) (c.perform sock' now t action) := by
  cases action with
  | sendReliable payload =>
    obtain ⟨hsame, hl⟩ := sendReliable_lockstep h hb hr payload now
    simp only [perform, hsame]
    exact hl.record _
  | sendUnreliable payload =>
    obtain ⟨hsame, hl⟩ := sendUnreliable_lockstep h hb hr payload now
    simp only [perform, hsame]
    exact hl.record _
  | close => exact (close_lockstep h hb hr now).record _
  | askState => exact (Lockstep.refl hb hr).record _

theorem performAll_lockstep (h : sock.Alike sock' peer owned R) (hb : c.Bound peer owned) (hr : R s t)
    (actions : List Action) (now : Instant) :
    Lockstep peer owned R (performAll sock now actions c s) (performAll sock' now actions c t) := by
  induction actions generalizing c s t with
  | nil => exact .refl hb hr
  | cons action rest ih => exact (perform_lockstep h hb hr action now).bind fun _ _ _ hb hr => ih hb hr

theorem notify_lockstep (h : sock.Alike sock' peer owned R) (hb : c.Bound peer owned) (hr : R s t)
    (call : Callback) (now : Instant) :
    Lockstep peer owned R (c.notify sock now call s) (c.notify sock' now call t) :=
  performAll_lockstep h (c := c.record (.callback call)) ⟨hb.peer, hb.owned⟩ hr _ now

theorem notifyAll_lockstep (h : sock.Alike sock' peer owned R) (hb : c.Bound peer owned) (hr : R s t)
    (calls : List Callback) (now : Instant) :
    Lockstep peer owned R (notifyAll sock now calls c s) (notifyAll sock' now calls c t) := by
  induction calls generalizing c s t with
  | nil => exact .refl hb hr
  | cons call rest ih => exact (notify_lockstep h hb hr call now).bind fun _ _ _ hb hr => ih hb hr

theorem announce_lockstep (h : sock.Alike sock' peer owned R) (hb : c.Bound peer owned) (hr : R s t)
    (now : Instant) : Lockstep peer owned R (c.announce sock now s) (c.announce sock' now t) := by
  unfold announce
  split
  · exact .refl hb hr
  · exact notify_lockstep h (c := { c with announced := true }) ⟨hb.peer, hb.owned⟩ hr .opened now

theorem dispatch_lockstep (h : sock.Alike sock' peer owned R) (hb : c.Bound peer owned) (hr : R s t)
    (now : Instant) : Lockstep peer owned R (c.dispatch sock now s) (c.dispatch sock' now t) :=
  notifyAll_lockstep h (c := { c with
    unreliable := c.unreliable.takeDelivered.2, reliable := c.reliable.takeDelivered.2 })
    ⟨hb.peer, hb.owned⟩ hr _ now

theorem pollStream_lockstep (h : sock.Alike sock' peer owned R) (hb : c.Bound peer owned) (hr : R s t)
    (now : Instant) : Lockstep peer owned R (c.pollStream sock now s) (c.pollStream sock' now t) := by
  obtain ⟨health, r, l, s₁, t₁, hs, ht, hp, hr⟩ :=
    ReliableStream.poll_lockstep h hb.peer hr c.reliable now
  simp only [pollStream, hs, ht]
  split
  · exact .refl ⟨hp, hb.owned⟩ hr
  · exact close_lockstep h (c := { c with reliable := r, link := l }) ⟨hp, hb.owned⟩ hr now

theorem finishClose_lockstep (h : sock.Alike sock' peer owned R) (hb : c.Bound peer owned) (hr : R s t)
    (now : Instant) : Lockstep peer owned R (c.finishClose sock now s) (c.finishClose sock' now t) := by
  unfold finishClose
  split
  · exact notify_lockstep h (c := { c with state := .closed }) ⟨hb.peer, hb.owned⟩ hr .closed now
  · exact .refl hb hr

theorem poll_lockstep (h : sock.Alike sock' peer owned R) (hb : c.Bound peer owned) (hr : R s t)
    (now : Instant) : (c.poll sock now s).1 = (c.poll sock' now t).1 ∧
      Lockstep peer owned R (c.poll sock now s).2 (c.poll sock' now t).2 := by
  unfold poll
  split
  · exact ⟨rfl, .refl hb hr⟩
  · exact ⟨rfl, (announce_lockstep h hb hr now).bind fun c _ _ hb hr => finishClose_lockstep h hb hr now⟩
  · refine ⟨rfl, ((announce_lockstep h hb hr now).bind
      fun c _ _ hb hr => dispatch_lockstep h hb hr now).bind (f := fun c s =>
        if c.isOpen then c.pollStream sock now s else (c, s)) (g := fun c t =>
          if c.isOpen then c.pollStream sock' now t else (c, t)) fun c s t hb hr => ?_⟩
    split
    · exact pollStream_lockstep h hb hr now
    · exact .refl hb hr

theorem bound_receiveUnreliable (hb : c.Bound peer owned) (p : Packet) :
    (c.receiveUnreliable p).Bound peer owned := by
  unfold receiveUnreliable
  split <;> exact ⟨hb.peer, hb.owned⟩

theorem receiveData_lockstep (h : sock.Alike sock' peer owned R) (hb : c.Bound peer owned) (hr : R s t)
    (p : Packet) (now : Instant) : (c.receiveData sock p now s).1 = (c.receiveData sock' p now t).1 ∧
      Lockstep peer owned R (c.receiveData sock p now s).2 (c.receiveData sock' p now t).2 := by
  unfold receiveData
  split
  · obtain ⟨result, r, l, s₁, t₁, hs, ht, hp, hr⟩ :=
      ReliableStream.receive_lockstep h hb.peer hr c.reliable p now
    have hb₁ : ({ c with reliable := r, link := l } : Connection).Bound peer owned := ⟨hp, hb.owned⟩
    simp only [hs, ht]
    cases result with
    | ok u => exact ⟨rfl, .refl (bound_receiveUnreliable hb₁ p) hr⟩
    | error e => exact ⟨rfl, close_lockstep h hb₁ hr now⟩
  · exact ⟨rfl, .refl (bound_receiveUnreliable hb p) hr⟩

theorem receive_lockstep (h : sock.Alike sock' peer owned R) (hb : c.Bound peer owned) (hr : R s t)
    (source : Address) (p : Packet) (now : Instant) :
    (c.receive sock source p now s).1 = (c.receive sock' source p now t).1 ∧
      Lockstep peer owned R (c.receive sock source p now s).2 (c.receive sock' source p now t).2 := by
  unfold receive
  split
  · exact ⟨rfl, .refl hb hr⟩
  · split
    · exact ⟨rfl, closedByPeer_lockstep h hb hr⟩
    · exact receiveData_lockstep h hb hr p now

inductive Use where
  | sendReliable (payload : Octets)
  | sendUnreliable (payload : Octets)
  | setSendTimeout (limit : Span)
  | poll
  | close

def Use.run (sock : Socket σ) (now : Instant) (what : Use) (c : Connection) (s : σ) : Connection × σ :=
  match what with
  | .sendReliable payload => (c.sendReliable sock payload now s).2
  | .sendUnreliable payload => (c.sendUnreliable sock payload now s).2
  | .setSendTimeout limit => (c.setSendTimeout limit, s)
  | .poll => (c.poll sock now s).2
  | .close => c.close sock now s

theorem Use.run_lockstep (h : sock.Alike sock' peer owned R) (hb : c.Bound peer owned) (hr : R s t)
    (what : Use) (now : Instant) :
    Lockstep peer owned R (what.run sock now c s) (what.run sock' now c t) := by
  cases what with
  | sendReliable payload => exact (sendReliable_lockstep h hb hr payload now).2
  | sendUnreliable payload => exact (sendUnreliable_lockstep h hb hr payload now).2
  | setSendTimeout limit => exact ⟨rfl, ⟨hb.peer, hb.owned⟩, hr⟩
  | poll => exact (poll_lockstep h hb hr now).2
  | close => exact close_lockstep h hb hr now

end Connection

namespace Server

variable {σ τ : Type} {sock : Socket σ} {sock' : Socket τ} {peer : Address} {owned : Bool}
  {R : σ → τ → Prop} {c : Connection} {s : σ} {t : τ}

theorem receiveFrom_lockstep (h : sock.Alike sock' peer owned R) (hb : c.Bound peer owned) (hr : R s t)
    (source : Address) (p : Packet) (now : Instant) : Connection.Lockstep peer owned R
      (receiveFrom sock source p now c s) (receiveFrom sock' source p now c t) := by
  obtain ⟨hsame, hl⟩ := Connection.receive_lockstep h hb hr source p now
  unfold receiveFrom
  rcases hx : c.receive sock source p now s with ⟨result, c₁, s₁⟩
  rcases hy : c.receive sock' source p now t with ⟨result', c₂, t₁⟩
  rw [hx, hy] at hsame hl
  obtain rfl : result = result' := hsame
  obtain rfl : c₁ = c₂ := hl.same
  cases result with
  | ok u => exact .refl hl.bound hl.related
  | error e => exact Connection.close_lockstep h hl.bound hl.related now

theorem pollOne_lockstep (h : sock.Alike sock' peer owned R) (hb : c.Bound peer owned) (hr : R s t)
    (now : Instant) :
    Connection.Lockstep peer owned R (pollOne sock now c s) (pollOne sock' now c t) := by
  obtain ⟨hsame, hl⟩ := Connection.poll_lockstep h hb hr now
  unfold pollOne
  rcases hx : c.poll sock now s with ⟨result, c₁, s₁⟩
  rcases hy : c.poll sock' now t with ⟨result', c₂, t₁⟩
  rw [hx, hy] at hsame hl
  obtain rfl : result = result' := hsame
  obtain rfl : c₁ = c₂ := hl.same
  cases result with
  | ok u => exact .refl hl.bound hl.related
  | error e =>
    cases e with
    | closed => exact .refl hl.bound hl.related
    | _ => exact Connection.close_lockstep h hl.bound hl.related now

end Server

end DatagramStreams
