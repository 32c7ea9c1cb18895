import DatagramStreams.Proofs.Stream.Lockstep
import DatagramStreams.Transport.Recorder

/-! A socket that many peers are reached through. What becomes of a send is decided for each target by
itself, so that two runs can share the fate of one peer and differ in all others.
Main statement: `alike_alone`, a peer makes no difference between the shared socket and one of its own.
-/

set_option autoImplicit false

namespace DatagramStreams

structure Outlet where
  attempts : List Recorder.Attempt := []
  closed : Bool := false
  deriving DecidableEq, Repr

namespace Outlet

/-- What becomes of the `n`-th send to an address; a send that succeeds has no failure to name. -/
abbrev Fate := Address → Nat → Option IoKind

def sentTo (o : Outlet) (a : Address) : List Recorder.Attempt :=
  o.attempts.filter fun x => x.target = a

def passedTo (o : Outlet) (a : Address) : List Packet :=
  ((o.sentTo a).filter fun x => x.failure.isNone).map Recorder.Attempt.packet

def note (o : Outlet) (x : Recorder.Attempt) : Outlet := { o with attempts := o.attempts ++ [x] }

def send (fate : Fate) (target : Address) (p : Packet) (o : Outlet) : Except IoError Unit × Outlet :=
  let failure := fate target (o.sentTo target).length
  (match failure with
    | some k => .error (.injected k)
    | none => .ok (),
    o.note ⟨target, p, failure⟩)

def readable (o : Outlet) : Readiness := if o.closed then .failed .socketClosed else .pending

/-- Nothing is ever read here: packets are brought to whoever owns the socket. -/
def socket (fate : Fate) : Socket Outlet where
  localAddress _ := .ok Recorder.address
  send := send fate
  receive _ o := (.error (if o.closed then .socketClosed else .nothingQueued), o)
  readable := readable
  stillReadable := readable
  writable _ := .ready
  stillWritable _ := .ready
  close o := { o with closed := true }

variable {fate : Fate} {peer a : Address} {o : Outlet}

@[simp] theorem attempts_note (o : Outlet) (x : Recorder.Attempt) :
    (o.note x).attempts = o.attempts ++ [x] := rfl

theorem sentTo_note_self {x : Recorder.Attempt} (h : x.target = a) (o : Outlet) :
    (o.note x).sentTo a = o.sentTo a ++ [x] := by
  simp [sentTo, h]

theorem sentTo_note_other {x : Recorder.Attempt} (h : x.target ≠ a) (o : Outlet) :
    (o.note x).sentTo a = o.sentTo a := by
  simp [sentTo, h]

theorem snd_send (fate : Fate) (target : Address) (p : Packet) (o : Outlet) :
    (send fate target p o).2 = o.note ⟨target, p, fate target (o.sentTo target).length⟩ := rfl

theorem sentTo_send_other {target : Address} (h : target ≠ a) (p : Packet) (o : Outlet) :
    (send fate target p o).2.sentTo a = o.sentTo a :=
  sentTo_note_other h o

/-- The outlet of a peer that is served alone: all it has seen are the sends to this peer. -/
def aside (o : Outlet) (peer : Address) : Outlet := { attempts := o.sentTo peer }

theorem sentTo_aside (o : Outlet) (peer : Address) : (o.aside peer).sentTo peer = o.sentTo peer := by
  simp [aside, sentTo]

theorem aside_note_self {x : Recorder.Attempt} (h : x.target = a) (o : Outlet) :
    (o.note x).aside a = (o.aside a).note x := by
  rw [aside, sentTo_note_self h]
  rfl

theorem alike_alone (fate : Fate) (peer : Address) :
    (socket fate).Alike (socket fun _ => fate peer) peer false fun o o' => o' = o.aside peer where
  send := by
    rintro p o _ rfl
    refine ⟨by simp only [socket, send, sentTo_aside], ?_⟩
    simp only [socket, snd_send, sentTo_aside]
    exact (aside_note_self (x := ⟨peer, p, _⟩) rfl o).symm
  close h := by simp at h

end Outlet

end DatagramStreams
