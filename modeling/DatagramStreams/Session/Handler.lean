import DatagramStreams.Address.Basic
import DatagramStreams.Failure
import DatagramStreams.Session.Lifecycle

/-! The application's side of a connection: callbacks, what a handler does inside them, and the
journal of both.
-/

set_option autoImplicit false

namespace DatagramStreams

inductive Callback where
  | opened
  | closed
  | reliable (payload : Octets)
  | unreliable (payload : Octets)
  deriving DecidableEq, Repr

def Callback.payload : Callback → Octets
  | reliable b | unreliable b => b
  | _ => []

inductive Action where
  | sendReliable (payload : Octets)
  | sendUnreliable (payload : Octets)
  | close
  | askState
  deriving DecidableEq, Repr

inductive Happening where
  | callback (c : Callback)
  | sentReliable (result : Except ConnectionError Unit)
  | sentUnreliable (result : Except ConnectionError Unit)
  | askedToClose
  | sawState (state : Lifecycle)

/-- A handler answers a callback with actions, and may look back at the journal before it, newest
entry first. -/
structure Handler where
  respond : List Happening → Callback → List Action

namespace Handler

/-- A line of a script. A send without octets of its own repeats what was just read. -/
inductive Line where
  | sendReliable (payload : Option Octets)
  | sendUnreliable (payload : Option Octets)
  | close
  | askState
  deriving DecidableEq, Repr

def Line.action (c : Callback) : Line → Action
  | .sendReliable b => .sendReliable (b.getD c.payload)
  | .sendUnreliable b => .sendUnreliable (b.getD c.payload)
  | .close => .close
  | .askState => .askState

structure Script where
  opened : List Line := []
  closed : List Line := []
  reliable : List Line := []
  unreliable : List Line := []
  deriving DecidableEq, Repr

def Script.lines (script : Script) : Callback → List Line
  | .opened => script.opened
  | .closed => script.closed
  | .reliable _ => script.reliable
  | .unreliable _ => script.unreliable

def ofScript (script : Script) : Handler := ⟨fun _ c => (script.lines c).map (Line.action c)⟩

end Handler

/-- A handler for every connection of a server, by its number. What it does may go by the peer. -/
abbrev HandlerFactory := Nat → Address → Handler

end DatagramStreams
