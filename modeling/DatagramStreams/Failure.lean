import DatagramStreams.Address.Text
import DatagramStreams.Packet.Basic
import DatagramStreams.Time.Text

/-! Causes of failure of a socket and of a connection, with their wording.
-/

set_option autoImplicit false

namespace DatagramStreams

inductive IoKind where
  | wouldBlock
  | notConnected
  | addressInUse
  | connectionReset
  | connectionRefused
  | interrupted
  | permissionDenied
  | brokenPipe
  | timedOut
  | other
  deriving DecidableEq, Repr

namespace IoKind

def all : List IoKind :=
  [wouldBlock, notConnected, addressInUse, connectionReset, connectionRefused, interrupted,
    permissionDenied, brokenPipe, timedOut, other]

def name : IoKind → String
  | wouldBlock => "WouldBlock"
  | notConnected => "NotConnected"
  | addressInUse => "AddrInUse"
  | connectionReset => "ConnectionReset"
  | connectionRefused => "ConnectionRefused"
  | interrupted => "Interrupted"
  | permissionDenied => "PermissionDenied"
  | brokenPipe => "BrokenPipe"
  | timedOut => "TimedOut"
  | other => "Other"

def ofName? (s : String) : Option IoKind := all.find? fun k => k.name = s

def isTransient : IoKind → Bool
  | connectionReset | connectionRefused | interrupted => true
  | _ => false

theorem ofName?_name (k : IoKind) : ofName? k.name = some k := by
  cases k <;> decide

end IoKind

/-- `injected` stands for a failure that the operating system reports. -/
inductive IoError where
  | nothingQueued
  | socketClosed
  | alreadyBound (a : Address)
  | noPortFree
  | injected (k : IoKind)
  deriving DecidableEq, Repr

namespace IoError

def kind : IoError → IoKind
  | nothingQueued => .wouldBlock
  | socketClosed => .notConnected
  | alreadyBound _ | noPortFree => .addressInUse
  | injected k => k

def ownText? : IoError → Option String
  | nothingQueued => none
  | socketClosed => some "socket is closed"
  | alreadyBound a => some (a.text ++ " is already bound")
  | noPortFree => some "no ephemeral port is free"
  | injected k => some ("injected " ++ k.name)

def message (e : IoError) : String := e.ownText?.getD "operation would block"

end IoError

inductive ConnectionError where
  | packet (e : PacketError)
  | violation (base ack : Seq) (acked outstanding : Nat)
  | timeout (after : Span)
  | closed
  | io (e : IoError)
  deriving DecidableEq, Repr

namespace ConnectionError

/-- A payload that cannot be sent is the caller's fault and leaves the connection alone. -/
def isFatal : ConnectionError → Bool
  | packet _ => false
  | _ => true

def kind : ConnectionError → String
  | packet e => "Packet." ++ e.kind
  | violation .. => "ProtocolViolation"
  | timeout _ => "Timeout"
  | closed => "ConnectionClosed"
  | io e => "Io." ++ e.kind.name

def message : ConnectionError → String
  | packet e => "malformed packet: " ++ e.message
  | violation base ack acked outstanding =>
    s!"protocol violation: ack {ack.toNat} against base {base.toNat} covers {acked} packets " ++
      s!"but only {outstanding} are outstanding"
  | timeout after => "connection attempt timed out after " ++ after.text
  | closed => "connection is closed"
  | io e => "I/O error: " ++ e.message

end ConnectionError

end DatagramStreams
