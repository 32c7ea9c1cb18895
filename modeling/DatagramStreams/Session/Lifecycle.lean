/-! States of a connection. It opens once, and every change names the state it starts from.
-/

set_option autoImplicit false

namespace DatagramStreams

inductive Lifecycle where
  | opened
  | closing
  | closed
  deriving DecidableEq, Repr

namespace Lifecycle

def initial : Lifecycle := .opened

/-- Moves from `source` to `target`, and tells whether the state was `source`. -/
def transition (state source target : Lifecycle) : Bool × Lifecycle :=
  if state = source then (true, target) else (false, state)

def label : Lifecycle → String
  | opened => "OPEN"
  | closing => "CLOSING"
  | closed => "CLOSED"

def title : Lifecycle → String
  | opened => "Open"
  | closing => "Closing"
  | closed => "Closed"

def ofLabel? (s : String) : Option Lifecycle := [opened, closing, closed].find? fun l => l.label = s

theorem ofLabel?_label (l : Lifecycle) : ofLabel? l.label = some l := by
  cases l <;> decide

end Lifecycle

end DatagramStreams
