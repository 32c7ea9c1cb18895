import DatagramStreams.Packet.Sequence

/-! The random sequences that handshakes start from, as a list still to be drawn. Behind its end every
draw is 0.
-/

set_option autoImplicit false

namespace DatagramStreams

structure Draws where
  coming : List Seq := []
  deriving DecidableEq, Repr

namespace Draws

def draw (d : Draws) : Seq × Draws :=
  match d.coming with
  | [] => (0, d)
  | s :: rest => (s, { coming := rest })

end Draws

end DatagramStreams
