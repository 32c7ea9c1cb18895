/-! Socket addresses: an IP address of either family, a port, and the zone of an IPv6 address.
-/

set_option autoImplicit false

namespace DatagramStreams

inductive Ip where
  | v4 (a b c d : UInt8)
  | v6 (groups : Vector UInt16 8)
  deriving DecidableEq, Repr

namespace Ip

def v4Any : Ip := .v4 0 0 0 0
def v4Loopback : Ip := .v4 127 0 0 1
def v6Any : Ip := .v6 (Vector.replicate 8 0)

def isUnspecified (ip : Ip) : Bool := ip = v4Any || ip = v6Any

end Ip

structure Address where
  ip : Ip
  port : UInt16
  zone : UInt32 := 0
  deriving DecidableEq, Repr

namespace Address

/-- The wildcard address of the same family, with a port still to be chosen. -/
def wildcardFor (a : Address) : Address :=
  match a.ip with
  | .v4 .. => { ip := Ip.v4Any, port := 0 }
  | .v6 _ => { ip := Ip.v6Any, port := 0 }

end Address

end DatagramStreams
