import DatagramStreams.Transport.Socket

/-! A socket of the operating system. Closing it takes the handle from all its holders at once, but a wait for
something to read that has begun before has a handle of its own, and the descriptor is given back with the last
handle.
-/

set_option autoImplicit false

namespace DatagramStreams

structure UdpSocket (ω : Type) where
  system : ω
  held : Bool := true
  /-- A wait for something to read is pending. -/
  awaited : Bool := false

namespace UdpSocket

variable {ω : Type}

def keep (descriptor : Socket ω) (u : UdpSocket ω) (held awaited : Bool) : UdpSocket ω where
  system := if (u.held || u.awaited) && !(held || awaited) then descriptor.close u.system else u.system
  held
  awaited

def await (descriptor : Socket ω) (waits : Bool) (u : UdpSocket ω) : UdpSocket ω :=
  u.keep descriptor u.held waits

def socket (descriptor : Socket ω) : Socket (UdpSocket ω) where
  localAddress u := if u.held then descriptor.localAddress u.system else .error .socketClosed
  send a p u :=
    if u.held then
      let (r, system) := descriptor.send a p u.system
      (r, { u with system })
    else (.error .socketClosed, u)
  receive n u :=
    if u.held then
      let (r, system) := descriptor.receive n u.system
      (r, { u with system })
    else (.error .socketClosed, u)
  readable u := if u.held then descriptor.readable u.system else .failed .socketClosed
  stillReadable u := descriptor.stillReadable u.system
  writable u := if u.held then descriptor.writable u.system else .failed .socketClosed
  stillWritable u := descriptor.stillWritable u.system
  close u := u.keep descriptor false u.awaited

end UdpSocket

end DatagramStreams
