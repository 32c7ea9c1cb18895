import DatagramStreams.Packet.Basic

/-! How a packet reads in a log line: its sequence, then whatever else it carries.
-/

set_option autoImplicit false

namespace DatagramStreams.Packet

def hexDigit (n : Nat) : Char := "0123456789ABCDEF".toList.getD n '0'

def hexOctet (b : UInt8) : String :=
  String.ofList [hexDigit (b.toNat / 16), hexDigit (b.toNat % 16)]

def payloadText (b : Octets) : String := " ".intercalate (b.map hexOctet)

def text (p : Packet) : String :=
  "Packet\x7bseq=" ++ toString p.sequence.toNat ++
    (match p.ack with | some a => s!" ack={a.toNat}" | none => "") ++
    (if p.reliable then " RELIABLE" else "") ++
    (if p.connectRequest then " CONNECT_REQUEST" else "") ++
    (if p.close then " CLOSE" else "") ++
    (match p.payload with | some b => " payload=[" ++ payloadText b ++ "]" | none => "") ++
    "\x7d"

end DatagramStreams.Packet
