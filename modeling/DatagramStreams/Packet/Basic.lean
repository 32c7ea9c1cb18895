import DatagramStreams.Packet.Octets
import DatagramStreams.Packet.Sequence

/-! Packets of the protocol and the reasons for refusing one.
A header holds one flag octet and the sequence, an ACK adds two octets, the payload is the rest.
-/

set_option autoImplicit false

namespace DatagramStreams

inductive PacketError where
  | tooShort (length : Nat)
  | tooLong (length : Nat)
  | missingAckField (remaining : Nat)
  | emptyPayload
  | payloadTooLarge (length : Nat)
  | missingSequence
  | conflictingFlags
  | payloadOnControlPacket
  deriving DecidableEq, Repr

/-- An absent payload and an empty one are told apart; only the absent one is ever built. -/
structure Packet where
  payload : Option Octets := none
  sequence : Seq := 0
  reliable : Bool := false
  connectRequest : Bool := false
  close : Bool := false
  ack : Option Seq := none
  deriving DecidableEq, Repr

namespace Packet

def headerLength : Nat := 3
def ackLength : Nat := 2
def maxLength : Nat := 8192
def maxPayload : Nat := maxLength - headerLength - ackLength

def reliableBit : UInt8 := 1
def ackBit : UInt8 := 2
def connectRequestBit : UInt8 := 4
def closeBit : UInt8 := 8

def ackOnly (a : Seq) : Packet := { ack := some a }

def closeNotice : Packet := { close := true }

def request (s : Seq) : Packet := { connectRequest := true, sequence := s }

def reply (s a : Seq) : Packet := { connectRequest := true, sequence := s, ack := some a }

def withAck (p : Packet) (a : Seq) : Packet := { p with ack := some a }

def hasPayload (p : Packet) : Bool := p.payload.isSome

def hasAck (p : Packet) : Bool := p.ack.isSome

def nextSequence (p : Packet) : Seq := Seq.next p.sequence

def encodedLength (p : Packet) : Nat :=
  headerLength + (if p.hasAck then ackLength else 0) + (p.payload.getD []).length

end Packet

namespace PacketError

def message : PacketError → String
  | tooShort n => s!"datagram of {n} bytes is shorter than the {Packet.headerLength}-byte header"
  | tooLong n => s!"datagram of at least {n} bytes exceeds the maximum of {Packet.maxLength}"
  | missingAckField n => s!"ACK flag set but only {n} bytes remain for the ACK field"
  | emptyPayload => "payload cannot be empty"
  | payloadTooLarge n => s!"payload of {n} bytes exceeds the maximum of {Packet.maxPayload}"
  | missingSequence => "a packet with a payload must have its sequence set"
  | conflictingFlags => "a packet cannot be both CONNECT_REQUEST and CLOSE"
  | payloadOnControlPacket => "CONNECT_REQUEST and CLOSE packets cannot carry a payload"

def kind : PacketError → String
  | tooShort _ => "TooShort"
  | tooLong _ => "TooLong"
  | missingAckField _ => "MissingAckField"
  | emptyPayload => "EmptyPayload"
  | payloadTooLarge _ => "PayloadTooLarge"
  | missingSequence => "MissingSequence"
  | conflictingFlags => "ConflictingFlags"
  | payloadOnControlPacket => "PayloadOnControlPacket"

end PacketError

end DatagramStreams
