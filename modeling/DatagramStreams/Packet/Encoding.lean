import DatagramStreams.Packet.Basic

/-! The datagram form of a packet. Main statements: a packet without an empty payload reads back
from its octets when they fit a datagram (`decode_encode`), and `encode` fills `encodedLength`.
-/

set_option autoImplicit false

namespace DatagramStreams.Packet

def flagOctet (p : Packet) : UInt8 :=
  (if p.reliable then reliableBit else 0) ||| (if p.hasAck then ackBit else 0) |||
    (if p.connectRequest then connectRequestBit else 0) ||| (if p.close then closeBit else 0)

def ackField : Option Seq → Octets
  | some a => [high a, low a]
  | none => []

def encode (p : Packet) : Octets :=
  p.flagOctet :: high p.sequence :: low p.sequence :: (ackField p.ack ++ p.payload.getD [])

def flagSet (flags bit : UInt8) : Bool := flags &&& bit != 0

def payloadOf : Octets → Option Octets
  | [] => none
  | b => some b

def ofFields (flags : UInt8) (s : Seq) (a : Option Seq) (rest : Octets) : Packet where
  payload := payloadOf rest
  sequence := s
  reliable := flagSet flags reliableBit
  connectRequest := flagSet flags connectRequestBit
  close := flagSet flags closeBit
  ack := a

/-- Combinations of flags are not looked at, and unassigned bits are ignored. -/
def parse : Octets → Except PacketError Packet
  | flags :: hi :: lo :: rest =>
    if flagSet flags ackBit then
      match rest with
      | ahi :: alo :: body => .ok (ofFields flags (word hi lo) (some (word ahi alo)) body)
      | _ => .error (.missingAckField rest.length)
    else .ok (ofFields flags (word hi lo) none rest)
  | short => .error (.tooShort short.length)

def decode (b : Octets) : Except PacketError Packet :=
  if b.length > maxLength then .error (.tooLong b.length) else parse b

def decode? (b : Octets) : Option Packet := (decode b).toOption

theorem length_encode (p : Packet) : p.encode.length = p.encodedLength := by
  cases h : p.ack <;> simp [encode, encodedLength, ackField, hasAck, h, headerLength, ackLength] <;>
    omega

theorem flagSet_reliable (p : Packet) : flagSet p.flagOctet reliableBit = p.reliable := by
  unfold flagOctet
  cases p.reliable <;> cases p.hasAck <;> cases p.connectRequest <;> cases p.close <;> decide

theorem flagSet_ack (p : Packet) : flagSet p.flagOctet ackBit = p.hasAck := by
  unfold flagOctet
  cases p.reliable <;> cases p.hasAck <;> cases p.connectRequest <;> cases p.close <;> decide

theorem flagSet_connectRequest (p : Packet) :
    flagSet p.flagOctet connectRequestBit = p.connectRequest := by
  unfold flagOctet
  cases p.reliable <;> cases p.hasAck <;> cases p.connectRequest <;> cases p.close <;> decide

theorem flagSet_close (p : Packet) : flagSet p.flagOctet closeBit = p.close := by
  unfold flagOctet
  cases p.reliable <;> cases p.hasAck <;> cases p.connectRequest <;> cases p.close <;> decide

theorem payloadOf_getD {o : Option Octets} (h : o ≠ some []) : payloadOf (o.getD []) = o := by
  match o with
  | none => rfl
  | some [] => exact absurd rfl h
  | some (_ :: _) => rfl

theorem parse_encode {p : Packet} (hp : p.payload ≠ some []) : parse p.encode = .ok p := by
  obtain ⟨payload, s, r, c, cl, a⟩ := p
  have hb := payloadOf_getD hp
  cases a <;>
    simp_all [encode, parse, flagSet_ack, hasAck, ackField, ofFields, word_high_low,
      flagSet_reliable, flagSet_connectRequest, flagSet_close]

theorem decode_encode {p : Packet} (hp : p.payload ≠ some []) (hl : p.encodedLength ≤ maxLength) :
    decode p.encode = .ok p := by
  rw [decode, length_encode, if_neg (by omega), parse_encode hp]

end DatagramStreams.Packet
