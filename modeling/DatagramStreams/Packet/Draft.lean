import DatagramStreams.Packet.Basic

/-! Drafts of packets. A draft is filled field by field, later values replace earlier ones, and
`build` refuses the combinations that no peer may see.
-/

set_option autoImplicit false

namespace DatagramStreams.Packet

structure Draft where
  payload : Option Octets := none
  sequence : Option Seq := none
  reliable : Bool := false
  connectRequest : Bool := false
  close : Bool := false
  ack : Option Seq := none
  deriving DecidableEq, Repr

namespace Draft

inductive Field where
  | payload (b : Octets)
  | sequence (s : Seq)
  | ack (a : Seq)
  | reliable
  | connectRequest
  | close
  deriving DecidableEq, Repr

def set (d : Draft) : Field → Draft
  | .payload b => { d with payload := some b }
  | .sequence s => { d with sequence := some s }
  | .ack a => { d with ack := some a }
  | .reliable => { d with reliable := true }
  | .connectRequest => { d with connectRequest := true }
  | .close => { d with close := true }

def ofFields (fields : List Field) : Draft := fields.foldl set {}

def payloadFault (d : Draft) (b : Octets) : Option PacketError :=
  if d.connectRequest || d.close then some .payloadOnControlPacket
  else if b.isEmpty then some .emptyPayload
  else if b.length > maxPayload then some (.payloadTooLarge b.length)
  else if d.sequence.isNone then some .missingSequence
  else none

def fault (d : Draft) : Option PacketError :=
  if d.connectRequest && d.close then some .conflictingFlags
  else d.payload.bind d.payloadFault

/-- A sequence that was never given is 0. -/
def packet (d : Draft) : Packet where
  payload := d.payload
  sequence := d.sequence.getD 0
  reliable := d.reliable
  connectRequest := d.connectRequest
  close := d.close
  ack := d.ack

def build (d : Draft) : Except PacketError Packet :=
  match d.fault with
  | some e => .error e
  | none => .ok d.packet

end Draft

def data (isReliable : Bool) (s : Seq) (payload : Octets) : Except PacketError Packet :=
  Draft.build { payload := some payload, sequence := some s, reliable := isReliable }

def carrying (isReliable : Bool) (s : Seq) (payload : Octets) : Packet :=
  { payload := some payload, sequence := s, reliable := isReliable }

def payloadError? (payload : Octets) : Option PacketError :=
  if payload.isEmpty then some .emptyPayload
  else if payload.length > maxPayload then some (.payloadTooLarge payload.length)
  else none

theorem data_eq (isReliable : Bool) (s : Seq) (payload : Octets) :
    data isReliable s payload =
      match payloadError? payload with
      | some e => .error e
      | none => .ok (carrying isReliable s payload) := by
  unfold data Draft.build Draft.fault Draft.payloadFault payloadError?
  cases payload with
  | nil => simp
  | cons b r => by_cases h : (b :: r).length > maxPayload <;> simp [Draft.packet, carrying]

end DatagramStreams.Packet
