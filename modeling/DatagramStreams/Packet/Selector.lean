import DatagramStreams.Packet.Basic

/-! Named classes of packets, for faults that strike one kind of packet only.
-/

set_option autoImplicit false

namespace DatagramStreams.Packet

inductive Selector where
  | all
  | ack
  | noAck
  | reliable
  | unreliablePayload
  | connectRequest
  | notConnectRequest
  | close
  | oddSequence
  deriving DecidableEq, Repr

namespace Selector

def name : Selector → String
  | all => "all"
  | ack => "ack"
  | noAck => "no_ack"
  | reliable => "reliable"
  | unreliablePayload => "unreliable_payload"
  | connectRequest => "connect_request"
  | notConnectRequest => "not_connect_request"
  | close => "close"
  | oddSequence => "odd_sequence"

def every : List Selector :=
  [all, ack, noAck, reliable, unreliablePayload, connectRequest, notConnectRequest, close, oddSequence]

def ofName? (s : String) : Option Selector := every.find? fun x => x.name = s

def selects : Selector → Packet → Bool
  | all, _ => true
  | ack, p => p.hasAck
  | noAck, p => !p.hasAck
  | reliable, p => p.reliable
  | unreliablePayload, p => !p.reliable && p.hasPayload
  | connectRequest, p => p.connectRequest
  | notConnectRequest, p => !p.connectRequest
  | close, p => p.close
  | oddSequence, p => p.sequence.toNat % 2 = 1

theorem ofName?_name (x : Selector) : ofName? x.name = some x := by
  cases x <;> decide

end Selector

end DatagramStreams.Packet
