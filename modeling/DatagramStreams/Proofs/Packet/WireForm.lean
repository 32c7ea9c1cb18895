import DatagramStreams.Packet.Draft
import DatagramStreams.Proofs.Transport.Emission

/-! The datagram form read in both directions. What a program composes is written and read back
unchanged. Of received octets the length and the ACK bit alone decide whether they can be read, and
what was read is written as it came but for the unassigned bits.
Main statement: `wire_form`.
-/

set_option autoImplicit false

namespace DatagramStreams.Packet

theorem withAck_fits {p : Packet} (h : p.Fits) (a : Seq) : (p.withAck a).Fits := h

namespace Draft

theorem payloadError?_of_payloadFault {d : Draft} {b : Octets} (h : d.payloadFault b = none) :
    payloadError? b = none := by
  unfold payloadFault at h
  unfold payloadError?
  split at h
  · cases h
  · split at h
    · cases h
    · split at h
      · cases h
      · rw [if_neg ‹_›, if_neg ‹_›]

theorem build_fits {d : Draft} {p : Packet} (h : d.build = .ok p) : p.Fits := by
  intro b hb
  unfold build at h
  split at h
  · cases h
  · rename_i hf
    cases h
    replace hb : d.payload = some b := hb
    unfold fault at hf
    split at hf
    · cases hf
    · rw [hb] at hf
      exact payloadError?_of_payloadFault hf

end Draft

/-- What a program can compose: a built draft or one of the two bare notices, with an ACK set on it any
number of times. -/
inductive Composed : Packet → Prop
  | built (fields : List Draft.Field) (p : Packet) (h : (Draft.ofFields fields).build = .ok p) :
      Composed p
  | ackOnly (a : Seq) : Composed (ackOnly a)
  | closeNotice : Composed closeNotice
  | withAck (p : Packet) (h : Composed p) (a : Seq) : Composed (p.withAck a)

theorem Composed.fits {p : Packet} (h : Composed p) : p.Fits := by
  induction h with
  | built fields p h => exact Draft.build_fits h
  | ackOnly a => exact fits_ackOnly a
  | closeNotice => exact fits_closeNotice
  | withAck p _ a ih => exact withAck_fits ih a

/-- The four bits that mean something are tested one by one, and put together again they are the low
half of the octet. -/
theorem assigned_flags (flags : UInt8) :
    (if flagSet flags reliableBit then reliableBit else 0) |||
      (if flagSet flags ackBit then ackBit else 0) |||
      (if flagSet flags connectRequestBit then connectRequestBit else 0) |||
      (if flagSet flags closeBit then closeBit else 0) = flags &&& 15 := by
  obtain ⟨b⟩ := flags
  revert b
  decide +kernel

theorem flagOctet_ofFields {flags : UInt8} {a : Option Seq} (h : a.isSome = flagSet flags ackBit)
    (s : Seq) (rest : Octets) : (ofFields flags s a rest).flagOctet = flags &&& 15 := by
  rw [← assigned_flags, ← h]
  rfl

theorem getD_payloadOf (rest : Octets) : (payloadOf rest).getD [] = rest := by
  cases rest <;> rfl

theorem encode_ofFields {flags : UInt8} {a : Option Seq} (h : a.isSome = flagSet flags ackBit)
    (hi lo : UInt8) (rest : Octets) :
    (ofFields flags (word hi lo) a rest).encode = (flags &&& 15) :: hi :: lo :: (ackField a ++ rest) := by
  have hf := flagOctet_ofFields h (word hi lo) rest
  simp only [encode, hf]
  simp only [ofFields, high_word, low_word, getD_payloadOf]

def Readable (b : Octets) : Prop :=
  3 ≤ b.length ∧ ∀ flags ∈ b.head?, flags &&& 2 ≠ 0 → 5 ≤ b.length

theorem Readable.header {b : Octets} (h : Readable b) :
    ∃ flags hi lo rest, b = flags :: hi :: lo :: rest := by
  obtain _ | ⟨flags, _ | ⟨hi, _ | ⟨lo, rest⟩⟩⟩ := b
  iterate 3 · exact absurd h.1 (by simp)
  · exact ⟨flags, hi, lo, rest, rfl⟩

theorem Readable.ack {flags hi lo : UInt8} {rest : Octets} (h : Readable (flags :: hi :: lo :: rest))
    (hf : flagSet flags ackBit = true) : ∃ ahi alo body, rest = ahi :: alo :: body := by
  have hl : 5 ≤ (flags :: hi :: lo :: rest).length := by
    refine h.2 flags rfl ?_
    simpa [flagSet, ackBit] using hf
  obtain _ | ⟨ahi, _ | ⟨alo, body⟩⟩ := rest
  iterate 2 · exact absurd hl (by simp)
  · exact ⟨ahi, alo, body, rfl⟩

theorem parse_of_readable {b : Octets} (h : Readable b) :
    ∃ p, parse b = .ok p ∧ p.encode = b.modifyHead (· &&& 15) := by
  obtain ⟨flags, hi, lo, rest, rfl⟩ := h.header
  cases hf : flagSet flags ackBit with
  | false =>
    have hp : parse (flags :: hi :: lo :: rest) = .ok (ofFields flags (word hi lo) none rest) := by
      simp [parse, hf]
    exact ⟨_, hp, encode_ofFields (by rw [hf]; rfl) hi lo rest⟩
  | true =>
    obtain ⟨ahi, alo, body, rfl⟩ := h.ack hf
    have hp : parse (flags :: hi :: lo :: ahi :: alo :: body) =
        .ok (ofFields flags (word hi lo) (some (word ahi alo)) body) := by
      simp [parse, hf]
    refine ⟨_, hp, ?_⟩
    rw [encode_ofFields (by rw [hf]; rfl), ackField, high_word, low_word]
    rfl

theorem readable_of_parse {b : Octets} {p : Packet} (h : parse b = .ok p) : Readable b := by
  obtain _ | ⟨flags, _ | ⟨hi, _ | ⟨lo, rest⟩⟩⟩ := b
  iterate 3 · simp [parse] at h
  refine ⟨by simp, fun f hf hbit => ?_⟩
  cases hf
  have hset : flagSet flags ackBit = true := by simpa [flagSet, ackBit] using hbit
  obtain _ | ⟨ahi, _ | ⟨alo, body⟩⟩ := rest
  iterate 2 · simp [parse, hset] at h
  · simp

theorem decode_ok_iff (b : Octets) (p : Packet) :
    decode b = .ok p ↔ b.length ≤ maxLength ∧ parse b = .ok p := by
  unfold decode
  split
  · simp; omega
  · simp; omega

/-- What is composed fills its announced length, at most 8192 octets, and reads back as it was. Octets
can be read exactly if they hold between 3 and 8192 octets, 5 at least behind a set ACK bit, and what
was read out of them gives them back with the four high bits of the first octet cleared. -/
theorem wire_form :
    (∀ p, Composed p →
      p.encode.length = p.encodedLength ∧ p.encode.length ≤ 8192 ∧ decode p.encode = .ok p) ∧
    (∀ b, (∃ p, decode b = .ok p) ↔
      3 ≤ b.length ∧ b.length ≤ 8192 ∧ ∀ flags ∈ b.head?, flags &&& 2 ≠ 0 → 5 ≤ b.length) ∧
    ∀ b p, decode b = .ok p → p.encode = b.modifyHead (· &&& 15) := by
  refine ⟨fun p h => ?_, fun b => ⟨?_, ?_⟩, fun b p h => ?_⟩
  · have hd := decode_encode_of_fits h.fits
    exact ⟨length_encode p, ((decode_ok_iff _ _).mp hd).1, hd⟩
  · rintro ⟨p, h⟩
    obtain ⟨hmax, hp⟩ := (decode_ok_iff b p).mp h
    have hr := readable_of_parse hp
    exact ⟨hr.1, hmax, hr.2⟩
  · rintro ⟨hmin, hmax, hbit⟩
    obtain ⟨p, hp, -⟩ := parse_of_readable (b := b) ⟨hmin, hbit⟩
    exact ⟨p, (decode_ok_iff b p).mpr ⟨hmax, hp⟩⟩
  · obtain ⟨-, hp⟩ := (decode_ok_iff b p).mp h
    obtain ⟨q, hq, hencode⟩ := parse_of_readable (readable_of_parse hp)
    rw [hp] at hq
    cases hq
    exact hencode

/-- The longest payload a draft takes, an ACK set twice on the packet: it fills a datagram. And four octets
with every unassigned bit set, which lose those bits. -/
theorem wire_form_largest :
    let p := ((carrying true 65535 (List.replicate 8187 7)).withAck 1).withAck 2
    (p.encode.length = 8192 ∧ decode p.encode = .ok p) ∧
      ∃ q, decode [0xF1, 0, 1, 9] = .ok q ∧ q.encode = [0x01, 0, 1, 9] := by
  have hb : (List.replicate 8187 (7 : UInt8)).length = 8187 := List.length_replicate
  generalize List.replicate 8187 (7 : UInt8) = b at hb
  intro p
  have hp : Composed p := by
    refine .withAck _ (.withAck _ (.built [.reliable, .payload b, .sequence 65535] _ ?_) 1) 2
    have hne : b.isEmpty = false := by
      cases b with
      | nil => exact absurd hb (by decide)
      | cons => rfl
    simp [Draft.build, Draft.fault, Draft.payloadFault, Draft.ofFields, Draft.set, Draft.packet,
      carrying, maxPayload, maxLength, headerLength, ackLength, hne, hb]
  obtain ⟨hlength, -, hdecode⟩ := wire_form.1 p hp
  refine ⟨⟨?_, hdecode⟩, ?_⟩
  · rw [hlength]
    simp [p, encodedLength, withAck, carrying, hasAck, headerLength, ackLength, hb]
  · have hbit : ∀ flags ∈ [0xF1, (0 : UInt8), 1, 9].head?, flags &&& 2 ≠ 0 → 5 ≤ 4 := by
      rintro flags ⟨rfl⟩ hset
      exact absurd (by decide) hset
    obtain ⟨q, hq⟩ := (wire_form.2.1 [0xF1, 0, 1, 9]).mpr ⟨by decide, by decide, hbit⟩
    exact ⟨q, hq, wire_form.2.2 _ q hq⟩

end DatagramStreams.Packet
