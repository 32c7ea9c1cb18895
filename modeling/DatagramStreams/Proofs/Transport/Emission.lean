import DatagramStreams.Proofs.Stream.Numbering
import DatagramStreams.Transport.Link
import DatagramStreams.Transport.Recorder

/-! What a link hands to its socket. A socket that plays any script either passes a packet on or
refuses it, and the link keeps the ACK that a refused packet would have taken along.
Main statement: `send_cases`, all that one send can do.
-/

set_option autoImplicit false

namespace DatagramStreams

namespace Packet

def Fits (p : Packet) : Prop := ∀ b, p.payload = some b → payloadError? b = none

def Acks (a : Seq) (p : Packet) : Prop := ∀ x, p.ack = some x → x = a

theorem decode_encode_of_fits {p : Packet} (h : p.Fits) : decode p.encode = .ok p := by
  have hp : p.payload ≠ some [] := by
    intro he
    have h0 := h [] he
    simp [payloadError?] at h0
  have hl : (p.payload.getD []).length ≤ maxPayload := by
    cases hb : p.payload with
    | none => simp
    | some b =>
      have h0 := h b hb
      simp only [payloadError?] at h0
      split at h0
      · simp at h0
      · split at h0
        · simp at h0
        · simp only [Option.getD_some]
          omega
  apply decode_encode hp
  simp only [encodedLength, headerLength, ackLength, maxPayload, maxLength] at *
  split <;> omega

theorem fits_ackOnly (a : Seq) : (ackOnly a).Fits := by
  simp [Fits, ackOnly]

theorem acks_ackOnly (a : Seq) : (ackOnly a).Acks a := by
  intro x h
  exact (Option.some.inj h).symm

theorem fits_closeNotice : closeNotice.Fits := by
  simp [Fits, closeNotice]

theorem fits_carrying {isReliable : Bool} {s : Seq} {b : Octets} (h : payloadError? b = none) :
    (carrying isReliable s b).Fits := by
  intro c hc
  cases hc
  exact h

end Packet

namespace AckHolder

def Offers (a : Seq) (h : AckHolder) : Prop := ∀ x, h.ack = some x → x = a

end AckHolder

namespace Recorder

def playing (plan : List (Option IoKind)) : Recorder := { plan }

def passed (r : Recorder) : List Packet :=
  (r.attempts.toList.filter fun a => a.failure.isNone).map Attempt.packet

/-- Every failure still to be played is of an allowed kind. -/
def Allows (allowed : IoKind → Prop) (r : Recorder) : Prop :=
  (∀ k, some k ∈ r.plan → allowed k) ∧ ∀ k, r.mode = some k → allowed k

@[simp] theorem passed_playing (plan : List (Option IoKind)) : (playing plan).passed = [] := rfl

theorem allows_playing {allowed : IoKind → Prop} {plan : List (Option IoKind)}
    (h : ∀ k, some k ∈ plan → allowed k) : (playing plan).Allows allowed :=
  ⟨h, fun k hk => by simp [playing] at hk⟩

theorem send_cases (target : Address) (p : Packet) (r : Recorder) :
    ∃ r' : Recorder, (∀ allowed, r.Allows allowed → r'.Allows allowed) ∧
      ((r.send target p = (.ok (), r') ∧ r'.passed = r.passed ++ [p]) ∨
        ∃ k, r.send target p = (.error (.injected k), r') ∧ r'.passed = r.passed ∧
          ∀ allowed, r.Allows allowed → allowed k) := by
  refine ⟨(r.send target p).2, ?_, ?_⟩
  · intro allowed h
    refine ⟨fun k hk => h.1 k ?_, h.2⟩
    cases hp : r.plan with
    | nil => simp [send, outcome, hp] at hk
    | cons o rest =>
      simp only [send, outcome, hp] at hk
      exact List.mem_cons_of_mem _ hk
  · cases ho : r.outcome.1 with
    | none =>
      left
      simp [send, ho, passed]
    | some k =>
      right
      refine ⟨k, by simp [send, ho], by simp [send, ho, passed], fun allowed h => ?_⟩
      cases hp : r.plan with
      | nil => exact h.2 k (by simpa [outcome, hp] using ho)
      | cons o rest => exact h.1 k (by simp_all [outcome])

end Recorder

def Link.Stable (now : Instant) (I : Link → Prop) : Prop :=
  ∀ l p, I l → I (l.attach p).2 ∧ I ((l.attach p).2.giveBack (l.attach p).1 now)

/-- From `l` and `r` the packets of `new` have passed, and nothing has become of the link but taking
and giving back its ACK. -/
structure Handed (now : Instant) (l : Link) (r : Recorder) (l' : Link) (r' : Recorder)
    (new : List Packet) : Prop where
  passed : r'.passed = r.passed ++ new
  allows : ∀ allowed, r.Allows allowed → r'.Allows allowed
  stable : ∀ I, Link.Stable now I → I l → I l'

theorem Handed.refl (now : Instant) (l : Link) (r : Recorder) : Handed now l r l r [] :=
  ⟨by simp, fun _ h => h, fun _ _ h => h⟩

theorem Handed.trans {now : Instant} {l₁ l₂ l₃ : Link} {r₁ r₂ r₃ : Recorder} {new₁ new₂ : List Packet}
    (h₁ : Handed now l₁ r₁ l₂ r₂ new₁) (h₂ : Handed now l₂ r₂ l₃ r₃ new₂) :
    Handed now l₁ r₁ l₃ r₃ (new₁ ++ new₂) :=
  ⟨by rw [h₂.passed, h₁.passed, List.append_assoc], fun k h => h₂.allows k (h₁.allows k h),
    fun I hI h => h₂.stable I hI (h₁.stable I hI h)⟩

namespace Link

variable {l : Link} {a : Seq}

theorem attach_offers (h : l.acks.Offers a) (p : Packet) :
    (l.attach p).2.acks.Offers a ∧ (p.Acks a → (loaded p (l.attach p).1).Acks a) := by
  unfold attach
  split
  · exact ⟨h, fun hp => hp⟩
  · simp only [AckHolder.take]
    refine ⟨fun x hx => by simp at hx, fun hp => ?_⟩
    cases ha : l.acks.ack with
    | none => exact hp
    | some b =>
      intro x hx
      cases hx
      exact h b ha

theorem giveBack_offers (h : l.acks.Offers a) (p : Packet) (now : Instant) :
    ((l.attach p).2.giveBack (l.attach p).1 now).acks.Offers a := by
  unfold attach
  split
  · exact h
  · simp only [AckHolder.take]
    cases ha : l.acks.ack with
    | none => intro x hx; simp [giveBack] at hx
    | some b =>
      intro x hx
      simp only [giveBack, AckHolder.ack_restore, AckHolder.ack_cleared, Option.getD_none,
        Option.some.injEq] at hx
      exact hx ▸ h b ha

theorem send_cases (l : Link) (p : Packet) (now : Instant) (r : Recorder) : ∃ r',
    (l.send Recorder.socket p now r = (.ok true, (l.attach p).2, r') ∧
      Handed now l r (l.attach p).2 r' [loaded p (l.attach p).1]) ∨
    ∃ l', (l.send Recorder.socket p now r = (.ok false, l', r') ∧ Handed now l r l' r' [] ∧
        ∀ allowed, r.Allows allowed → allowed .wouldBlock) ∨
      ∃ k, l.send Recorder.socket p now r = (.error (.injected k), l', r') ∧ Handed now l r l' r' [] ∧
        k ≠ .wouldBlock ∧ ∀ allowed, r.Allows allowed → allowed k := by
  obtain ⟨r', hr, ⟨h, hp⟩ | ⟨k, h, hp, hk⟩⟩ :=
    Recorder.send_cases l.peer (loaded p (l.attach p).1) r
  · refine ⟨r', .inl ⟨?_, hp, hr, fun I hI hl => (hI l p hl).1⟩⟩
    simp only [send, Recorder.socket, h]
  · have hh : Handed now l r ((l.attach p).2.giveBack (l.attach p).1 now) r' [] :=
      ⟨by simp [hp], hr, fun I hI hl => (hI l p hl).2⟩
    refine ⟨r', .inr ⟨(l.attach p).2.giveBack (l.attach p).1 now, ?_⟩⟩
    by_cases hw : k = .wouldBlock
    · refine .inl ⟨?_, hh, hw ▸ hk⟩
      simp [send, Recorder.socket, h, IoError.kind, hw]
    · refine .inr ⟨k, ?_, hh, hw, hk⟩
      simp [send, Recorder.socket, h, IoError.kind, hw]

end Link

theorem Handed.offers {now : Instant} {l l' : Link} {r r' : Recorder} {new : List Packet} {a : Seq}
    (h : Handed now l r l' r' new) (hl : l.acks.Offers a) : l'.acks.Offers a :=
  h.stable (fun l => l.acks.Offers a)
    (fun _ p hl => ⟨(Link.attach_offers hl p).1, Link.giveBack_offers hl p now⟩) hl

end DatagramStreams
