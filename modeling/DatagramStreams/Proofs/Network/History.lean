import DatagramStreams.Proofs.Network.Mail
import DatagramStreams.Proofs.Network.Tenure

/-! Who holds which address after any history of a network: exactly those sockets that were bound to it and have
neither been closed nor dropped since. Handles may outlive their binding, and what is done with them then takes
the address from nobody.
Main statements: `Matches.owner?_iff` and `History.holders`.
-/

set_option autoImplicit false

namespace DatagramStreams

theorem Registry.owner?_release {r : Registry} {a b : Address} {id : SocketId}
    (h : ∀ x, r.owner? x = some id → x = b) :
    (r.release b id).owner? a = if r.owner? a = some id then none else r.owner? a := by
  split
  · rename_i ho
    rw [h a ho, owner?_release_self (h a ho ▸ ho)]
  · rename_i ho
    by_cases hb : r.owner? b = some id
    · have hab : a ≠ b := by
        rintro rfl
        exact ho hb
      exact owner?_release_ne r hab id
    · rw [release_of_ne hb]

namespace Network

variable {net : Network} {acts : List Outside} {id : SocketId} {a : Address} {closed : Bool}

def Outside.Possible (net : Network) : Outside → Prop
  | .close id | .drop id => id < net.sockets.size
  | _ => True

instance (net : Network) : (x : Outside) → Decidable (x.Possible net)
  | .close id | .drop id => inferInstanceAs (Decidable (id < net.sockets.size))
  | .bind .. | .send .. | .receive .. | .deliver .. | .setMode .. | .addFactory _ | .takeSignals =>
    .isTrue trivial

/-- All that has been done on a network since it had no sockets, newest first. -/
inductive History : List Outside → Network → Prop
  | start (factories : Array Factory) : History [] { factories }
  | act {acts : List Outside} {net : Network} (h : History acts net) (x : Outside) (hx : x.Possible net) :
      History (x :: acts) (x.run net)

/-- The socket was bound to this address and has been neither closed nor dropped. -/
structure Live (acts : List Outside) (net : Network) (id : SocketId) (a : Address) : Prop where
  bound : ∃ k, net.sockets[id]? = some k ∧ k.address = a
  notClosed : .close id ∉ acts
  notDropped : .drop id ∉ acts

structure Matches (acts : List Outside) (net : Network) : Prop where
  tenured : net.Tenured fun id => .drop id ∉ acts
  closed : ∀ ⦃id a closed⦄, net.badge id = some (a, closed) → (closed = true ↔ .close id ∈ acts)
  dropped : ∀ ⦃a id⦄, net.registry.owner? a = some id → .drop id ∉ acts
  known : ∀ ⦃id⦄, net.badge id = none → .close id ∉ acts ∧ .drop id ∉ acts

theorem matches_start (factories : Array Factory) : Matches [] { factories } where
  tenured := (tenured_start _).same ⟨rfl, fun _ => rfl⟩
  closed _ _ _ h := by simp [badge] at h
  dropped _ _ h := by simp
  known _ h := by simp

theorem Matches.same {net' : Network} {x : Outside} (h : Matches acts net) (hs : Same net net')
    (hx : ∀ id, x ≠ .close id ∧ x ≠ .drop id) : Matches (x :: acts) net' := by
  have hclose (id : SocketId) : .close id ∈ x :: acts ↔ .close id ∈ acts := by
    simp [Ne.symm (hx id).1]
  have hdrop (id : SocketId) : .drop id ∈ x :: acts ↔ .drop id ∈ acts := by
    simp [Ne.symm (hx id).2]
  refine ⟨?_, fun id a closed hb => ?_, fun a id ho => ?_, fun id hb => ?_⟩
  · simpa only [hdrop] using h.tenured.same hs
  · rw [hclose]
    exact h.closed ((hs.badge id).symm.trans hb)
  · rw [hdrop]
    exact h.dropped (hs.registry ▸ ho)
  · rw [hclose, hdrop]
    exact h.known ((hs.badge id).symm.trans hb)

theorem Matches.bind (h : Matches acts net) (factory : Nat) (a : Address) :
    Matches (.bind factory a :: acts) (net.bind factory a).2 := by
  have ht := h.tenured.bind factory a
  rcases net.bind_cases factory a with
    ⟨b, net', hb, -, -, hown, hothers, hnone, hbadge, hsame⟩ | ⟨e, hb⟩ <;> rw [hb] at ht <;> rw [hb]
  · obtain ⟨hnotClosed, hnotDropped⟩ := h.known hnone
    refine ⟨ht.mono fun id hid => .inl (by simpa using hid), fun id c closed hc => ?_, fun c id ho => ?_,
      fun id hid => ?_⟩
    · by_cases he : id = net.sockets.size
      · subst he
        rw [hbadge] at hc
        obtain ⟨-, rfl⟩ := Prod.mk.inj (Option.some.inj hc)
        simpa using hnotClosed
      · simpa using h.closed (hsame id he ▸ hc)
    · by_cases he : c = b
      · rw [he, hown] at ho
        obtain rfl := Option.some.inj ho
        simpa using hnotDropped
      · simpa using h.dropped (hothers c he ▸ ho)
    · by_cases he : id = net.sockets.size
      · rw [he, hbadge] at hid
        cases hid
      · simpa using h.known (hsame id he ▸ hid)
  · exact h.same (.refl net) (by simp)

theorem Matches.close (h : Matches acts net) (hid : id < net.sockets.size) :
    Matches (.close id :: acts) (net.close id) := by
  obtain ⟨a, closed, hb⟩ := badge_of_lt hid
  have hself := badge_close_self hb
  refine ⟨?_, fun x c closed hx => ?_, fun c x ho => ?_, fun x hx => ?_⟩
  · simpa using h.tenured.close id
  · by_cases he : x = id
    · subst he
      rw [hself] at hx
      obtain ⟨-, rfl⟩ := Prod.mk.inj (Option.some.inj hx)
      simp
    · simpa [he] using h.closed (badge_close_ne net he ▸ hx)
  · simpa using h.dropped (owner?_of_close ho)
  · have he : x ≠ id := by
      rintro rfl
      rw [hself] at hx
      cases hx
    simpa [he] using h.known (badge_close_ne net he ▸ hx)

/-- A socket holds no address but its own, so whoever gives that up holds none. -/
theorem Matches.owner?_drop (h : Matches acts net) (hid : id < net.sockets.size) (b : Address) :
    (net.drop id).registry.owner? b = if net.registry.owner? b = some id then none else net.registry.owner? b := by
  obtain ⟨a, closed, hb⟩ := badge_of_lt hid
  rw [registry_drop hb]
  refine Registry.owner?_release fun x hx => ?_
  have hopen := h.tenured.sound hx
  rw [hb] at hopen
  exact (congrArg Prod.fst (Option.some.inj hopen)).symm

theorem Matches.owner?_close (h : Matches acts net) (hid : id < net.sockets.size) (b : Address) :
    (net.close id).registry.owner? b = if net.registry.owner? b = some id then none else net.registry.owner? b := by
  obtain ⟨a, _ | _, hb⟩ := badge_of_lt hid
  · rw [(close_of_open hb).1, ← registry_drop hb]
    exact h.owner?_drop hid b
  · rw [close_of_closed hb, if_neg (h.tenured.owner?_ne_of_closed hb b)]

theorem Matches.drop (h : Matches acts net) (hid : id < net.sockets.size) :
    Matches (.drop id :: acts) (net.drop id) := by
  have ht : net.Tenured fun x => .drop x ∉ Outside.drop id :: acts :=
    h.tenured.mono fun x hx => fun hmem => hx (List.mem_cons_of_mem _ hmem)
  refine ⟨ht.drop (by simp), fun x c closed hx => ?_, fun c x ho => ?_, fun x hx => ?_⟩
  · simpa using h.closed (badge_drop net id x ▸ hx)
  · rw [h.owner?_drop hid] at ho
    split at ho
    · cases ho
    · rename_i hne
      have hx : x ≠ id := by
        rintro rfl
        exact hne ho
      simpa [hx] using h.dropped ho
  · rw [badge_drop] at hx
    have hne : x ≠ id := by
      rintro rfl
      obtain ⟨a, closed, hb⟩ := badge_of_lt hid
      rw [hb] at hx
      cases hx
    simpa [hne] using h.known hx

theorem History.matches (h : History acts net) : Matches acts net := by
  induction h with
  | start factories => exact matches_start factories
  | @act acts net _ x hx ih =>
    cases x with
    | bind factory a => exact ih.bind factory a
    | close id => exact ih.close hx
    | drop id => exact ih.drop hx
    | send id target b mayHold => exact ih.same (send_same net id target b mayHold) (by simp)
    | receive id limit => exact ih.same (receive_same net id limit) (by simp)
    | deliver d target => exact ih.same (deliver_same net d target) (by simp)
    | setMode factory mode => exact ih.same ⟨rfl, fun _ => rfl⟩ (by simp)
    | addFactory plan => exact ih.same ⟨rfl, fun _ => rfl⟩ (by simp)
    | takeSignals => exact ih.same ⟨rfl, fun _ => rfl⟩ (by simp)

theorem Matches.owner?_iff (h : Matches acts net) (a : Address) (id : SocketId) :
    net.registry.owner? a = some id ↔ Live acts net id a := by
  constructor
  · intro ho
    have hopen := h.tenured.sound ho
    obtain ⟨k, hk, hka, -⟩ := exists_of_badge hopen
    exact ⟨⟨k, hk, hka⟩, fun hmem => Bool.false_ne_true ((h.closed hopen).mpr hmem),
      h.dropped ho⟩
  · rintro ⟨⟨k, hk, rfl⟩, hclosed, hdropped⟩
    have hb : net.badge id = some (k.address, k.closed) := by rw [badge, hk]; rfl
    have hopen : k.closed = false := by simpa [hclosed] using h.closed hb
    exact h.tenured.bound hdropped (hopen ▸ hb)

structure Holdings (acts : List Outside) (net : Network) : Prop where
  owner : ∀ a id, net.registry.owner? a = some id ↔ Live acts net id a
  alone : ∀ a id id', Live acts net id a → Live acts net id' a → id = id'
  delivered : ∀ a id, Live acts net id a → ∀ d, (net.deliver d a).mail id = net.mail id ++ [d] ∧
    ∀ x, x ≠ id → (net.deliver d a).mail x = net.mail x
  sent : ∀ a x, ¬ Live acts net x a → ∀ sender b mayHold,
    (net.send sender a b mayHold).2.mail x = net.mail x
  refused : ∀ a id, a.port ≠ 0 → Live acts net id { ip := Registry.hostFor a.ip, port := a.port } →
    ∀ factory, ∃ e, net.bind factory a = (.error e, net) ∧ e.kind = .addressInUse
  granted : ∀ a, Registry.Assigned a → (∀ id, ¬ Live acts net id a) →
    ∀ factory, (net.bind factory a).1 = .ok net.sockets.size
  /-- Whoever is closed or dropped gives up what it still holds, and nobody else anything. -/
  closed : ∀ id, id < net.sockets.size → ∀ b, (net.close id).registry.owner? b =
    if net.registry.owner? b = some id then none else net.registry.owner? b
  dropped : ∀ id, id < net.sockets.size → ∀ b, (net.drop id).registry.owner? b =
    if net.registry.owner? b = some id then none else net.registry.owner? b

/-- After any history of a network an address belongs to the one socket that was bound to it and has been
neither closed nor dropped, if there is one. Mail for the address reaches that socket only, nobody else can
bind it, and closing or dropping any other socket, however old, leaves it alone. -/
theorem History.holders (h : History acts net) : Holdings acts net := by
  have hr := h.matches
  refine ⟨hr.owner?_iff, fun a id id' hid hid' => ?_, fun a id hid d => ?_, fun a x hx sender b mayHold => ?_,
    fun a id ha hid factory => ?_, fun a ha hnone factory => ?_, fun id hid b => hr.owner?_close hid b,
    fun id hid b => hr.owner?_drop hid b⟩
  · have ho := (hr.owner?_iff a id).mpr hid
    rw [(hr.owner?_iff a id').mpr hid'] at ho
    exact (Option.some.inj ho).symm
  · have ho := (hr.owner?_iff a id).mpr hid
    obtain ⟨k, hk, -⟩ := hid.bound
    refine ⟨mail_deliver_self hk ho d, fun x hx => mail_deliver_ne ?_ d⟩
    rw [ho, Ne, Option.some.injEq]
    exact Ne.symm hx
  · exact mail_send_ne (fun ho => hx ((hr.owner?_iff a x).mp ho)) sender b mayHold
  · exact ⟨_, bind_of_owner ha ((hr.owner?_iff _ id).mpr hid) factory, rfl⟩
  · have hfree : net.registry.owner? a = none :=
      Option.eq_none_iff_forall_ne_some.mpr fun x hx => hnone x ((hr.owner?_iff a x).mp hx)
    exact (bind_ok_of_free ha hfree factory).1

/-- A socket is closed, its address is bound again, and then the old socket is closed once more and dropped. -/
theorem History.holders_rebound :
    let a : Address := { ip := Ip.v4Loopback, port := 7000 }
    let acts : List Outside := [.drop 0, .close 0, .bind 0 a, .close 0, .bind 0 a, .addFactory {}]
    let net := acts.foldr (fun x net => x.run net) {}
    History acts net ∧ net.registry.owner? a = some 1 ∧ (net.deliver ⟨a, [7]⟩ a).mail 1 = [⟨a, [7]⟩] ∧
      (∃ e, net.bind 0 a = (.error e, net) ∧ e.kind = .addressInUse) ∧
      (net.drop 1).registry.owner? a = none := by
  intro a acts net
  have h : History acts net := by
    simp only [acts, net, List.foldr_cons, List.foldr_nil]
    exact ((((((History.start #[]).act (.addFactory {}) trivial).act (.bind 0 a) trivial).act (.close 0)
      (by decide +kernel)).act (.bind 0 a) trivial).act (.close 0) (by decide +kernel)).act (.drop 0)
      (by decide +kernel)
  have hbadge : net.badge 1 = some (a, false) := by decide +kernel
  obtain ⟨k, hk, haddress, -⟩ := exists_of_badge hbadge
  have hlive : Live acts net 1 a := ⟨⟨k, hk, haddress⟩, by simp [acts], by simp [acts]⟩
  obtain ⟨howner, -, hdelivered, -, hrefused, -, -, hdropped⟩ := h.holders
  have hown := (howner a 1).mpr hlive
  have hempty : net.mail 1 = [] := by decide +kernel
  have hmail := (hdelivered a 1 hlive ⟨a, [7]⟩).1
  rw [hempty] at hmail
  have hdrop := hdropped 1 (by decide +kernel) a
  rw [if_pos hown] at hdrop
  exact ⟨h, hown, hmail, hrefused a 1 (by decide) hlive 0, hdrop⟩

end Network

end DatagramStreams
