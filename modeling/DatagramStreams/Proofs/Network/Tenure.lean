import DatagramStreams.Proofs.Network.Seat

/-! Who holds which address, over a whole network. An address belongs to an open socket that was bound to it,
and an open socket that somebody refers to has its address. Binding, closing and dropping keep it that way as
long as nobody drops a socket that is still referred to.
Main statements: `Tenured.bind`, `Tenured.close` and `Tenured.drop`.
-/

set_option autoImplicit false

namespace DatagramStreams

theorem Registry.owner?_of_release {r : Registry} {a b : Address} {id x : SocketId}
    (h : (r.release b id).owner? a = some x) : r.owner? a = some x := by
  by_cases ho : r.owner? b = some id
  · by_cases hab : a = b
    · rw [hab, owner?_release_self ho] at h
      cases h
    · rwa [owner?_release_ne r hab] at h
  · rwa [release_of_ne ho] at h

namespace Network

variable {net net' : Network} {held held' : SocketId → Prop} {id : SocketId} {a : Address} {closed : Bool}

/-- Addresses and sockets of a network fit together, where `held` are the sockets that are referred to. -/
structure Tenured (held : SocketId → Prop) (net : Network) : Prop where
  sound : ∀ ⦃a id⦄, net.registry.owner? a = some id → net.badge id = some (a, false)
  assigned : ∀ ⦃id a closed⦄, net.badge id = some (a, closed) → Registry.Assigned a
  bound : ∀ ⦃id a⦄, held id → net.badge id = some (a, false) → net.registry.owner? a = some id

theorem Tenured.same (h : net.Tenured held) (hs : Same net net') : net'.Tenured held where
  sound _ id ho := (hs.badge id).trans (h.sound (hs.registry ▸ ho))
  assigned id _ _ hb := h.assigned ((hs.badge id).symm.trans hb)
  bound id _ hid hb := hs.registry ▸ h.bound hid ((hs.badge id).symm.trans hb)

theorem Tenured.mono (h : net.Tenured held) (hle : ∀ id, held' id → held id) : net.Tenured held' :=
  ⟨h.sound, h.assigned, fun id _ hid hb => h.bound (hle id hid) hb⟩

theorem badge_of_lt (hid : id < net.sockets.size) : ∃ a closed, net.badge id = some (a, closed) :=
  ⟨_, _, congrArg _ (Array.getElem?_eq_getElem hid)⟩

theorem tenured_start (held : SocketId → Prop) : Network.Tenured held {} :=
  ⟨fun _ _ h => by simp [Registry.owner?, Table.find?, Table.lookup] at h, fun _ _ _ h => by simp [badge] at h,
    fun _ _ _ h => by simp [badge] at h⟩

theorem bind_cases (net : Network) (factory : Nat) (a : Address) :
    (∃ b net', net.bind factory a = (.ok net.sockets.size, net') ∧ Registry.Assigned b ∧
      net.registry.owner? b = none ∧ net'.registry.owner? b = some net.sockets.size ∧
      (∀ x, x ≠ b → net'.registry.owner? x = net.registry.owner? x) ∧
      net.badge net.sockets.size = none ∧ net'.badge net.sockets.size = some (b, false) ∧
      ∀ x, x ≠ net.sockets.size → net'.badge x = net.badge x) ∨
    ∃ e, net.bind factory a = (.error e, net) := by
  unfold bind
  rcases net.registry.register_cases a net.sockets.size with
    ⟨b, r, hr, ha, hfree, hown, hothers⟩ | ⟨e, hr⟩ <;> simp only [hr]
  · refine .inl ⟨b, _, rfl, ha, hfree, hown, hothers, by simp [badge], by simp [badge], fun x hx => ?_⟩
    simp [badge, Array.getElem?_push, hx]
  · exact .inr ⟨e, rfl⟩

theorem Tenured.bind (h : net.Tenured held) (factory : Nat) (a : Address) :
    (net.bind factory a).2.Tenured fun id => held id ∨ id = net.sockets.size := by
  rcases net.bind_cases factory a with
    ⟨b, net', hb, ha, hfree, hown, hothers, hnone, hbadge, hsame⟩ | ⟨e, hb⟩ <;> simp only [hb]
  -- The new socket has a number that no other had, and an address that nobody held.
  · have howner {x : Address} {id : SocketId} (ho : net'.registry.owner? x = some id) :
        x = b ∧ id = net.sockets.size ∨ x ≠ b ∧ net.registry.owner? x = some id := by
      by_cases hx : x = b
      · subst hx
        rw [hown] at ho
        exact .inl ⟨rfl, (Option.some.inj ho).symm⟩
      · exact .inr ⟨hx, hothers x hx ▸ ho⟩
    have hold {id : SocketId} {x : Address} {closed : Bool} (hx : net'.badge id = some (x, closed)) :
        x = b ∧ id = net.sockets.size ∨ net.badge id = some (x, closed) := by
      by_cases hid : id = net.sockets.size
      · subst hid
        rw [hbadge] at hx
        exact .inl ⟨(congrArg Prod.fst (Option.some.inj hx)).symm, rfl⟩
      · exact .inr (hsame id hid ▸ hx)
    refine ⟨fun x id ho => ?_, fun id x closed hx => ?_, fun id x hid hx => ?_⟩
    · rcases howner ho with ⟨rfl, rfl⟩ | ⟨-, ho⟩
      · exact hbadge
      · have hopen := h.sound ho
        rw [hsame id fun he => by rw [he, hnone] at hopen; cases hopen]
        exact hopen
    · rcases hold hx with ⟨rfl, -⟩ | hx
      · exact ha
      · exact h.assigned hx
    · rcases hold hx with ⟨rfl, rfl⟩ | hx
      · exact hown
      · have hne : id ≠ net.sockets.size := fun he => by rw [he, hnone] at hx; cases hx
        have ho := h.bound (hid.resolve_right hne) hx
        rw [hothers x fun he => by rw [he, hfree] at ho; cases ho]
        exact ho
  · refine ⟨h.sound, h.assigned, fun id x hid hx => h.bound (hid.resolve_right fun he => ?_) hx⟩
    subst he
    simp [badge] at hx

theorem badge_close_ne (net : Network) {id x : SocketId} (h : x ≠ id) : (net.close id).badge x = net.badge x := by
  unfold close
  split
  · split
    · rfl
    · simp [badge, signal, Array.getElem?_modify, Ne.symm h]
  · rfl

theorem badge_drop (net : Network) (id x : SocketId) : (net.drop id).badge x = net.badge x := by
  unfold drop
  split <;> rfl

theorem close_of_open (hb : net.badge id = some (a, false)) :
    (net.close id).registry = net.registry.release a id ∧ (net.close id).badge id = some (a, true) := by
  obtain ⟨k, hk, rfl, hopen⟩ := exists_of_badge hb
  simp [close, hk, hopen, signal, badge, Array.getElem?_modify]

theorem close_of_closed (hb : net.badge id = some (a, true)) : net.close id = net := by
  obtain ⟨k, hk, -, hclosed⟩ := exists_of_badge hb
  simp only [close, hk, hclosed, if_true]

theorem close_of_none (hb : net.badge id = none) : net.close id = net := by
  simp only [close, Option.map_eq_none_iff.mp hb]

theorem badge_close_self (hb : net.badge id = some (a, closed)) :
    (net.close id).badge id = some (a, true) := by
  cases closed with
  | false => exact (close_of_open hb).2
  | true => rwa [close_of_closed hb]

/-- Nobody gets an address by what others give up. -/
theorem owner?_of_close {x : SocketId} (h : (net.close id).registry.owner? a = some x) :
    net.registry.owner? a = some x := by
  unfold close at h
  split at h
  · split at h
    · exact h
    · exact Registry.owner?_of_release h
  · exact h

theorem owner?_of_drop {x : SocketId} (h : (net.drop id).registry.owner? a = some x) :
    net.registry.owner? a = some x := by
  unfold drop at h
  split at h
  · exact Registry.owner?_of_release h
  · exact h

theorem Tenured.close (h : net.Tenured held) (id : SocketId) : (net.close id).Tenured held := by
  cases hb : net.badge id with
  | none => rwa [close_of_none hb]
  | some badge =>
    obtain ⟨a, _ | _⟩ := badge
    · obtain ⟨hregistry, hself⟩ := close_of_open hb
      refine ⟨fun x y ho => ?_, fun y x closed hx => ?_, fun y x hy hx => ?_⟩
      · rw [hregistry] at ho
        have hopen := h.sound (Registry.owner?_of_release ho)
        by_cases hyid : y = id
        · subst hyid
          rw [hb] at hopen
          obtain ⟨rfl, -⟩ := Prod.mk.inj (Option.some.inj hopen)
          rw [Registry.owner?_release_self (Registry.owner?_of_release ho)] at ho
          cases ho
        · rwa [badge_close_ne net hyid]
      · by_cases hyid : y = id
        · subst hyid
          rw [hself] at hx
          obtain ⟨rfl, -⟩ := Prod.mk.inj (Option.some.inj hx)
          exact h.assigned hb
        · exact h.assigned (badge_close_ne net hyid ▸ hx)
      · by_cases hyid : y = id
        · subst hyid
          rw [hself] at hx
          cases hx
        · rw [hregistry, Registry.owner?_release_iff (Ne.symm hyid)]
          exact h.bound hy (badge_close_ne net hyid ▸ hx)
    · rwa [close_of_closed hb]

theorem registry_drop (hb : net.badge id = some (a, closed)) :
    (net.drop id).registry = net.registry.release a id := by
  obtain ⟨k, hk, rfl, -⟩ := exists_of_badge hb
  simp only [drop, hk]

/-- Whoever drops a socket that nobody refers to takes no address from anybody who does. -/
theorem Tenured.drop (h : net.Tenured held) (hid : ¬ held id) : (net.drop id).Tenured held := by
  cases hb : net.badge id with
  | none =>
    have hnone : net.drop id = net := by simp only [Network.drop, Option.map_eq_none_iff.mp hb]
    rwa [hnone]
  | some badge =>
    have hregistry := registry_drop hb
    refine ⟨fun x y ho => ?_, fun y x closed hx => ?_, fun y x hy hx => ?_⟩
    · rw [hregistry] at ho
      rw [badge_drop]
      exact h.sound (Registry.owner?_of_release ho)
    · rw [badge_drop] at hx
      exact h.assigned hx
    · rw [badge_drop] at hx
      have hne : id ≠ y := fun he => hid (he ▸ hy)
      rw [hregistry, Registry.owner?_release_iff hne]
      exact h.bound hy hx

theorem Tenured.owner?_ne_of_closed (h : net.Tenured held) (hb : net.badge id = some (a, true))
    (x : Address) : net.registry.owner? x ≠ some id := by
  intro ho
  have hopen := h.sound ho
  rw [hb] at hopen
  cases hopen

theorem Tenured.drop_of_closed (h : net.Tenured held) (hb : net.badge id = some (a, true)) :
    net.drop id = net := by
  obtain ⟨k, hk, -, -⟩ := exists_of_badge hb
  simp only [Network.drop, hk, Registry.release_of_ne (h.owner?_ne_of_closed hb k.address)]

end Network

end DatagramStreams
