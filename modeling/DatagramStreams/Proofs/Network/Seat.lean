import DatagramStreams.Network.Basic

/-! The place of one socket on a network. While it is open it holds the address that it was bound to, and
once it is closed it holds it no more, whatever all others do meanwhile.
Main statements: `Carried.send`, `Seated.outside`, `seated_bind`, `Seated.close_own` and `bind_ok_of_free`.
-/

set_option autoImplicit false

namespace DatagramStreams

namespace Registry

variable {r : Registry} {a b : Address} {own id : SocketId}

structure Assigned (a : Address) : Prop where
  port : a.port ≠ 0
  host : ({ ip := hostFor a.ip, port := a.port } : Address) = a

theorem hostFor_hostFor (ip : Ip) : hostFor (hostFor ip) = hostFor ip := by
  unfold hostFor
  cases h : ip.isUnspecified with
  | true => rfl
  | false => simp [h]

theorem assigned_hostFor (ip : Ip) {port : UInt16} (h : port ≠ 0) :
    Assigned { ip := hostFor ip, port } :=
  ⟨h, by simp only [hostFor_hostFor]⟩

theorem portAt_ne_zero (cursor : UInt16) : portAt cursor ≠ 0 := by
  unfold portAt
  split
  · decide
  · rename_i h
    rintro rfl
    exact h (by decide)

theorem search_ne_zero {ip : Ip} {n : Nat} {cursor port : UInt16}
    (h : r.search ip n cursor = some port) : port ≠ 0 := by
  induction n generalizing cursor with
  | zero => simp [search] at h
  | succ n ih =>
    unfold search at h
    split at h
    · exact Option.some.inj h ▸ portAt_ne_zero cursor
    · exact ih h

theorem choose_cases (r : Registry) (a : Address) :
    (∃ b r', r.choose a = (.ok b, r') ∧ Assigned b ∧ r.owner? b = none ∧ r'.bound = r.bound) ∨
      ∃ e, r.choose a = (.error e, r) := by
  simp only [choose]
  split
  · split
    · rename_i port hs
      have hfree : r.owner? { ip := hostFor a.ip, port } = none := by
        simpa [isFree] using isFree_of_search hs
      exact .inl ⟨_, _, rfl, assigned_hostFor a.ip (search_ne_zero hs), hfree, rfl⟩
    · exact .inr ⟨_, rfl⟩
  · rename_i hport
    split
    · rename_i hfree
      exact .inl ⟨_, _, rfl, assigned_hostFor a.ip hport, by simpa [isFree] using hfree, rfl⟩
    · exact .inr ⟨_, rfl⟩

theorem register_cases (r : Registry) (a : Address) (id : SocketId) :
    (∃ b r', r.register a id = (.ok b, r') ∧ Assigned b ∧ r.owner? b = none ∧ r'.owner? b = some id ∧
      ∀ x, x ≠ b → r'.owner? x = r.owner? x) ∨
    ∃ e, r.register a id = (.error e, r) := by
  unfold register
  rcases r.choose_cases a with ⟨b, r', hc, ha, hfree, hbound⟩ | ⟨e, hc⟩ <;> rw [hc]
  · refine .inl ⟨b, _, rfl, ha, hfree, Table.find?_put_self _ _ _, fun x hx => ?_⟩
    rw [owner?, Table.find?_put_ne _ hx, hbound, owner?]
  · exact .inr ⟨e, rfl⟩

theorem register_ok_of_free (ha : Assigned a) (hfree : r.owner? a = none) (id : SocketId) :
    (r.register a id).1 = .ok a := by
  have hchoose : r.choose a = (.ok a, r) := by
    simp only [choose, ha.port, if_false, ha.host, isFree, hfree, Option.isNone_none, if_true]
  rw [register, hchoose]

theorem owner?_release_iff (h : id ≠ own) (b : Address) :
    (r.release b id).owner? a = some own ↔ r.owner? a = some own := by
  by_cases ho : r.owner? b = some id
  · by_cases hab : a = b
    · subst hab
      simp [owner?_release_self ho, ho, h]
    · rw [owner?_release_ne r hab]
  · rw [release_of_ne ho]

end Registry

namespace Network

variable {net net' : Network} {own : SocketId} {address : Address} {closed : Bool}

/-- What a socket has and never loses, and whether it is closed. -/
def badge (net : Network) (id : SocketId) : Option (Address × Bool) :=
  net.sockets[id]?.map fun k => (k.address, k.closed)

theorem exists_of_badge {id : SocketId} (h : net.badge id = some (address, closed)) :
    ∃ k, net.sockets[id]? = some k ∧ k.address = address ∧ k.closed = closed := by
  obtain ⟨k, hk, hbadge⟩ := Option.map_eq_some_iff.mp h
  obtain ⟨haddress, hclosed⟩ := Prod.mk.inj hbadge
  exact ⟨k, hk, haddress, hclosed⟩

theorem receive_of_closed {id : SocketId} (h : net.badge id = some (address, true)) (limit : Nat) :
    ∃ e, (net.receive id limit).1 = .error e := by
  obtain ⟨k, hk, -, hclosed⟩ := exists_of_badge h
  simp only [receive, hk, takeMail, hclosed, if_true]
  split
  · exact ⟨_, rfl⟩
  · exact ⟨_, rfl⟩

structure Same (net net' : Network) : Prop where
  registry : net'.registry = net.registry
  badge : ∀ id, net'.badge id = net.badge id

theorem Same.refl (net : Network) : Same net net := ⟨rfl, fun _ => rfl⟩

theorem Same.trans {net₁ net₂ net₃ : Network} (h₁ : Same net₁ net₂) (h₂ : Same net₂ net₃) : Same net₁ net₃ :=
  ⟨h₂.registry.trans h₁.registry, fun id => (h₂.badge id).trans (h₁.badge id)⟩

theorem deliver_same (net : Network) (d : Datagram) (target : Address) : Same net (net.deliver d target) := by
  unfold deliver
  split
  · refine ⟨rfl, fun id => ?_⟩
    simp only [badge, signal, Array.getElem?_modify]
    split
    · cases net.sockets[id]? <;> rfl
    · rfl
  · exact .refl net

theorem mode_set_faults {factory : Nat} {f : Factory} (hf : net.factories[factory]? = some f)
    (faults : FaultModel) (n : Nat) :
    { net with factories := net.factories.set! factory { f with faults } }.mode n = net.mode n := by
  have hlt := (Array.getElem?_eq_some_iff.mp hf).1
  simp only [mode, Array.set!_eq_setIfInBounds, Array.getElem?_setIfInBounds]
  by_cases hn : factory = n
  · subst hn
    simp only [if_true, hlt, hf]
  · simp only [hn, if_false]

/-- What neither deliveries to `target` nor the notes that are taken of a send can spoil. -/
structure Carried (target : Address) (I : Network → Prop) : Prop where
  deliver : ∀ {net : Network} (d : Datagram), I net → I (net.deliver d target)
  notes : ∀ (net net' : Network), net'.registry = net.registry → net'.sockets = net.sockets →
    (∀ n, net'.mode n = net.mode n) → I net → I net'

section Carried

variable {target : Address} {I : Network → Prop}

theorem Carried.launchCopies (hI : Carried target I) {h : Held} (ht : h.target = target) (held : Bool)
    (copies : Nat) (hnet : I net) : I (net.launchCopies h held copies) := by
  induction copies generalizing net with
  | zero => exact hnet
  | succ n ih =>
    refine ih ?_
    cases held with
    | true => exact hI.notes net _ rfl rfl (fun _ => rfl) hnet
    | false =>
      subst ht
      exact hI.deliver h.datagram hnet

theorem Carried.transmit (hI : Carried target I) (factory : Nat) (d : Datagram) (mayHold : Bool)
    (hnet : I net) : I (net.transmit factory d target mayHold) := by
  unfold Network.transmit
  split
  · exact hnet
  · rename_i f hf
    have hnoted (faults : FaultModel) :
        I { net with factories := net.factories.set! factory { f with faults } } :=
      hI.notes net _ rfl rfl (mode_set_faults hf faults) hnet
    simp only
    split
    · exact hnoted _
    · exact hI.launchCopies rfl _ _ (hnoted _)

theorem Carried.send (hI : Carried target I) (id : SocketId) (b : Octets) (mayHold : Bool) (hnet : I net) :
    I (net.send id target b mayHold).2 := by
  unfold Network.send
  split
  · exact hnet
  · rename_i k _
    have hnoted (transmissions : List Transmission) : I { net with transmissions } :=
      hI.notes net _ rfl rfl (fun _ => rfl) hnet
    simp only
    split
    · exact hnoted _
    · exact hI.transmit _ _ _ (hnoted _)

end Carried

theorem carried_same (net : Network) (target : Address) : Carried target (Same net) where
  deliver d h := h.trans (deliver_same _ d target)
  notes _ _ hregistry hsockets _ h := h.trans ⟨hregistry, fun id => by rw [badge, hsockets, badge]⟩

theorem send_same (net : Network) (id : SocketId) (target : Address) (b : Octets) (mayHold : Bool) :
    Same net (net.send id target b mayHold).2 :=
  (carried_same net target).send id b mayHold (.refl net)

theorem receive_same (net : Network) (id : SocketId) (limit : Nat) :
    Same net (net.receive id limit).2 := by
  unfold receive
  split
  · exact .refl net
  · rename_i k hk
    simp only
    split
    · exact ⟨rfl, fun _ => rfl⟩
    · unfold takeMail
      split
      · exact .refl net
      · split
        · exact .refl net
        · refine ⟨rfl, fun m => ?_⟩
          simp only [badge, Array.set!_eq_setIfInBounds, Array.getElem?_setIfInBounds]
          split
          · subst id
            split
            · rw [hk]
              rfl
            · rw [Array.getElem?_eq_none (by omega)] at hk
              cases hk
          · rfl

theorem receiveAll_same (id : SocketId) (limit n : Nat) (got : Queue (Address × Octets)) (net : Network) :
    Same net (receiveAll id limit n got net).2 := by
  induction n generalizing got net with
  | zero => exact .refl net
  | succ n ih =>
    have hfirst := receive_same net id limit
    unfold receiveAll
    rcases hr : net.receive id limit with ⟨e | x, net'⟩ <;> rw [hr] at hfirst
    · exact hfirst
    · exact hfirst.trans (ih _ net')

/-- Socket `own` has this address, and holds it as long as it is open. -/
structure Seated (own : SocketId) (address : Address) (closed : Bool) (net : Network) : Prop where
  badge : net.badge own = some (address, closed)
  owner : net.registry.owner? address = some own ↔ closed = false

theorem Seated.same (h : Seated own address closed net) (hs : Same net net') :
    Seated own address closed net' :=
  ⟨(hs.badge own).trans h.badge, hs.registry ▸ h.owner⟩

theorem Seated.bind (h : Seated own address closed net) (factory : Nat) (a : Address) :
    Seated own address closed (net.bind factory a).2 := by
  obtain ⟨k, hk, -⟩ := exists_of_badge h.badge
  have hlt : own < net.sockets.size := (Array.getElem?_eq_some_iff.mp hk).1
  unfold Network.bind
  rcases net.registry.register_cases a net.sockets.size with
    ⟨b, r, hr, -, hfree, hown, hothers⟩ | ⟨e, hr⟩
  · simp only [hr]
    refine ⟨?_, ?_⟩
    · simp only [Network.badge, Array.getElem?_push_lt hlt]
      exact (congrArg _ (Array.getElem?_eq_getElem hlt)).symm.trans h.badge
    · by_cases hb : address = b
      · subst hb
        have hne : net.sockets.size ≠ own := Nat.ne_of_gt hlt
        simp only [hown, Option.some.injEq, hne, false_iff]
        rw [← h.owner, hfree]
        simp
      · simp only [hothers address hb, h.owner]
  · simp only [hr]
    exact ⟨h.badge, h.owner⟩

theorem Seated.drop (h : Seated own address closed net) {id : SocketId} (hid : id ≠ own) :
    Seated own address closed (net.drop id) := by
  unfold Network.drop
  split
  · exact ⟨h.badge, (Registry.owner?_release_iff hid _).trans h.owner⟩
  · exact h

theorem Seated.close (h : Seated own address closed net) {id : SocketId} (hid : id ≠ own) :
    Seated own address closed (net.close id) := by
  unfold Network.close
  split
  · split
    · exact h
    · refine ⟨?_, (Registry.owner?_release_iff hid _).trans h.owner⟩
      simp only [Network.badge, signal, Array.getElem?_modify, hid, if_false]
      exact h.badge
  · exact h

theorem Seated.close_own (h : Seated own address closed net) : Seated own address true (net.close own) ∧
    (closed = false → (net.close own).registry.owner? address = none) := by
  obtain ⟨k, hk, rfl, rfl⟩ := exists_of_badge h.badge
  simp only [Network.close, hk]
  split
  · rename_i hclosed
    rw [hclosed] at h ⊢
    exact ⟨h, by simp⟩
  · rename_i hopen
    have howner := h.owner.mpr (by simpa using hopen)
    have hfree := Registry.owner?_release_self howner
    refine ⟨⟨?_, ?_⟩, fun _ => hfree⟩
    · simp [Network.badge, signal, Array.getElem?_modify, hk]
    · simp [signal, hfree]

theorem bind_ok_of_free (ha : Registry.Assigned address) (h : net.registry.owner? address = none)
    (factory : Nat) : (net.bind factory address).1 = .ok net.sockets.size ∧
      (net.bind factory address).2.badge net.sockets.size = some (address, false) := by
  have hr := Registry.register_ok_of_free ha h net.sockets.size
  rcases hr' : net.registry.register address net.sockets.size with ⟨e | b, r⟩ <;> rw [hr'] at hr
  · cases hr
  · cases hr
    simp [Network.bind, hr', Network.badge]

theorem bind_of_owner {a : Address} {id : SocketId} (ha : a.port ≠ 0)
    (ho : net.registry.owner? { ip := Registry.hostFor a.ip, port := a.port } = some id) (factory : Nat) :
    net.bind factory a = (.error (.alreadyBound { ip := Registry.hostFor a.ip, port := a.port }), net) := by
  simp [bind, Registry.register, Registry.choose, ha, Registry.isFree, ho]

/-- What others do to the network: they bind, use and close sockets of their own, datagrams that were held
back arrive, and sockets are told to fail. -/
inductive Outside where
  | bind (factory : Nat) (a : Address)
  | close (id : SocketId)
  | drop (id : SocketId)
  | send (id : SocketId) (target : Address) (b : Octets) (mayHold : Bool)
  | receive (id : SocketId) (limit : Nat)
  | deliver (d : Datagram) (target : Address)
  | setMode (factory : Nat) (mode : SocketMode)
  | addFactory (plan : FaultPlan)
  | takeSignals

def Outside.run (net : Network) : Outside → Network
  | .bind factory a => (net.bind factory a).2
  | .close id => net.close id
  | .drop id => net.drop id
  | .send id target b mayHold => (net.send id target b mayHold).2
  | .receive id limit => (net.receive id limit).2
  | .deliver d target => net.deliver d target
  | .setMode factory mode => net.setMode factory mode
  | .addFactory plan => (net.addFactory plan).2
  | .takeSignals => { net with signals := [] }

def Outside.Spares (own : SocketId) : Outside → Prop
  | .close id | .drop id => id ≠ own
  | _ => True

instance (own : SocketId) : (x : Outside) → Decidable (x.Spares own)
  | .close id | .drop id => inferInstanceAs (Decidable (id ≠ own))
  | .bind .. | .send .. | .receive .. | .deliver .. | .setMode .. | .addFactory _ | .takeSignals =>
    .isTrue trivial

theorem Seated.outside (h : Seated own address closed net) {x : Outside} (hx : x.Spares own) :
    Seated own address closed (x.run net) := by
  cases x with
  | bind factory a => exact h.bind factory a
  | close id => exact h.close hx
  | drop id => exact h.drop hx
  | send id target b mayHold => exact h.same (send_same net id target b mayHold)
  | receive id limit => exact h.same (receive_same net id limit)
  | deliver d target => exact h.same (deliver_same net d target)
  | setMode factory mode => exact h.same ⟨rfl, fun _ => rfl⟩
  | addFactory plan => exact h.same ⟨rfl, fun _ => rfl⟩
  | takeSignals => exact h.same ⟨rfl, fun _ => rfl⟩

end Network

end DatagramStreams
