import DatagramStreams.Proofs.Network.Tenure

/-! How a socket that asks for no port gets one. The search goes round the ephemeral range from the cursor,
port by port, and takes the first that is free on the host. One round is enough: what it has not met by then it
never meets.
Main statements: `Registry.search_eq_some_iff`, `Registry.ends_iff` and `Network.bind_ephemeral`.
-/

set_option autoImplicit false

namespace DatagramStreams

namespace Registry

variable {r : Registry} {ip : Ip} {n : Nat} {cursor port : UInt16}

/-- The ephemeral port that comes `k` places after the one at the cursor; the first comes after the last. -/
def circle (cursor : UInt16) (k : Nat) : UInt16 :=
  .ofNat (firstEphemeral.toNat + ((portAt cursor).toNat - firstEphemeral.toNat + k) % ephemeralCount)

/-- The search comes to an end, however long it takes. -/
def Ends (r : Registry) (ip : Ip) : Prop := ∃ n, (r.search ip n r.cursor).isSome = true

theorem portAt_of_le (h : firstEphemeral ≤ cursor) : portAt cursor = cursor :=
  if_neg (UInt16.not_lt.mpr h)

theorem firstEphemeral_le_portAt (cursor : UInt16) : firstEphemeral ≤ portAt cursor := by
  unfold portAt
  split
  · exact UInt16.le_refl _
  · exact UInt16.not_lt.mp ‹_›

theorem toNat_circle (cursor : UInt16) (k : Nat) :
    (circle cursor k).toNat = 49152 + ((portAt cursor).toNat - 49152 + k) % 16384 := by
  have hlt : 49152 + ((portAt cursor).toNat - 49152 + k) % 16384 < 65536 := by omega
  exact UInt16.toNat_ofNat_of_lt' hlt

theorem firstEphemeral_le_circle (cursor : UInt16) (k : Nat) : firstEphemeral ≤ circle cursor k := by
  have hcircle := toNat_circle cursor k
  exact UInt16.le_iff_toNat_le.mpr (show 49152 ≤ _ by omega)

theorem circle_zero (cursor : UInt16) : circle cursor 0 = portAt cursor := by
  have hle : 49152 ≤ (portAt cursor).toNat := UInt16.le_iff_toNat_le.mp (firstEphemeral_le_portAt cursor)
  have hlt := (portAt cursor).toNat_lt
  refine UInt16.toNat_inj.mp ?_
  rw [toNat_circle]
  omega

/-- The cursor that goes on from the last port wraps to nought, which stands for the first. -/
theorem toNat_portAt_add_one (cursor : UInt16) : (portAt (portAt cursor + 1)).toNat =
    if (portAt cursor).toNat = 65535 then 49152 else (portAt cursor).toNat + 1 := by
  have hle : 49152 ≤ (portAt cursor).toNat := UInt16.le_iff_toNat_le.mp (firstEphemeral_le_portAt cursor)
  have hlt := (portAt cursor).toNat_lt
  have hadd : (portAt cursor + 1).toNat = ((portAt cursor).toNat + 1) % 65536 := UInt16.toNat_add _ _
  split
  · have hzero : portAt cursor + 1 = 0 := UInt16.toNat_inj.mp (by rw [hadd]; simp [*])
    rw [hzero]
    rfl
  · have hnext : firstEphemeral ≤ portAt cursor + 1 := UInt16.le_iff_toNat_le.mpr (show 49152 ≤ _ by omega)
    rw [portAt_of_le hnext, hadd]
    omega

theorem circle_succ (cursor : UInt16) (k : Nat) : circle cursor (k + 1) = circle (portAt cursor + 1) k := by
  have hle : 49152 ≤ (portAt cursor).toNat := UInt16.le_iff_toNat_le.mp (firstEphemeral_le_portAt cursor)
  have hlt := (portAt cursor).toNat_lt
  refine UInt16.toNat_inj.mp ?_
  rw [toNat_circle, toNat_circle, toNat_portAt_add_one]
  split <;> omega

theorem exists_circle_eq (cursor : UInt16) (h : firstEphemeral ≤ port) :
    ∃ k < ephemeralCount, circle cursor k = port := by
  have hport : 49152 ≤ port.toNat := UInt16.le_iff_toNat_le.mp h
  have hport' := port.toNat_lt
  have hle : 49152 ≤ (portAt cursor).toNat := UInt16.le_iff_toNat_le.mp (firstEphemeral_le_portAt cursor)
  have hlt := (portAt cursor).toNat_lt
  refine ⟨(port.toNat + 16384 - (portAt cursor).toNat) % 16384, Nat.mod_lt _ (by decide), ?_⟩
  refine UInt16.toNat_inj.mp ?_
  rw [toNat_circle]
  omega

theorem search_eq_some_iff : r.search ip n cursor = some port ↔
    ∃ k < n, circle cursor k = port ∧ r.isFree { ip, port } = true ∧
      ∀ j < k, r.isFree { ip, port := circle cursor j } = false := by
  induction n generalizing cursor with
  | zero => simp [search]
  | succ n ih =>
    rw [search, ← circle_zero cursor]
    cases hfree : r.isFree { ip, port := circle cursor 0 } with
    | true =>
      simp only [if_true, Option.some.injEq]
      constructor
      · rintro rfl
        exact ⟨0, Nat.succ_pos n, rfl, hfree, fun j hj => absurd hj (Nat.not_lt_zero j)⟩
      · rintro ⟨k, -, hk, -, hbefore⟩
        cases k with
        | zero => exact hk
        | succ k => exact absurd (hbefore 0 (Nat.succ_pos k)) (by simp [hfree])
    | false =>
      simp only [Bool.false_eq_true, if_false, circle_zero, ih, ← circle_succ]
      constructor
      · rintro ⟨k, hk, hport, hport', hbefore⟩
        refine ⟨k + 1, Nat.succ_lt_succ hk, hport, hport', fun j hj => ?_⟩
        cases j with
        | zero => exact hfree
        | succ j => exact hbefore j (Nat.lt_of_succ_lt_succ hj)
      · rintro ⟨k, hk, hport, hport', hbefore⟩
        cases k with
        | zero => rw [← hport, hfree] at hport'; cases hport'
        | succ k =>
          exact ⟨k, Nat.lt_of_succ_lt_succ hk, hport, hport', fun j hj => hbefore (j + 1) (Nat.succ_lt_succ hj)⟩

theorem search_isSome_iff : (r.search ip n cursor).isSome = true ↔
    ∃ k < n, r.isFree { ip, port := circle cursor k } = true := by
  induction n generalizing cursor with
  | zero => simp [search]
  | succ n ih =>
    rw [search, ← circle_zero cursor]
    cases hfree : r.isFree { ip, port := circle cursor 0 } with
    | true => exact iff_of_true rfl ⟨0, Nat.succ_pos n, hfree⟩
    | false =>
      simp only [Bool.false_eq_true, if_false, circle_zero, ih, ← circle_succ]
      constructor
      · rintro ⟨k, hk, hport⟩
        exact ⟨k + 1, Nat.succ_lt_succ hk, hport⟩
      · rintro ⟨k, hk, hport⟩
        cases k with
        | zero => rw [hfree] at hport; cases hport
        | succ k => exact ⟨k, Nat.lt_of_succ_lt_succ hk, hport⟩

theorem ends_iff : r.Ends ip ↔ ∃ port, firstEphemeral ≤ port ∧ r.isFree { ip, port } = true := by
  constructor
  · rintro ⟨n, hn⟩
    obtain ⟨k, -, hfree⟩ := search_isSome_iff.mp hn
    exact ⟨_, firstEphemeral_le_circle r.cursor k, hfree⟩
  · rintro ⟨port, hport, hfree⟩
    obtain ⟨k, hk, rfl⟩ := exists_circle_eq r.cursor hport
    exact ⟨ephemeralCount, search_isSome_iff.mpr ⟨k, hk, hfree⟩⟩

/-- What any search finds is found in one round. -/
theorem search_round (h : r.search ip n cursor = some port) :
    r.search ip ephemeralCount cursor = some port := by
  obtain ⟨k, -, rfl, hfree, hbefore⟩ := search_eq_some_iff.mp h
  obtain ⟨j, hj, hjk⟩ := exists_circle_eq cursor (firstEphemeral_le_circle cursor k)
  have hkj : k ≤ j := Nat.le_of_not_lt fun hlt => by
    have hused := hbefore j hlt
    rw [hjk, hfree] at hused
    cases hused
  exact search_eq_some_iff.mpr ⟨k, Nat.lt_of_le_of_lt hkj hj, rfl, hfree, hbefore⟩

end Registry

namespace Network

open Registry (circle firstEphemeral hostFor)

structure Allotted (net : Network) (factory : Nat) (host : Ip) (port : UInt16) (net' : Network) : Prop where
  range : firstEphemeral ≤ port
  free : net.registry.owner? { ip := host, port } = none
  first : ∃ k, circle net.registry.cursor k = port ∧
    ∀ j < k, net.registry.owner? { ip := host, port := circle net.registry.cursor j } ≠ none
  owner : net'.registry.owner? { ip := host, port } = some net.sockets.size
  others : ∀ b, b ≠ { ip := host, port } → net'.registry.owner? b = net.registry.owner? b
  cursor : net'.registry.cursor = port + 1
  rest : net' = { net with
    registry := net'.registry, sockets := net.sockets.push { address := { ip := host, port }, factory } }

theorem bind_of_search {net : Network} {a : Address} (ha : a.port = 0) {port : UInt16}
    (h : net.registry.search (hostFor a.ip) Registry.ephemeralCount net.registry.cursor = some port)
    (factory : Nat) : ∃ net', net.bind factory a = (.ok net.sockets.size, net') ∧
      net.Allotted factory (hostFor a.ip) port net' := by
  obtain ⟨k, -, hport, hfree, hbefore⟩ := Registry.search_eq_some_iff.mp h
  let given : Address := { ip := hostFor a.ip, port }
  let registry : Registry := ⟨net.registry.bound.put given net.sockets.size, port + 1⟩
  have hregister : net.registry.register a net.sockets.size = (.ok given, registry) := by
    simp only [Registry.register, Registry.choose, ha, if_true, h]
    rfl
  refine ⟨{ net with registry, sockets := net.sockets.push { address := given, factory } }, ?_, ?_⟩
  · simp only [Network.bind, hregister]
  · refine ⟨hport ▸ Registry.firstEphemeral_le_circle _ k, by simpa [Registry.isFree] using hfree,
      ⟨k, hport, fun j hj hnone => ?_⟩, Table.find?_put_self _ _ _, fun b hb => Table.find?_put_ne _ hb _,
      rfl, rfl⟩
    have hused := hbefore j hj
    rw [Registry.isFree, hnone] at hused
    cases hused

/-- A socket that asks for no port, on a network in any state. The search for one ends if and only if some
ephemeral port is free on the host. It then gives the socket the first that is free round the circle, and no
other address changes hands. Where none is free the search would go round for ever, and the request is turned
down. -/
theorem bind_ephemeral (net : Network) (factory : Nat) {a : Address} (ha : a.port = 0) :
    (net.registry.Ends (hostFor a.ip) ↔
      ∃ port, firstEphemeral ≤ port ∧ net.registry.owner? { ip := hostFor a.ip, port } = none) ∧
    (∀ n port, net.registry.search (hostFor a.ip) n net.registry.cursor = some port →
      ∃ net', net.bind factory a = (.ok net.sockets.size, net') ∧
        net.Allotted factory (hostFor a.ip) port net') ∧
    (¬ net.registry.Ends (hostFor a.ip) → net.bind factory a = (.error .noPortFree, net)) := by
  refine ⟨?_, fun n port h => bind_of_search ha (Registry.search_round h) factory, fun hends => ?_⟩
  · simp only [Registry.ends_iff, Registry.isFree, Option.isNone_iff_eq_none]
  · have hnone : net.registry.search (hostFor a.ip) Registry.ephemeralCount net.registry.cursor = none := by
      cases h : net.registry.search (hostFor a.ip) Registry.ephemeralCount net.registry.cursor with
      | none => rfl
      | some port => exact absurd ⟨_, by rw [h]; rfl⟩ hends
    simp only [Network.bind, Registry.register, Registry.choose, ha, if_true, hnone]

/-- The cursor stands on the last port, which is taken as well as the first one; that the next is taken on
another host does not matter. -/
theorem bind_ephemeral_wrapped :
    let here : Ip := Ip.v4Loopback
    let there : Ip := .v4 10 0 0 1
    let taken : Table Address SocketId := ((Table.empty.put { ip := here, port := 65535 } 4).put
      { ip := here, port := 49152 } 5).put { ip := there, port := 49153 } 6
    let net : Network := { registry := { bound := taken, cursor := 65535 } }
    ∃ net', net.bind 0 { ip := Ip.v4Any, port := 0 } = (.ok 0, net') ∧
      net'.registry.owner? { ip := here, port := 49153 } = some 0 ∧
      net'.registry.owner? { ip := here, port := 65535 } = some 4 ∧ net'.registry.cursor = 49154 := by
  intro here there taken net
  obtain ⟨net', hbind, hport⟩ := (net.bind_ephemeral 0 (a := { ip := Ip.v4Any, port := 0 }) rfl).2.1 3 49153
    (by decide +kernel)
  exact ⟨net', hbind, hport.owner, (hport.others _ (by decide)).trans (by decide +kernel), hport.cursor⟩

end Network

end DatagramStreams
