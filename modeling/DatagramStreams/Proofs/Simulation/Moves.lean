import DatagramStreams.Proofs.Simulation.Turns

/-! Runs of a network, in moves between which anybody may look at it: commands, turns of background tasks and
the passing of time. All that a command leads to, however long it waits, is such moves.
Main statements: `Reached.orderly` and `Reached.execute`.
-/

set_option autoImplicit false

namespace DatagramStreams.Simulation

inductive Move where
  | command (c : Command)
  /-- Tasks hear what has happened on the network, and sockets that nobody refers to are swept away. -/
  | sweep
  | turn
  | look
  | report
  | pass (span : Span)

def reported (s : Simulation) : Simulation :=
  { s with opened := [], events := [], net := { s.net with transmissions := [] } }

def Move.run (s : Simulation) : Move → Simulation
  | .command c => (s.carryOut c).2
  | .sweep => s.hearAll.sweepSockets
  | .turn => s.turn
  | .look => s.lookAtEnded
  | .report => s.reported
  | .pass span => { s with now := s.now + span }.ring

def Move.waits : Move → Bool
  | .command c => Simulation.waits c
  | _ => false

def Move.stops (s : Simulation) : Move → List Nat
  | .command c => s.stoppedBy c
  | _ => []

def Move.runAll : List Move → Simulation → Simulation
  | [], s => s
  | m :: rest, s => runAll rest (m.run s)

def Move.stopsAll : List Move → Simulation → List Nat
  | [], _ => []
  | m :: rest, s => stopsAll rest (m.run s) ++ m.stops s

/-- Moves lead from an empty network to this state, and have stopped these servers. -/
inductive Reached : List Nat → Simulation → Prop
  | start : Reached [] {}
  | move {stopped : List Nat} {s : Simulation} (h : Reached stopped s) (m : Move) (hm : m.waits = false) :
      Reached (m.stops s ++ stopped) (m.run s)

variable {role : SocketId → Role} {stopped : List Nat} {s : Simulation}

theorem Orderly.move (h : Orderly role stopped s) (m : Move) (hm : m.waits = false) :
    ∃ role', Orderly role' (m.stops s ++ stopped) (m.run s) := by
  cases m with
  | command c => exact h.carryOut c hm
  | sweep => exact ⟨role, (h.rests (rests_hearAll s)).sweepSockets⟩
  | turn => exact h.turn
  | look => exact ⟨role, h.lookAtEnded⟩
  | report => exact ⟨role, h.rests (.other ⟨rfl, fun _ => rfl⟩)⟩
  | pass span => exact ⟨role, (h.rests (.other (.refl _))).rests (rests_ring _)⟩

theorem Reached.orderly (h : Reached stopped s) : ∃ role, Orderly role stopped s := by
  induction h with
  | start => exact ⟨_, orderly_start⟩
  | move _ m hm ih =>
    obtain ⟨role, ho⟩ := ih
    exact ho.move m hm

theorem Reached.moves (h : Reached stopped s) (l : List Move) (hl : ∀ m ∈ l, m.waits = false) :
    Reached (Move.stopsAll l s ++ stopped) (Move.runAll l s) := by
  induction l generalizing s stopped with
  | nil => exact h
  | cons m rest ih =>
    rw [Move.stopsAll, List.append_assoc]
    exact ih (h.move m (hl m List.mem_cons_self)) fun m' hm' => hl m' (List.mem_cons_of_mem m hm')

/-! ### Commands that wait -/

theorem Reached.turns (h : Reached stopped s) (n : Nat) : Reached stopped (turns n s) := by
  induction n generalizing s with
  | zero => exact h
  | succ n ih =>
    unfold Simulation.turns
    split
    · exact h
    · exact ih (h.move .turn rfl)

theorem Reached.settle (h : Reached stopped s) : Reached stopped s.settle :=
  (h.move .sweep rfl).turns patience

theorem Reached.tick (h : Reached stopped s) (span : Span) : Reached stopped (s.tick span) :=
  (h.move (.pass span) rfl).settle

theorem Reached.ticks (h : Reached stopped s) (n : Nat) : Reached stopped (ticks n s) := by
  induction n generalizing s with
  | zero => exact h
  | succ n ih => exact ih (h.tick Span.millisecond)

theorem Reached.advance (h : Reached stopped s) (span : Span) : Reached stopped (s.advance span) := by
  unfold Simulation.advance
  split
  · exact h.tick span
  · have hticks := h.ticks (span / Span.millisecond)
    simp only
    split
    · exact hticks
    · exact hticks.tick _

theorem Reached.pumpServers (h : Reached stopped s) (names : List String) :
    Reached stopped (pumpServers names s) := by
  induction names generalizing s with
  | nil => exact h
  | cons name rest ih => exact ih (h.move (.command (.pollServer name)) rfl).settle

theorem Reached.pumpConnections (h : Reached stopped s) (names : List String)
    (failed : Table String ConnectionError) : Reached stopped (pumpConnections names failed s).2 := by
  induction names generalizing s failed with
  | nil => exact h
  | cons name rest ih => exact ih (h.move (.command (.pollConnection name)) rfl).settle _

theorem Reached.pump (h : Reached stopped s) (span : Span) (n : Nat) (failed : Table String ConnectionError) :
    Reached stopped (pump span n failed s).2 := by
  induction n generalizing s failed with
  | zero => exact h
  | succ n ih =>
    have hconnections := (h.pumpServers (sortedNames s.hostNames)).pumpConnections
      (sortedNames (Simulation.pumpServers (sortedNames s.hostNames) s).connectionNames) failed
    exact ih (hconnections.advance span) _

theorem Reached.carryOut (h : Reached stopped s) (c : Command) :
    Reached (s.stoppedBy c ++ stopped) (s.carryOut c).2 := by
  cases hc : waits c with
  | false => exact h.move (.command c) hc
  | true =>
    cases c with
    | advance span => exact h.advance span
    | pump rounds span => exact h.pump span rounds {}
    | _ => cases hc

/-- Commands lead from moments that can be looked at to such moments. -/
theorem Reached.execute (h : Reached stopped s) (c : Command) :
    Reached (s.stoppedBy c ++ stopped) (s.execute c).2 :=
  ((h.carryOut c).settle.move .look rfl).move .report rfl

end DatagramStreams.Simulation
