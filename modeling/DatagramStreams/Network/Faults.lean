import DatagramStreams.Data.Binary64
import DatagramStreams.Packet.Encoding
import DatagramStreams.Time.Text

/-! What a lossy network does to the datagrams sent through one factory: loss, duplication and delay,
by chance, by position among all datagrams sent, or by the packet inside.
-/

set_option autoImplicit false

namespace DatagramStreams

structure FaultPlan where
  lossRate : Binary64 := {}
  duplicateRate : Binary64 := {}
  delayRate : Binary64 := {}
  delay : Span := Span.milliseconds 50
  seed : Nat := 0
  /-- Positions, counted from 0, of datagrams that are always lost. -/
  dropIndices : List Nat := []
  delayIndices : List Nat := []
  dropWhen : Option (Packet → Bool) := none

namespace FaultPlan

def selects (plan : FaultPlan) (b : Octets) : Bool :=
  match plan.dropWhen, Packet.decode? b with
  | some test, some p => test p
  | _, _ => false

def indexText (indices : List Nat) : String :=
  "\x7b" ++ ", ".intercalate (indices.eraseDups.map toString) ++ "\x7d"

def description (plan : FaultPlan) : String :=
  "SimulatorConfig \x7b loss_rate: " ++ plan.lossRate.text ++
    ", duplicate_rate: " ++ plan.duplicateRate.text ++
    ", delay_rate: " ++ plan.delayRate.text ++
    ", delay: " ++ plan.delay.text ++
    ", seed: " ++ toString plan.seed ++
    ", drop_indices: " ++ indexText plan.dropIndices ++
    ", delay_indices: " ++ indexText plan.delayIndices ++
    ", drop_when: " ++ (if plan.dropWhen.isSome then "Some(\"..\")" else "None") ++ " \x7d"

end FaultPlan

inductive Fate where
  | lost
  | delivered (copies : Nat) (held : Bool)
  deriving DecidableEq, Repr

/-- A plan with its position: how many datagrams have been sent, and how often chance was asked. -/
structure FaultModel where
  plan : FaultPlan
  dice : Nat → Rat := fun _ => 1 / 2
  drawn : Nat := 0
  sent : Nat := 0

namespace FaultModel

def draw (m : FaultModel) : Rat × FaultModel := (m.dice m.drawn, { m with drawn := m.drawn + 1 })

/-- Chance is asked for loss first, then for duplication, then for delay, and not at all for what is
settled without it. -/
def decide (m : FaultModel) (b : Octets) : Fate × FaultModel :=
  let plan := m.plan
  let index := m.sent
  let m := { m with sent := m.sent + 1 }
  if plan.dropIndices.contains index || plan.selects b then (.lost, m)
  else
    let (loss, m) := m.draw
    if loss < plan.lossRate.toRat then (.lost, m)
    else
      let (twice, m) := m.draw
      let copies := if twice < plan.duplicateRate.toRat then 2 else 1
      if plan.delayIndices.contains index then (.delivered copies true, m)
      else
        let (late, m) := m.draw
        (.delivered copies (late < plan.delayRate.toRat), m)

end FaultModel

end DatagramStreams
