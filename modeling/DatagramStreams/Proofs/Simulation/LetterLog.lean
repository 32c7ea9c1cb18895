import DatagramStreams.Proofs.Simulation.Errands

/-! A record of all letters beside a running network: what has been sent, delivered and read, and where the letters
are that are underway. It is written event by event, whoever does what on the network.
Main statements: `Reached.tied`, `Reached.booked` and `Reached.inboxes`.
-/

set_option autoImplicit false

namespace DatagramStreams

open Network (Outside)
open Simulation (Aside isRung millisecondAfter)

/-- The millisecond that the alarm for a copy of a letter is set to when its task first runs. -/
def Letter.alarm (l : Letter) (begun : Instant) : Nat := millisecondAfter (begun + l.delay)

structure LetterLog where
  sim : Simulation
  letters : List Letter := []
  deliveries : List Delivery := []
  reads : List Reading := []
  announced : List Letter := []
  /-- Letters whose tasks are to run, and when they first ran, if they have. -/
  queued : List (Letter × Option Instant) := []
  /-- Letters whose alarm is set, and when their tasks first ran, newest first. -/
  asleep : List (Letter × Instant) := []

namespace LetterLog

def fresh (factories : Array Factory) : LetterLog := { sim := { net := { factories } } }

def underway (c : LetterLog) : List Letter :=
  c.announced ++ c.queued.map Prod.fst ++ c.asleep.map Prod.fst

def act (c : LetterLog) (x : Outside) : LetterLog :=
  { c with
    sim := { c.sim with net := x.run c.sim.net }
    letters := c.letters ++ x.posted c.sim.net c.sim.now
    deliveries := c.deliveries ++ x.delivered c.sim.net c.sim.now
    reads := c.reads ++ x.read c.sim.net
    announced := c.announced ++ (x.posted c.sim.net c.sim.now).flatMap Letter.late }

def hear (c : LetterLog) : LetterLog :=
  { c with
    sim := c.sim.hearAll
    announced := []
    queued := c.queued ++ c.announced.map fun l => (l, none) }

def released (c : LetterLog) (l : Letter) (begun : Instant) (queued : List (Letter × Option Instant)) : LetterLog :=
  { c with
    sim := c.sim.runErrand
    queued
    deliveries := c.deliveries ++ [c.sim.net.handOver begun c.sim.now (some l) l.datagram l.target] }

def putOff (c : LetterLog) (l : Letter) (queued : List (Letter × Option Instant)) : LetterLog :=
  { c with sim := c.sim.runErrand, queued, asleep := (l, c.sim.now) :: c.asleep }

def turn (c : LetterLog) : LetterLog :=
  match c.sim.errandInFront, c.queued with
  | true, (l, begun) :: queued =>
    if begun.isSome || isRung c.sim.now (l.alarm c.sim.now) then c.released l (begun.getD c.sim.now) queued
    else c.putOff l queued
  | _, _ => c

def pass (c : LetterLog) (span : Span) : LetterLog :=
  let now := c.sim.now + span
  { c with
    sim := { c.sim with now }.ring
    queued := c.queued ++ (c.asleep.filter fun e => isRung now (e.1.alarm e.2)).reverse.map fun e => (e.1, some e.2)
    asleep := c.asleep.filter fun e => !isRung now (e.1.alarm e.2) }

def forget (c : LetterLog) : LetterLog :=
  { c with sim := { c.sim with net := { c.sim.net with transmissions := [] } } }

/-- A network runs, from factories that have sent nothing. -/
inductive Reached : LetterLog → Prop
  | start (factories : Array Factory) (h : ∀ f ∈ factories, f.faults.sent = 0) :
      Reached (fresh factories)
  | act {c : LetterLog} (h : Reached c) (x : Outside) (hx : x.takesSignals = false) : Reached (c.act x)
  | hear {c : LetterLog} (h : Reached c) : Reached c.hear
  | turn {c : LetterLog} (h : Reached c) : Reached c.turn
  | pass {c : LetterLog} (h : Reached c) (span : Span) : Reached (c.pass span)
  | forget {c : LetterLog} (h : Reached c) : Reached c.forget
  /-- Whatever else happens to connections, servers and other tasks. -/
  | aside {c : LetterLog} {s : Simulation} (h : Reached c) (hs : Aside c.sim s) : Reached { c with sim := s }

/-! ### Where the letters are -/

/-- The errands of the network are the letters of the record. -/
structure Tied (c : LetterLog) : Prop where
  announced : c.sim.net.heldBack = c.announced.map Letter.toHeld
  queued : c.sim.errands = c.queued.map fun e => (e.1.toHeld, e.2.isSome)
  asleep : c.sim.waiting = c.asleep.map fun e => (e.1.toHeld, e.1.alarm e.2)
  tidy : c.sim.Tidy
  tenured : c.sim.net.Tenured fun _ => False

variable {c : LetterLog}

theorem Tied.nothing_queued (h : c.Tied) (hrest : c.sim.AtRest) : c.announced = [] ∧ c.queued = [] := by
  obtain ⟨hready, hsignals⟩ := hrest
  constructor
  · simpa [Network.heldBack, hsignals] using h.announced.symm
  · simpa [Simulation.errands, hready] using h.queued.symm

theorem tied_start (factories : Array Factory) : (fresh factories).Tied where
  announced := rfl
  queued := rfl
  asleep := rfl
  tidy := ⟨by simp [fresh], by simp [fresh]⟩
  tenured := (Network.tenured_start _).same ⟨rfl, fun _ => rfl⟩

theorem Tied.act (h : c.Tied) {x : Outside} (hx : x.takesSignals = false) : (c.act x).Tied where
  announced := by
    have hrun := h.tenured.heldBack_run c.sim.now hx
    simp only [LetterLog.act, hrun, h.announced, List.map_append]
  queued := h.queued
  asleep := h.asleep
  tidy := ⟨h.tidy.sleepers, h.tidy.alarms⟩
  tenured := h.tenured.run x

theorem Tied.hear (h : c.Tied) : c.hear.Tied := by
  have hall := Simulation.takesOn_hearAll h.tidy
  have hnet : c.hear.sim.net = { c.sim.net with signals := [] } := hall.net
  refine ⟨?_, ?_, ?_, hall.tidy ⟨h.tidy.sleepers, h.tidy.alarms⟩, ?_⟩
  · rw [hnet]
    rfl
  · have herrands : c.hear.sim.errands = c.sim.errands ++ c.sim.net.heldBack.map fun h => (h, false) := hall.errands
    rw [herrands, h.queued, h.announced]
    simp [LetterLog.hear]
  · exact hall.waiting.trans h.asleep
  · rw [hnet]
    exact h.tenured.same ⟨rfl, fun _ => rfl⟩

theorem Tied.aside (h : c.Tied) {s : Simulation} (hs : Aside c.sim s) : Tied { c with sim := s } where
  announced := by rw [hs.net]; exact h.announced
  queued := by rw [hs.errands, List.append_nil]; exact h.queued
  asleep := hs.waiting.trans h.asleep
  tidy := hs.tidy h.tidy
  tenured := by rw [hs.net]; exact h.tenured

theorem Tied.forget (h : c.Tied) : c.forget.Tied where
  announced := h.announced
  queued := h.queued
  asleep := h.asleep
  tidy := ⟨h.tidy.sleepers, h.tidy.alarms⟩
  tenured := h.tenured.same ⟨rfl, fun _ => rfl⟩

theorem Tied.pass (h : c.Tied) (span : Span) : (c.pass span).Tied := by
  have htidy : { c.sim with now := c.sim.now + span }.Tidy := ⟨h.tidy.sleepers, h.tidy.alarms⟩
  have hring := Simulation.takesOn_ring htidy
  have hasleep : { c.sim with now := c.sim.now + span }.waiting = c.asleep.map fun e => (e.1.toHeld, e.1.alarm e.2) :=
    h.asleep
  have hnet : (c.pass span).sim.net = c.sim.net := hring.net
  refine ⟨?_, ?_, ?_, hring.tidy ⟨h.tidy.sleepers, fun a ha => h.tidy.alarms a (List.mem_filter.mp ha).1⟩, ?_⟩
  · rw [hnet]
    exact h.announced
  · have hqueued : { c.sim with now := c.sim.now + span }.errands = c.queued.map fun e => (e.1.toHeld, e.2.isSome) :=
      h.queued
    refine hring.errands.trans ?_
    rw [hasleep, List.filter_map, ← List.map_reverse, List.map_map]
    simp only [LetterLog.pass, List.map_append, List.map_map, ← hqueued]
    rfl
  · refine hring.waiting.trans ?_
    rw [Simulation.waiting_filter, hasleep, List.filter_map]
    rfl
  · rw [hnet]
    exact h.tenured

theorem Tied.turn_cases (h : c.Tied) : c.sim.errandInFront = false ∧ c.turn = c ∨
    ∃ l begun queued, c.queued = (l, begun) :: queued ∧
    Simulation.ErrandRun l.toHeld begun.isSome (queued.map fun e => (e.1.toHeld, e.2.isSome)) c.sim c.sim.runErrand ∧
    ((begun.isSome || isRung c.sim.now (l.alarm c.sim.now)) = true ∧
        c.turn = c.released l (begun.getD c.sim.now) queued ∨
      (begun.isSome || isRung c.sim.now (l.alarm c.sim.now)) = false ∧ c.turn = c.putOff l queued) := by
  cases hfront : c.sim.errandInFront with
  | false => exact .inl ⟨rfl, by simp only [turn, hfront]⟩
  | true =>
    obtain ⟨held, ripe, rest, hruns⟩ := Simulation.runs_runErrand hfront
    have hmap := h.queued.symm.trans hruns.front
    cases hqueued : c.queued with
    | nil => simp [hqueued] at hmap
    | cons e queued =>
      obtain ⟨l, begun⟩ := e
      simp only [hqueued, List.map_cons, List.cons.injEq, Prod.mk.injEq] at hmap
      obtain ⟨⟨rfl, rfl⟩, rfl⟩ := hmap
      refine .inr ⟨l, begun, queued, rfl, hruns, ?_⟩
      cases hrung : begun.isSome || isRung c.sim.now (l.alarm c.sim.now) with
      | true => exact .inl ⟨rfl, by simp only [turn, hfront, hqueued, hrung, if_true]⟩
      | false => exact .inr ⟨rfl, by simp only [turn, hfront, hqueued, hrung, if_false, Bool.false_eq_true]⟩

theorem Tied.turn (h : c.Tied) : c.turn.Tied := by
  rcases h.turn_cases with ⟨-, hstay⟩ | ⟨l, begun, queued, -, hruns, ⟨hrung, hturn⟩ | ⟨hrung, hturn⟩⟩
  · rwa [hstay]
  · obtain ⟨hnet, hwaiting⟩ := hruns.released hrung
    have hunsent := Network.unsent_deliver c.sim.net l.datagram l.target
    rw [hturn]
    refine ⟨?_, hruns.errands, hwaiting.trans h.asleep, hruns.tidy h.tidy, ?_⟩
    · exact (congrArg Network.heldBack hnet).trans (hunsent.heldBack.trans h.announced)
    · exact hnet ▸ h.tenured.same (Network.deliver_same _ _ _)
  · obtain ⟨hnet, hwaiting⟩ := hruns.held hrung
    rw [hturn]
    refine ⟨?_, hruns.errands, ?_, hruns.tidy h.tidy, ?_⟩
    · exact (congrArg Network.heldBack hnet).trans h.announced
    · simp only [putOff, hwaiting, h.asleep, List.map_cons]
      rfl
    · exact hnet ▸ h.tenured

theorem Reached.tied (h : Reached c) : c.Tied := by
  induction h with
  | start factories => exact tied_start factories
  | act _ x hx ih => exact ih.act hx
  | hear _ ih => exact ih.hear
  | turn _ ih => exact ih.turn
  | pass _ span ih => exact ih.pass span
  | forget _ ih => exact ih.forget
  | aside _ hs ih => exact ih.aside hs

/-! ### Books and mailboxes -/

theorem net_hear (h : c.Tied) : c.hear.sim.net = { c.sim.net with signals := [] } :=
  (Simulation.takesOn_hearAll h.tidy).net

theorem net_pass (h : c.Tied) (span : Span) : (c.pass span).sim.net = c.sim.net := by
  have htidy : { c.sim with now := c.sim.now + span }.Tidy := ⟨h.tidy.sleepers, h.tidy.alarms⟩
  exact (Simulation.takesOn_ring htidy).net

theorem Reached.booked (h : Reached c) : c.sim.net.Booked c.letters := by
  induction h with
  | start _ h => exact Network.booked_start h
  | act hrun x hx ih => exact ih.run hrun.tied.tenured _ hx
  | hear hrun ih =>
    rw [net_hear hrun.tied]
    exact ih.congr fun _ => rfl
  | @turn c hrun ih =>
    rcases hrun.tied.turn_cases with ⟨-, hstay⟩ | ⟨l, begun, queued, -, hruns, ⟨hrung, hturn⟩ | ⟨hrung, hturn⟩⟩
    · rwa [hstay]
    · rw [hturn, released, (hruns.released hrung).1]
      exact ih.congr (Network.unsent_deliver _ _ _).faults?
    · rw [hturn, putOff, (hruns.held hrung).1]
      exact ih
  | pass hrun span ih =>
    rw [net_pass hrun.tied]
    exact ih
  | forget _ ih => exact ih.congr fun _ => rfl
  | aside _ hs ih =>
    simp only [hs.net]
    exact ih

theorem Reached.inboxes (h : Reached c) : c.sim.net.Inboxes c.deliveries c.reads := by
  induction h with
  | start => exact fun _ => ⟨[], rfl, fun _ => rfl⟩
  | act hrun x _ ih => exact ih.exchanges (hrun.tied.tenured.exchanges _ x)
  | hear hrun ih =>
    rw [net_hear hrun.tied]
    exact ih
  | @turn c hrun ih =>
    rcases hrun.tied.turn_cases with ⟨-, hstay⟩ | ⟨l, begun, queued, -, hruns, ⟨hrung, hturn⟩ | ⟨hrung, hturn⟩⟩
    · rwa [hstay]
    · rw [hturn, released, (hruns.released hrung).1]
      have hbrings := hrun.tied.tenured.brings_deliver (begun.getD c.sim.now) c.sim.now (some l) l.datagram l.target
      have hnothing : Network.Exchanges c.sim.net (c.sim.net.deliver l.datagram l.target)
          (fun id => arrivals id [c.sim.net.handOver (begun.getD c.sim.now) c.sim.now (some l) l.datagram l.target])
          fun id => readings id [] := hbrings.exchanges
      simpa only [List.append_nil] using ih.exchanges hnothing
    · rw [hturn, putOff, (hruns.held hrung).1]
      exact ih
  | pass hrun span ih =>
    rw [net_pass hrun.tied]
    exact ih
  | forget _ ih => exact ih
  | aside _ hs ih =>
    simp only [hs.net]
    exact ih

theorem Reached.reads_got (h : Reached c) :
    ∀ r ∈ c.reads, r.got = (r.datagram.source, r.datagram.octets.take r.limit) := by
  induction h with
  | start => exact fun r hr => by cases hr
  | act _ x _ ih =>
    intro r hr
    rcases List.mem_append.mp hr with hr | hr
    · exact ih r hr
    · exact Outside.read_got hr
  | @turn c hrun ih =>
    rcases hrun.tied.turn_cases with ⟨-, hstay⟩ | ⟨l, begun, queued, -, -, ⟨-, hturn⟩ | ⟨-, hturn⟩⟩
    · rwa [hstay]
    · rwa [hturn]
    · rwa [hturn]
  | hear _ ih => exact ih
  | pass _ _ ih => exact ih
  | forget _ ih => exact ih
  | aside _ _ ih => exact ih

end LetterLog

end DatagramStreams
