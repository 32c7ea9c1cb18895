import DatagramStreams.Proofs.Network.Letters
import DatagramStreams.Simulation.Tasks

/-! Errands of a running network. A datagram that is held back is announced, then a task sets an alarm for it, and
when the alarm rings the task releases it. Everything else leaves the errands that are underway alone.
Main statements: `takesOn_hearAll`, `takesOn_ring` and `runs_runErrand`.
-/

set_option autoImplicit false

namespace DatagramStreams

/-- What a task has to do with a datagram that is held back, and whether it is to release it. -/
def Task.errand? : Task → Option (Held × Bool)
  | .hold h => some (h, false)
  | .release h => some (h, true)
  | .loop _ | .opening _ => none

def Alarm.errand? (a : Alarm) : Option (Held × Nat) :=
  match a.task with
  | .release h => some (h, a.millisecond)
  | _ => none

def Signal.errand? : Signal → Option (Held × Bool)
  | .held h => some (h, false)
  | _ => none

namespace Simulation

variable {s s' s'' : Simulation} {t : Task} {h : Held}

def errands (s : Simulation) : List (Held × Bool) := s.ready.toList.filterMap Task.errand?

def waiting (s : Simulation) : List (Held × Nat) := s.alarms.filterMap Alarm.errand?

/-- No task is ready to run, and there is nothing to hear of. -/
def AtRest (s : Simulation) : Prop := s.ready.toList = [] ∧ s.net.signals = []

instance (s : Simulation) : Decidable s.AtRest := inferInstanceAs (Decidable (_ ∧ _))

/-- Whoever waits for mail runs no errand, and alarms are set for releases only. -/
structure Tidy (s : Simulation) : Prop where
  sleepers : ∀ e ∈ s.sleepers, e.2.errand? = none
  alarms : ∀ a ∈ s.alarms, ∀ h, a.task ≠ .hold h

/-- From `s` to `s'` these errands have been taken on; otherwise clock, network and errands are as they were. -/
structure TakesOn (new : List (Held × Bool)) (s s' : Simulation) : Prop where
  now : s'.now = s.now
  net : s'.net = s.net
  errands : s'.errands = s.errands ++ new
  waiting : s'.waiting = s.waiting
  tidy : s.Tidy → s'.Tidy

abbrev Aside (s s' : Simulation) : Prop := TakesOn [] s s'

theorem TakesOn.refl (s : Simulation) : TakesOn [] s s := ⟨rfl, rfl, (List.append_nil _).symm, rfl, fun h => h⟩

theorem TakesOn.trans {new new' : List (Held × Bool)} (h₁ : TakesOn new s s') (h₂ : TakesOn new' s' s'') :
    TakesOn (new ++ new') s s'' where
  now := h₂.now.trans h₁.now
  net := h₂.net.trans h₁.net
  errands := by rw [h₂.errands, h₁.errands, List.append_assoc]
  waiting := h₂.waiting.trans h₁.waiting
  tidy h := h₂.tidy (h₁.tidy h)

theorem takesOn_foldl {α : Type} {f : Simulation → α → Simulation} {new : α → Option (Held × Bool)} {l : List α}
    (hf : ∀ x ∈ l, ∀ s : Simulation, s.Tidy → TakesOn (new x).toList s (f s x)) (htidy : s.Tidy) :
    TakesOn (l.filterMap new) s (l.foldl f s) := by
  induction l generalizing s with
  | nil => exact .refl s
  | cons x rest ih =>
    have hfirst := hf x List.mem_cons_self s htidy
    have hrest := ih (fun y hy => hf y (List.mem_cons_of_mem x hy)) (hfirst.tidy htidy)
    have hboth := hfirst.trans hrest
    cases hx : new x <;> simpa [hx] using hboth

theorem filterMap_filter_comm {α β : Type} {f : α → Option β} {p : α → Bool} {q : β → Bool}
    (h : ∀ x y, f x = some y → p x = q y) (l : List α) : (l.filter p).filterMap f = (l.filterMap f).filter q := by
  induction l with
  | nil => rfl
  | cons x rest ih =>
    cases hx : f x with
    | none => cases hp : p x <;> simp [hp, hx, ih]
    | some y => cases hp : p x <;> simp [hp, hx, ih, ← h x y hx]

theorem aside_wake (s : Simulation) (ht : t.errand? = none) : Aside s (s.wake t) := by
  refine ⟨rfl, rfl, ?_, ?_, fun htidy => ⟨fun e he => ?_, fun a ha => ?_⟩⟩
  · simp only [errands, wake]
    split <;> simp [ht]
  · simp only [waiting, wake]
    rw [filterMap_filter_comm (q := fun _ => true) fun a e ha => ?_, List.filter_eq_self.mpr fun _ _ => rfl]
    refine decide_eq_true fun htask => ?_
    subst t
    cases hkind : a.task <;> simp [Alarm.errand?, Task.errand?, hkind] at ha ht
  · exact htidy.sleepers e (List.mem_filter.mp he).1
  · exact htidy.alarms a (List.mem_filter.mp ha).1

theorem takesOn_spawn (s : Simulation) (t : Task) : TakesOn t.errand?.toList s (s.spawn t) := by
  refine ⟨rfl, rfl, ?_, rfl, fun htidy => ⟨htidy.sleepers, htidy.alarms⟩⟩
  cases ht : t.errand? <;> simp [errands, spawn, ht]

theorem takesOn_hear (x : Signal) (s : Simulation) (htidy : s.Tidy) : TakesOn x.errand?.toList s (s.hear x) := by
  cases x with
  | mail id =>
    simp only [hear]
    split
    · rename_i e he
      exact aside_wake s (htidy.sleepers e (List.mem_of_find?_eq_some he))
    · exact .refl s
  | shut id =>
    have hwake : ∀ t ∈ (s.sleepers.filter fun e => e.1 = id).map Prod.snd, ∀ s' : Simulation, s'.Tidy →
        TakesOn (none : Option (Held × Bool)).toList s' (s'.wake t) := by
      intro t ht s' _
      obtain ⟨e, he, rfl⟩ := List.mem_map.mp ht
      exact aside_wake s' (htidy.sleepers e (List.mem_filter.mp he).1)
    have hall := takesOn_foldl hwake htidy
    rw [List.filterMap_eq_nil_iff.mpr fun _ _ => rfl] at hall
    exact hall
  | held h => exact takesOn_spawn s (.hold h)

/-- Whatever has been held back is heard of, and becomes an errand. -/
theorem takesOn_hearAll (htidy : s.Tidy) :
    TakesOn (s.net.heldBack.map fun h => (h, false)) { s with net := { s.net with signals := [] } } s.hearAll := by
  have htidy' : { s with net := { s.net with signals := [] } }.Tidy := ⟨htidy.sleepers, htidy.alarms⟩
  have hall := takesOn_foldl (fun (x : Signal) (_ : x ∈ s.net.signals.reverse) => takesOn_hear x) htidy'
  have hheld : s.net.signals.reverse.filterMap Signal.errand? = s.net.heldBack.map fun h => (h, false) := by
    rw [Network.heldBack, List.map_filterMap]
    congr 1
    funext x
    cases x <;> rfl
  rwa [hheld] at hall

/-! ### Alarms -/

def isRung (now : Instant) (millisecond : Nat) : Bool := millisecond * Span.millisecond ≤ now

theorem millisecond_of_errand {a : Alarm} {e : Held × Nat} (h : a.errand? = some e) : e.2 = a.millisecond := by
  cases hkind : a.task <;> simp only [Alarm.errand?, hkind, reduceCtorEq, Option.some.injEq] at h
  exact h ▸ rfl

theorem takesOn_ring (htidy : s.Tidy) :
    TakesOn ((s.waiting.filter fun e => isRung s.now e.2).reverse.map fun e => (e.1, true))
      { s with alarms := s.alarms.filter fun a => !s.isDue a } s.ring := by
  have htidy' : { s with alarms := s.alarms.filter fun a => !s.isDue a }.Tidy :=
    ⟨htidy.sleepers, fun a ha => htidy.alarms a (List.mem_filter.mp ha).1⟩
  have hdue : (s.alarms.filter s.isDue).reverse.filterMap (fun a => a.errand?.map fun e => (e.1, true)) =
      (s.waiting.filter fun e => isRung s.now e.2).reverse.map fun e => (e.1, true) := by
    rw [waiting, ← filterMap_filter_comm (p := s.isDue) fun a e ha => by rw [millisecond_of_errand ha]; rfl]
    rw [← List.filterMap_reverse, List.map_filterMap]
  rw [← hdue]
  refine takesOn_foldl (fun a ha s' _ => ?_) htidy'
  have hhold := htidy.alarms a (List.mem_filter.mp (List.mem_reverse.mp ha)).1
  cases hkind : a.task with
  | loop n => simpa [Alarm.errand?, hkind] using aside_wake s' (t := .loop n) rfl
  | opening n => simpa [Alarm.errand?, hkind] using aside_wake s' (t := .opening n) rfl
  | hold h => exact absurd hkind (hhold h)
  | release h => simpa [Alarm.errand?, Task.errand?, hkind] using takesOn_spawn s' (.release h)

theorem waiting_filter (s : Simulation) : { s with alarms := s.alarms.filter fun a => !s.isDue a }.waiting =
    s.waiting.filter fun e => !isRung s.now e.2 := by
  refine filterMap_filter_comm (fun a e ha => ?_) _
  rw [millisecond_of_errand ha]
  rfl

/-! ### Turns -/

def errandInFront (s : Simulation) : Bool :=
  match s.ready.pop? with
  | some (t, _) => t.errand?.isSome
  | none => false

def runErrand (s : Simulation) : Simulation :=
  match s.ready.pop? with
  | some (.hold h, rest) => { s with ready := rest }.holdBack h
  | some (.release h, rest) => { s with ready := rest }.deliverHeld h
  | _ => s

def dueAt (s : Simulation) (h : Held) : Nat := millisecondAfter (s.now + h.delay)

theorem holdBack_of_rung (hr : isRung s.now (s.dueAt h) = true) : s.holdBack h = s.deliverHeld h :=
  if_pos hr

theorem holdBack_of_not_rung (hr : isRung s.now (s.dueAt h) = false) :
    s.holdBack h = { s with alarms := ⟨s.dueAt h, .release h⟩ :: s.alarms } :=
  if_neg (ne_true_of_eq_false hr)

theorem holdBack_ready (s : Simulation) (ready : Queue Task) (h : Held) :
    { s with ready }.holdBack h = { s.holdBack h with ready } := by
  cases hrung : isRung s.now (s.dueAt h) with
  | true => rw [holdBack_of_rung hrung, holdBack_of_rung (s := { s with ready }) hrung]; rfl
  | false => rw [holdBack_of_not_rung hrung, holdBack_of_not_rung (s := { s with ready }) hrung]; rfl

/-- From `s` to `s'` an errand is run: the datagram is delivered, or waits for an alarm. -/
structure ErrandRun (h : Held) (ripe : Bool) (rest : List (Held × Bool)) (s s' : Simulation) : Prop where
  front : s.errands = (h, ripe) :: rest
  now : s'.now = s.now
  errands : s'.errands = rest
  tidy : s.Tidy → s'.Tidy
  released : (ripe || isRung s.now (s.dueAt h)) = true →
    s'.net = s.net.deliver h.datagram h.target ∧ s'.waiting = s.waiting
  held : (ripe || isRung s.now (s.dueAt h)) = false → s'.net = s.net ∧ s'.waiting = (h, s.dueAt h) :: s.waiting

theorem runs_runErrand (hfront : s.errandInFront = true) : ∃ h ripe rest, ErrandRun h ripe rest s s.runErrand := by
  unfold errandInFront at hfront
  cases hpop : s.ready.pop? with
  | none => simp [hpop] at hfront
  | some popped =>
    obtain ⟨t, rest⟩ := popped
    have hlist := Queue.toList_of_pop? hpop
    cases t with
    | loop n => simp [hpop, Task.errand?] at hfront
    | opening n => simp [hpop, Task.errand?] at hfront
    | release h =>
      simp only [runErrand, hpop]
      refine ⟨h, true, rest.toList.filterMap Task.errand?, ?_, rfl, rfl, fun ht => ⟨ht.sleepers, ht.alarms⟩,
        fun _ => ⟨rfl, rfl⟩, fun hripe => by cases hripe⟩
      simp [errands, hlist, Task.errand?]
    | hold h =>
      simp only [runErrand, hpop]
      have hfront : s.errands = (h, false) :: rest.toList.filterMap Task.errand? := by
        simp [errands, hlist, Task.errand?]
      refine ⟨h, false, rest.toList.filterMap Task.errand?, ?_⟩
      cases hrung : isRung s.now (s.dueAt h) with
      | true =>
        rw [holdBack_of_rung (s := { s with ready := rest }) hrung]
        exact ⟨hfront, rfl, rfl, fun ht => ⟨ht.sleepers, ht.alarms⟩, fun _ => ⟨rfl, rfl⟩,
          fun hheld => by simp [hrung] at hheld⟩
      | false =>
        rw [holdBack_of_not_rung (s := { s with ready := rest }) hrung]
        refine ⟨hfront, rfl, rfl, fun ht => ⟨ht.sleepers, fun a ha => ?_⟩, fun hrel => by simp [hrung] at hrel,
          fun _ => ⟨rfl, rfl⟩⟩
        rcases List.mem_cons.mp ha with rfl | ha
        · exact fun _ => by simp
        · exact ht.alarms a ha

end Simulation

end DatagramStreams
