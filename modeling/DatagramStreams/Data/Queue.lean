/-! Queues as two lists, so that both ends are cheap. Main statements: what each operation does to
`toList`.
-/

set_option autoImplicit false

namespace DatagramStreams

structure Queue (α : Type) where
  front : List α := []
  /-- Newest first. -/
  back : List α := []
  deriving DecidableEq, Repr

namespace Queue

variable {α : Type}

def ofList (l : List α) : Queue α := { front := l }

def toList (q : Queue α) : List α :=
  match q.back with
  | [] => q.front
  | back => q.front ++ back.reverse

def isEmpty (q : Queue α) : Bool := q.front.isEmpty && q.back.isEmpty

def size (q : Queue α) : Nat := q.front.length + q.back.length

def push (q : Queue α) (x : α) : Queue α := { q with back := x :: q.back }

def pushFront (q : Queue α) (x : α) : Queue α := { q with front := x :: q.front }

def pop? (q : Queue α) : Option (α × Queue α) :=
  match q.front with
  | x :: front => some (x, { q with front })
  | [] =>
    match q.back.reverse with
    | x :: front => some (x, ofList front)
    | [] => none

def tail (q : Queue α) : Queue α :=
  match q.pop? with
  | some (_, q) => q
  | none => q

def contains [DecidableEq α] (q : Queue α) (x : α) : Bool := q.front.contains x || q.back.contains x

theorem toList_eq (q : Queue α) : q.toList = q.front ++ q.back.reverse := by
  unfold toList
  split
  · simp [*]
  · rfl

@[simp] theorem toList_empty : ({} : Queue α).toList = [] := rfl

@[simp] theorem toList_ofList (l : List α) : (ofList l).toList = l := rfl

@[simp] theorem toList_push (q : Queue α) (x : α) : (q.push x).toList = q.toList ++ [x] := by
  simp [toList_eq, push]

@[simp] theorem toList_pushFront (q : Queue α) (x : α) : (q.pushFront x).toList = x :: q.toList := by
  simp [toList_eq, pushFront]

theorem isEmpty_iff {q : Queue α} : q.isEmpty = true ↔ q.toList = [] := by
  simp [isEmpty, toList_eq]

theorem pop?_eq_none_iff {q : Queue α} : q.pop? = none ↔ q.toList = [] := by
  rw [toList_eq]
  cases hf : q.front with
  | cons x front => simp [pop?, hf]
  | nil => cases hb : q.back.reverse <;> simp [pop?, hf, hb]

theorem toList_of_pop? {q r : Queue α} {x : α} (h : q.pop? = some (x, r)) :
    q.toList = x :: r.toList := by
  rw [toList_eq]
  cases hf : q.front with
  | cons y front =>
    simp only [pop?, hf, Option.some.injEq, Prod.mk.injEq] at h
    obtain ⟨rfl, rfl⟩ := h
    simp [toList_eq]
  | nil =>
    cases hb : q.back.reverse with
    | nil => simp [pop?, hf, hb] at h
    | cons y front =>
      simp only [pop?, hf, hb, Option.some.injEq, Prod.mk.injEq] at h
      obtain ⟨rfl, rfl⟩ := h
      simp

theorem toList_tail (q : Queue α) : q.tail.toList = q.toList.tail := by
  unfold tail
  split
  · rename_i h
    rw [toList_of_pop? h]; rfl
  · rename_i h
    rw [pop?_eq_none_iff.mp h]; rfl

end Queue

end DatagramStreams
