import DatagramStreams.Session.Handler

/-! The journal of a connection: everything its application saw and did.
-/

set_option autoImplicit false

namespace DatagramStreams

structure Journal where
  /-- Newest first. -/
  entries : List Happening := []
  /-- Kept beside the entries, so that a late look need not count them. -/
  size : Nat := 0
  accepted : List Octets := []
  size_eq : size = entries.length := by rfl

namespace Journal

def empty : Journal := {}

def add (j : Journal) (h : Happening) : Journal where
  entries := h :: j.entries
  size := j.size + 1
  accepted := j.accepted
  size_eq := by simp [j.size_eq]

def noteSend (j : Journal) (payload : Octets) : Except ConnectionError Unit → Journal
  | .ok () => { j with accepted := payload :: j.accepted }
  | .error _ => j

def taken (j : Journal) : List Octets := j.accepted.reverse

def since (j before : Journal) : List Happening := (j.entries.take (j.size - before.size)).reverse

def callbacks (j : Journal) : List Callback :=
  j.entries.reverse.filterMap fun
    | .callback c => some c
    | _ => none

@[simp] theorem entries_add (j : Journal) (h : Happening) : (j.add h).entries = h :: j.entries := rfl

@[simp] theorem since_self (j : Journal) : j.since j = [] := by simp [since]

end Journal

end DatagramStreams
