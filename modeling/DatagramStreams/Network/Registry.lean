import DatagramStreams.Data.Table
import DatagramStreams.Failure

/-! Which socket holds which address. A socket bound without a port gets the first free one of the
ephemeral range, searched in a circle from where the last search ended. Main statements: a search
ends on a free port, and releasing an address frees it for its holder only.
-/

set_option autoImplicit false

namespace DatagramStreams

abbrev SocketId := Nat

structure Registry where
  bound : Table Address SocketId := {}
  /-- Where the next search begins; anything below the ephemeral range stands for its first port. -/
  cursor : UInt16 := 0

namespace Registry

def firstEphemeral : UInt16 := 49152

def ephemeralCount : Nat := 16384

def owner? (r : Registry) (a : Address) : Option SocketId := r.bound.find? a

def isFree (r : Registry) (a : Address) : Bool := (r.owner? a).isNone

def portAt (cursor : UInt16) : UInt16 := if cursor < firstEphemeral then firstEphemeral else cursor

def search (r : Registry) (ip : Ip) : Nat → UInt16 → Option UInt16
  | 0, _ => none
  | n + 1, cursor =>
    if r.isFree { ip, port := portAt cursor } then some (portAt cursor)
    else search r ip n (portAt cursor + 1)

def hostFor (ip : Ip) : Ip := if ip.isUnspecified then Ip.v4Loopback else ip

/-- The address that a request to bind `a` leads to, and the registry with its cursor moved on. -/
def choose (r : Registry) (a : Address) : Except IoError Address × Registry :=
  let ip := hostFor a.ip
  if a.port = 0 then
    match r.search ip ephemeralCount r.cursor with
    | some port => (.ok { ip, port }, { r with cursor := port + 1 })
    | none => (.error .noPortFree, r)
  else if r.isFree { ip, port := a.port } then (.ok { ip, port := a.port }, r)
  else (.error (.alreadyBound { ip, port := a.port }), r)

def register (r : Registry) (a : Address) (socket : SocketId) : Except IoError Address × Registry :=
  match r.choose a with
  | (.ok a, r) => (.ok a, { r with bound := r.bound.put a socket })
  | (.error e, r) => (.error e, r)

/-- Frees an address that `socket` still holds; whoever bound it since keeps it. -/
def release (r : Registry) (a : Address) (socket : SocketId) : Registry :=
  if r.owner? a = some socket then { r with bound := r.bound.erase a } else r

theorem isFree_of_search {r : Registry} {ip : Ip} {n : Nat} {cursor port : UInt16}
    (h : r.search ip n cursor = some port) : r.isFree { ip, port } = true := by
  induction n generalizing cursor with
  | zero => simp [search] at h
  | succ n ih =>
    by_cases hf : r.isFree { ip, port := portAt cursor } = true
    · simp only [search, hf, if_pos, Option.some.injEq] at h
      exact h ▸ hf
    · simp only [search, hf] at h
      exact ih h

theorem release_of_ne {r : Registry} {a : Address} {socket : SocketId}
    (h : r.owner? a ≠ some socket) : r.release a socket = r := by
  simp [release, h]

theorem owner?_release_self {r : Registry} {a : Address} {socket : SocketId}
    (h : r.owner? a = some socket) : (r.release a socket).owner? a = none := by
  rw [release, if_pos h]
  exact Table.find?_erase_self r.bound a

theorem owner?_release_ne (r : Registry) {a b : Address} (h : b ≠ a) (socket : SocketId) :
    (r.release a socket).owner? b = r.owner? b := by
  unfold release
  split
  · exact Table.find?_erase_ne r.bound h
  · rfl

end Registry

end DatagramStreams
