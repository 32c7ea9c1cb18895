/-! Decimal fractions: a sign, an integer, and the place of its last digit behind the point. A zero
keeps its sign.
-/

set_option autoImplicit false

namespace DatagramStreams

structure Decimal where
  negative : Bool := false
  digits : Nat := 0
  places : Int := 0
  deriving DecidableEq, Repr

namespace Decimal

def zeros (n : Nat) : List Char := List.replicate n '0'

/-- Digits `ds`, the first of them worth `10 ^ (e - 1)`, in positional notation. -/
def positional (ds : List Char) (e : Int) : List Char :=
  if e ≤ 0 then ['0', '.'] ++ zeros (-e).toNat ++ ds
  else if e.toNat < ds.length then ds.take e.toNat ++ ['.'] ++ ds.drop e.toNat
  else ds ++ zeros (e.toNat - ds.length) ++ ['.', '0']

def scientific (ds : List Char) (e : Int) : List Char :=
  match ds with
  | [d] => [d, 'e'] ++ (toString (e - 1)).toList
  | d :: r => [d, '.'] ++ r ++ ['e'] ++ (toString (e - 1)).toList
  | [] => []

def magnitudeText (n : Nat) (places : Int) : List Char :=
  let all := Nat.toDigits 10 n
  let e : Int := all.length - places
  let ds := (all.reverse.dropWhile (· = '0')).reverse
  if n = 0 then ['0', '.', '0']
  else if -3 ≤ e && e ≤ 16 then positional ds e
  else scientific ds e

def text (d : Decimal) : String :=
  (if d.negative then "-" else "") ++ String.ofList (magnitudeText d.digits d.places)

end Decimal

end DatagramStreams
