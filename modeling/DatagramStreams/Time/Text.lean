import DatagramStreams.Time.Span

/-! How a span reads: in the largest unit of which it holds at least one, with the rest as a decimal
fraction that drops its trailing zeros.
-/

set_option autoImplicit false

namespace DatagramStreams.Span

def fixedDigits (places n : Nat) : List Char :=
  match places with
  | 0 => []
  | k + 1 => fixedDigits k (n / 10) ++ [Nat.digitChar (n % 10)]

def dropTrailingZeros (digits : List Char) : List Char :=
  (digits.reverse.dropWhile (· = '0')).reverse

def fraction (places n : Nat) : String :=
  match dropTrailingZeros (fixedDigits places n) with
  | [] => ""
  | digits => "." ++ String.ofList digits

def inUnit (unit places : Nat) (name : String) (s : Span) : String :=
  toString (s / unit) ++ fraction places (s % unit) ++ name

def text (s : Span) : String :=
  if second ≤ s then inUnit second 9 "s" s
  else if millisecond ≤ s then inUnit millisecond 6 "ms" s
  else if microsecond ≤ s then inUnit microsecond 3 "µs" s
  else inUnit 1 0 "ns" s

end DatagramStreams.Span
