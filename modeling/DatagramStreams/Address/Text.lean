import DatagramStreams.Address.Basic

/-! Written socket addresses: dotted quads, and IPv6 in brackets with the first of its longest runs of
two or more zero groups written as a double colon.
-/

set_option autoImplicit false

namespace DatagramStreams

namespace Ip

def hexText (n : Nat) : String := String.ofList (Nat.toDigits 16 n)

def joinGroups (gs : List UInt16) : String := ":".intercalate (gs.map fun g => hexText g.toNat)

def quadText (a b c d : UInt8) : String :=
  ".".intercalate ([a, b, c, d].map fun o => toString o.toNat)

def zeroRun : List UInt16 → Nat
  | [] => 0
  | g :: r => if g = 0 then zeroRun r + 1 else 0

def longestRun (i : Nat) : List UInt16 → Nat × Nat
  | [] => (i, 0)
  | g :: r =>
    let later := longestRun (i + 1) r
    let here := zeroRun (g :: r)
    if later.2 ≤ here then (i, here) else later

def groupsText (gs : List UInt16) : String :=
  let (start, length) := longestRun 0 gs
  if 1 < length then joinGroups (gs.take start) ++ "::" ++ joinGroups (gs.drop (start + length))
  else joinGroups gs

def mapped? : List UInt16 → Option (UInt16 × UInt16)
  | [0, 0, 0, 0, 0, 0xffff, h, l] => some (h, l)
  | _ => none

def text : Ip → String
  | .v4 a b c d => quadText a b c d
  | .v6 gs =>
    match mapped? gs.toList with
    | some (h, l) =>
      "::ffff:" ++ quadText (h / 256).toUInt8 h.toUInt8 (l / 256).toUInt8 l.toUInt8
    | none => groupsText gs.toList

end Ip

namespace Address

def text (a : Address) : String :=
  match a.ip with
  | .v4 .. => a.ip.text ++ ":" ++ toString a.port.toNat
  | .v6 _ =>
    "[" ++ a.ip.text ++ (if a.zone = 0 then "" else "%" ++ toString a.zone.toNat) ++ "]:" ++
      toString a.port.toNat

def pieces (sep : Char) : List Char → List (List Char)
  | [] => [[]]
  | c :: r =>
    if c = sep then [] :: pieces sep r
    else match pieces sep r with
      | p :: ps => (c :: p) :: ps
      | [] => [[c]]

def decimalValue? (limit : Nat) (cs : List Char) : Option Nat :=
  if cs.isEmpty || !cs.all Char.isDigit then none
  else
    let n := cs.foldl (fun n c => n * 10 + (c.toNat - 48)) 0
    if n < limit then some n else none

def octet? (cs : List Char) : Option UInt8 :=
  if 3 < cs.length || (1 < cs.length && cs.head? = some '0') then none
  else (decimalValue? 256 cs).map UInt8.ofNat

def quad? (cs : List Char) : Option (UInt8 × UInt8 × UInt8 × UInt8) :=
  match pieces '.' cs with
  | [a, b, c, d] => do pure (← octet? a, ← octet? b, ← octet? c, ← octet? d)
  | _ => none

def hexValue? (c : Char) : Option Nat :=
  if c.isDigit then some (c.toNat - 48)
  else if 'a' ≤ c && c ≤ 'f' then some (c.toNat - 87)
  else if 'A' ≤ c && c ≤ 'F' then some (c.toNat - 55)
  else none

def group? (cs : List Char) : Option UInt16 :=
  if cs.isEmpty || 4 < cs.length then none
  else (cs.mapM hexValue?).map fun ds => UInt16.ofNat (ds.foldl (fun n d => n * 16 + d) 0)

/-- Groups between colons; the last piece may be a quad, which stands for two groups. -/
def groups? : List (List Char) → Option (List UInt16)
  | [] => some []
  | [p] =>
    if p.contains '.' then do
      let (a, b, c, d) ← quad? p
      pure [a.toUInt16 * 256 + b.toUInt16, c.toUInt16 * 256 + d.toUInt16]
    else do pure [← group? p]
  | p :: ps => do pure ((← group? p) :: (← groups? ps))

def splitGap? : List Char → Option (List Char × List Char)
  | ':' :: ':' :: r => some ([], r)
  | c :: r => (splitGap? r).map fun (a, b) => (c :: a, b)
  | [] => none

def groupsOf? (cs : List Char) : Option (List UInt16) :=
  if cs.isEmpty then some [] else groups? (pieces ':' cs)

def ip6? (cs : List Char) : Option Ip := do
  let gs ← match splitGap? cs with
    | none => groups? (pieces ':' cs)
    | some (front, back) => do
      let f ← groupsOf? front
      let b ← groupsOf? back
      if !front.contains '.' && f.length + b.length < 8 then
        some (f ++ List.replicate (8 - f.length - b.length) 0 ++ b)
      else none
  if h : gs.length = 8 then some (.v6 ⟨gs.toArray, by simpa using h⟩) else none

def port? (cs : List Char) : Option UInt16 := (decimalValue? 65536 cs).map UInt16.ofNat

def ofV6? (cs : List Char) : Option Address := do
  let inside := cs.takeWhile (· ≠ ']')
  match cs.dropWhile (· ≠ ']') with
  | ']' :: ':' :: portDigits =>
    let ip ← ip6? (inside.takeWhile (· ≠ '%'))
    let port ← port? portDigits
    match inside.dropWhile (· ≠ '%') with
    | _ :: z => do pure { ip, port, zone := UInt32.ofNat (← decimalValue? 4294967296 z) }
    | [] => pure { ip, port }
  | _ => none

def ofV4? (cs : List Char) : Option Address := do
  let (a, b, c, d) ← quad? (cs.takeWhile (· ≠ ':'))
  let port ← port? ((cs.dropWhile (· ≠ ':')).drop 1)
  pure { ip := .v4 a b c d, port }

def ofText? (s : String) : Option Address :=
  match s.toList with
  | '[' :: r => ofV6? r
  | cs => ofV4? cs

end Address

end DatagramStreams
