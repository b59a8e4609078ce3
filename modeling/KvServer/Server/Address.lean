import KvServer.Number.Base
import KvServer.Number.Decimal

/-!
# Numeric addresses

`Address.ofHost?` reads the address that a host stands for without asking anyone.  An address of
version 4 has one to four parts with dots between them, each decimal, octal or hexadecimal, and the
last fills what the others leave.  An address of version 6 has groups with colons between them,
where `::` stands for one or more groups of zeros, and it may name a zone after a percent sign; it
may also stand in square brackets.
-/

namespace KvServer

open Number

inductive Address
  | v4 (bits : BitVec 32)
  | v6 (bits : BitVec 128)
deriving DecidableEq, Repr

namespace Address

def part? : List Char → Option Nat
  | '0' :: 'x' :: cs | '0' :: 'X' :: cs => inBase? 16 cs
  | '0' :: cs => if cs.isEmpty then some 0 else inBase? 8 cs
  | cs => inBase? 10 cs

/-- The value of parts of which the last fills what the others leave of `size` bytes. -/
def fill? : (size : Nat) → List Nat → Option Nat
  | 0, _ | _, [] => none
  | size, [n] => if n < Nat.pow 256 size then some n else none
  | size + 1, n :: ns =>
      if n < 256 then (fill? size ns).map (n * Nat.pow 256 size + ·) else none

def v4? (cs : List Char) : Option Address := do
  let ns ← (cs.splitOn '.').mapM part?
  (fill? 4 ns).map fun n ↦ .v4 (.ofNat 32 n)

/-- The value of a decimal below 256 without needless zeros. -/
def octet? (cs : List Char) : Option Nat :=
  if cs.head? = some '0' ∧ cs.length ≠ 1 then none else (decimal? cs).filter (· < 256)

def embedded? (cs : List Char) : Option (List Nat) := do
  match ← (cs.splitOn '.').mapM octet? with
  | [a, b, c, d] => some [256 * a + b, 256 * c + d]
  | _ => none

def group? (cs : List Char) : Option Nat := if cs.length ≤ 4 then inBase? 16 cs else none

/-- The groups that some parts stand for; the last part may be an address of version 4 if
`mayEmbed`. -/
def groups? (mayEmbed : Bool) : List (List Char) → Option (List Nat)
  | [] => some []
  | [part] => if mayEmbed && part.contains '.' then embedded? part else (group? part).map ([·])
  | part :: parts => do
      let g ← group? part
      let gs ← groups? mayEmbed parts
      some (g :: gs)

def colonParts (cs : List Char) : List (List Char) := if cs.isEmpty then [] else cs.splitOn ':'

def cutGap? : List Char → Option (List Char × List Char)
  | ':' :: ':' :: cs => some ([], cs)
  | c :: cs => (cutGap? cs).map fun p ↦ (c :: p.1, p.2)
  | [] => none

def v6? (cs : List Char) : Option Address := do
  let groups ← match cutGap? cs with
    | none => groups? true (colonParts cs)
    | some (before, after) => do
        let front ← groups? false (colonParts before)
        let back ← groups? true (colonParts after)
        let missing := 8 - (front.length + back.length)
        if missing = 0 then none else some (front ++ List.replicate missing 0 ++ back)
  if groups.length = 8 then some (.v6 (.ofNat 128 (groups.foldl (fun n g ↦ n * 0x10000 + g) 0)))
  else none

/-- Whether an address means something else in every zone: one of version 6 that is local to a link,
or a group of such. -/
def isLocal : Address → Bool
  | v4 _ => false
  | v6 bits => bits.extractLsb' 118 10 = 0x3fa ||
      bits.extractLsb' 120 8 = 0xff && (bits.extractLsb' 112 4).toNat ∈ [1, 2]

def isZone (cs : List Char) : Bool := (decimal? cs).any (· < 0x100000000)

/-- Reads an address of version 6 which may name its zone; `byName` lets a local one do this by the
name of the loopback interface. -/
def zoned? (byName : Bool) (cs : List Char) : Option Address :=
  match cs.splitOn '%' with
  | [cs] => v6? cs
  | [cs, zone] =>
      (v6? cs).filter fun a ↦ isZone zone || byName && a.isLocal && zone = ['l', 'o']
  | _ => none

def ofHost? (host : String) : Option Address :=
  match host.toList with
  | '[' :: cs => if cs.getLast? = some ']' then zoned? false cs.dropLast else none
  | cs => (v4? cs).or (zoned? true cs)

def isV4 : Address → Bool
  | v4 _ => true
  | v6 _ => false

def dotted (bits : BitVec 32) : String :=
  ".".intercalate ([24, 16, 8, 0].map fun i ↦ toString (bits.extractLsb' i 8).toNat)

def colons (groups : List Nat) : String :=
  ":".intercalate (groups.map fun g ↦ .ofList (Nat.toDigits 16 g))

def zeros (groups : List Nat) : Nat := (groups.takeWhile (· = 0)).length

/-- The text of an address.  Of the runs of two or more groups of zeros in an address of version 6,
`::` stands for the first of the longest. -/
def text : Address → String
  | v4 bits => dotted bits
  | v6 bits =>
      if bits.extractLsb' 32 96 = 0xffff then "::ffff:" ++ dotted (bits.extractLsb' 0 32)
      else
        let groups := (List.range 8).map fun i ↦ (bits.extractLsb' (16 * (7 - i)) 16).toNat
        let run := ((List.range 8).map fun i ↦ zeros (groups.drop i)).foldl max 0
        let start := (List.range 8).findIdx fun i ↦ zeros (groups.drop i) = run
        if run < 2 then colons groups
        else colons (groups.take start) ++ "::" ++ colons (groups.drop (start + run))

end Address

end KvServer
