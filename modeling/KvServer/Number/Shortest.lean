import KvServer.Number.Double

/-!
# Shortest decimals

The text of a double is the decimal with the fewest digits that reads back as the double, in
positional notation.  A decimal reads back when it lies in the interval of the reals that round to
the double; the ends belong to it when the significand is even.  Of two decimals on one grid the
nearer is taken.
-/

namespace KvServer.Number

namespace Binary

/-- The numerator and denominator of `quarters * 2 ^ exponent / 4 / 10 ^ power`. -/
def scaled (b : Binary) (power : Int) (quarters : Nat) : Nat × Nat :=
  (quarters * Nat.pow 2 b.exponent.toNat * Nat.pow 10 (-power).toNat,
    4 * Nat.pow 2 (-b.exponent).toNat * Nat.pow 10 power.toNat)

/-- Whether the decimal `c * 10 ^ power` rounds to the number. -/
def holds (b : Binary) (power : Int) (c : Nat) : Bool :=
  let low := b.scaled power (4 * b.significand - b.below)
  let high := b.scaled power (4 * b.significand + 2)
  let x := c * low.2
  if b.significand % 2 = 0 then low.1 ≤ x && x ≤ high.1 else low.1 < x && x < high.1

/-- The multiple of `10 ^ power` nearest to the number among those that round to it; a tie goes
up. -/
def onGrid (b : Binary) (power : Int) : Option Nat :=
  let v := b.scaled power (4 * b.significand)
  let lower := v.1 / v.2
  match b.holds power lower, b.holds power (lower + 1) with
  | true, true => some (if 2 * (v.1 % v.2) < v.2 then lower else lower + 1)
  | true, false => some lower
  | false, true => some (lower + 1)
  | false, false => none

/-- The decimal on the coarsest grid that has one, from `10 ^ power` downwards. -/
def search (b : Binary) : (fuel : Nat) → (power : Int) → Nat × Int
  | 0, power => (b.significand, power)
  | fuel + 1, power =>
      match b.onGrid power with
      | some c => (c, power)
      | none => search b fuel (power - 1)

def shortest (b : Binary) : Nat × Int := b.search 660 309

end Binary

def positional (c : Nat) (power : Int) : List Char :=
  let ds := Nat.toDigits 10 c
  let places := (-power).toNat
  let whole := ds.length - places
  if 0 ≤ power then ds ++ List.replicate power.toNat '0'
  else if places < ds.length then ds.take whole ++ '.' :: ds.drop whole
  else ['0', '.'] ++ List.replicate (places - ds.length) '0' ++ ds

def Double.text : Double → List Char
  | nan => ['N', 'a', 'N']
  | infinite negative => signed negative ['i', 'n', 'f']
  | finite negative b =>
      if b.significand = 0 then signed negative ['0']
      else signed negative (positional b.shortest.1 b.shortest.2)
where
  signed (negative : Bool) (cs : List Char) : List Char := if negative then '-' :: cs else cs

end KvServer.Number
