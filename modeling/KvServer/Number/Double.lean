/-!
# Doubles

A double is read off its bits as a number with a power of two, an infinity, or no number at all.
`Double.word` rounds it to a 64-bit word.
-/

namespace KvServer.Number

/-- A number `significand * 2 ^ exponent`, with the interval of the reals that round to it.  The
interval is counted in quarters of the unit `2 ^ exponent`. -/
structure Binary where
  significand : Nat
  exponent : Int
  /-- How many quarters of a unit the interval reaches down: one at a power of two, else two. -/
  below : Nat
deriving DecidableEq, Repr

namespace Binary

def ofFields (exponent fraction : Nat) : Binary :=
  if exponent = 0 then ⟨fraction, -1074, 2⟩
  else
    let below := if fraction = 0 ∧ 1 < exponent then 1 else 2
    ⟨fraction + 0x10000000000000, (exponent : Int) - 1075, below⟩

def round (b : Binary) : Nat :=
  let unit := Nat.pow 2 (-b.exponent).toNat
  (2 * b.significand * Nat.pow 2 b.exponent.toNat + unit) / (2 * unit)

end Binary

inductive Double
  | nan
  | infinite (negative : Bool)
  | finite (negative : Bool) (b : Binary)
deriving DecidableEq, Repr

namespace Double

def ofFloat (x : Float) : Double :=
  let bits := x.toBits.toBitVec
  let exponent := (bits.extractLsb' 52 11).toNat
  let fraction := (bits.extractLsb' 0 52).toNat
  if exponent = 2047 then if fraction = 0 then infinite bits.msb else nan
  else finite bits.msb (.ofFields exponent fraction)

/-- The nearest 64-bit word, where a half is rounded up; no number is zero. -/
def word : Double → UInt64
  | nan | infinite true | finite true _ => 0
  | infinite false => 0xffffffffffffffff
  | finite false b => .ofNat (min b.round 0xffffffffffffffff)

def isNonzero : Double → Bool
  | nan | infinite _ => true
  | finite _ b => b.significand ≠ 0

end Double

end KvServer.Number
