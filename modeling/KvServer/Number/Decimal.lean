/-!
# Decimal numbers

`decimal?` reads a nonempty run of ASCII digits, with any number of leading zeros.
`unsigned? bound` also takes one leading plus sign and refuses a value that `bound` does not
exceed.
-/

namespace KvServer.Number

def digit? (c : Char) : Option Nat :=
  if '0' ≤ c ∧ c ≤ '9' then some (c.toNat - '0'.toNat) else none

/-- The value of the digits `ds` written after digits of value `n`. -/
def ofDigits (n : Nat) (ds : List Nat) : Nat := ds.foldl (fun n d ↦ n * 10 + d) n

def decimal? (cs : List Char) : Option Nat :=
  if cs.isEmpty then none else (cs.mapM digit?).map (ofDigits 0)

/-- The value of a run of digits below `bound`, after one plus sign at most. -/
def unsigned? (bound : Nat) (cs : List Char) : Option Nat :=
  let ds := match cs with
    | '+' :: ds => ds
    | _ => cs
  (decimal? ds).filter (· < bound)

def wordBound : Nat := 0x10000000000000000

def word? (cs : List Char) : Option Nat := unsigned? wordBound cs

end KvServer.Number
