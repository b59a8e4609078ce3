import KvServer.Number.Base

/-!
# Numbers of a TOML document

An integer is a run of digits in which single underscores may stand between digits; in base ten it
has no needless leading zero.  A number with a fraction or an exponent is a double, rounded
correctly.
-/

namespace KvServer.Toml

open Number

structure RunRule where
  base : Nat := 10
  signed : Bool := false
  leadingZeros : Bool := true

structure RunState where
  /-- Whether the run starts with a zero; none before the first digit. -/
  zeroFirst : Option Bool := none
  underscore : Bool := false

/-- The digits of a run without its underscores, and the characters after it. -/
def runFrom (rule : RunRule) : RunState → List Char → Option (List Char × List Char)
  | st, c :: cs =>
      if isDigitOf rule.base c then
        if st.zeroFirst = some true && !rule.leadingZeros then none
        else (runFrom rule ⟨st.zeroFirst.or (some (c = '0')), false⟩ cs).map fun p ↦ (c :: p.1, p.2)
      else if c = '_' && st.zeroFirst.isNone then none
      else if c = '_' && !st.underscore then runFrom rule { st with underscore := true } cs
      else if st.zeroFirst.isNone || st.underscore then none
      else some ([], c :: cs)
  | st, [] => if st.zeroFirst.isNone || st.underscore then none else some ([], [])

structure Run where
  negative : Bool
  digits : List Char

def run? (rule : RunRule) (cs : List Char) : Option (Run × List Char) :=
  match rule.signed, cs with
  | true, '-' :: rest => (runFrom rule {} rest).map fun p ↦ (⟨true, p.1⟩, p.2)
  | true, '+' :: rest => (runFrom rule {} rest).map fun p ↦ (⟨false, p.1⟩, p.2)
  | _, _ => (runFrom rule {} cs).map fun p ↦ (⟨false, p.1⟩, p.2)

def Run.value (base : Nat) (r : Run) : Int :=
  if r.negative then -(valueOf base r.digits) else valueOf base r.digits

def integerBound : Int := 0x8000000000000000

/-- The integer that a word is in a base, if it fits 64 bits with a sign. -/
def integer? (base : Nat) (cs : List Char) : Option Int := do
  let (r, rest) ← run? ⟨base, base = 10, base ≠ 10⟩ cs
  let n := r.value base
  if rest.isEmpty && -integerBound ≤ n && n < integerBound then some n else none

def anyInteger? : List Char → Option Int
  | '0' :: 'x' :: cs => integer? 16 cs
  | '0' :: 'o' :: cs => integer? 8 cs
  | '0' :: 'b' :: cs => integer? 2 cs
  | cs => integer? 10 cs

def hasBase : List Char → Bool
  | '0' :: 'x' :: _ | '0' :: 'o' :: _ | '0' :: 'b' :: _ => true
  | _ => false

def real? (negative : Bool) (digits : List Char) (exponent : Int) : Option Float :=
  let m := valueOf 10 digits
  let magnitude := exponent + (Nat.toDigits 10 m).length
  let x :=
    if m = 0 ∨ magnitude < -400 then 0
    else if 400 < magnitude then 1.0 / 0.0
    else Float.ofScientific m (exponent < 0) exponent.natAbs
  if x.isInf then none else some (if negative then -x else x)

end KvServer.Toml
