import KvServer.Value.Basic

/-!
# Paths into values

A path goes into a value step by step, by the name of an entry or the index of an item.
`Value.assign` puts a value at its end and makes the tables and lists that it needs on its way.
Only an index can be out of place: one from the end of a list has to be inside the list, and one
from the front must not ask for a list that is too long.
-/

namespace KvServer.Value

inductive Step
  | entry (name : String)
  /-- To the item at an index, which counts from the end of the list when it is negative. -/
  | item (index : Int)
deriving DecidableEq, Repr

def maxLength : Nat := 0x1000000

/-- The position that an index means in a list of some length, which may have to grow for it. -/
def position? (index : Int) (length : Nat) : Option Nat :=
  if 0 ≤ index then if index.toNat < maxLength then some index.toNat else none
  else if index.natAbs ≤ length then some (length - index.natAbs)
  else none

/-- Items with empty places behind them, so that there is one at a position. -/
def reach (position : Nat) (items : List Value) : List Value :=
  items ++ List.replicate (position + 1 - items.length) nothing

def assign (v : Value) : List Step → (old : Value) → Option Value
  | [], _ => some v
  | [.entry name], old => some (merge old (table [(name, v)]))
  | .entry name :: path, old =>
      (assign v path ((old.get? name).getD nothing)).map (set name · old)
  | .item index :: path, old => do
      let i ← position? index old.items.length
      let items := reach i old.items
      some (list (items.set i (← assign v path (items.getD i nothing))))

end KvServer.Value
