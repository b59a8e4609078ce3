import KvServer.Number.Decimal
import KvServer.Toml.Token
import KvServer.Value.Path

/-!
# Keys of settings

A key is a name, and it may go on to a place inside what has the name: a dot leads to an entry of a
table, an index in square brackets to an item of a list.  A text that is no such path is a name as
a whole.
-/

namespace KvServer

namespace Key

def isNameChar (c : Char) : Bool := Toml.isWordChar c || c = ' '

/-- Reads an index, which has to be a 64-bit integer with a sign. -/
def index? (cs : List Char) : Option (Int × List Char) :=
  let cs := cs.dropWhile Toml.isGap
  let (negative, cs) := match cs with
    | '-' :: cs => (true, cs)
    | cs => (false, cs)
  let limit := if negative then 0x8000000000000001 else 0x8000000000000000
  (Number.decimal? (cs.takeWhile Char.isDigit)).bind fun n ↦
    if n < limit then
      some (if negative then -n else n, (cs.dropWhile Char.isDigit).dropWhile Toml.isGap)
    else none

def steps? : (fuel : Nat) → List Char → Option (List Value.Step)
  | 0, _ => none
  | _ + 1, [] => some []
  | fuel + 1, '.' :: cs =>
      let name := cs.takeWhile isNameChar
      if name.isEmpty then none
      else (steps? fuel (cs.dropWhile isNameChar)).map (.entry (.ofList name) :: ·)
  | fuel + 1, '[' :: cs =>
      match index? cs with
      | some (index, ']' :: cs) => (steps? fuel cs).map (.item index :: ·)
      | _ => none
  | _ + 1, _ => none

/-- The path that a key stands for. -/
def path (key : String) : List Value.Step :=
  let cs := key.toList
  let name := cs.takeWhile isNameChar
  let inwards := cs.dropWhile isNameChar
  match steps? (inwards.length + 1) inwards with
  | some steps => if name.isEmpty then [.entry key] else .entry (.ofList name) :: steps
  | none => [.entry key]

end Key

end KvServer
