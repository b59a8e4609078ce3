import KvServer.Number.Decimal
import KvServer.Number.Shortest
import KvServer.Value.Basic

/-!
# Conversions of values

A setting asks for a number, a truth value or a text.  `Value.word?`, `Value.flag?` and
`Value.text?` turn a value into one where that can be done: numbers, truth values and their names
stand for one another, tables and lists for nothing.
-/

namespace KvServer

open Number

namespace Value

def flagNamed? (s : String) : Option Bool :=
  let s := s.toLower
  if s ∈ ["true", "on", "yes"] then some true
  else if s ∈ ["false", "off", "no"] then some false
  else none

/-- The value as a 64-bit word.  A double is rounded and brought into range. -/
def word? : Value → Option UInt64
  | text s =>
      match flagNamed? s with
      | some b => some b.toUInt64
      | none => (Number.word? s.toList).map .ofNat
  | integer n => if 0 ≤ n then some (.ofNat n.toNat) else none
  | real x => some (Double.ofFloat x).word
  | flag b => some b.toUInt64
  | nothing | table _ | list _ => none

/-- The low 16 bits of the value as a word. -/
def port? (v : Value) : Option UInt16 := v.word?.map UInt64.toUInt16

/-- The value as a truth value; a number is true when it is not zero. -/
def flag? : Value → Option Bool
  | text s => if s = "1" then some true else if s = "0" then some false else flagNamed? s
  | integer n => some (n ≠ 0)
  | real x => some (Double.ofFloat x).isNonzero
  | flag b => some b
  | nothing | table _ | list _ => none

def text? : Value → Option String
  | text s => some s
  | integer n => some (toString n)
  | real x => some (.ofList (Double.ofFloat x).text)
  | flag b => some (if b then "true" else "false")
  | nothing | table _ | list _ => none

end Value

end KvServer
