import KvServer.Number.Decimal

/-!
# Dates and times of a TOML document

A moment is a date, a time of day, or both; one with a date may tell the offset of its clock.
`Moment.parse?` reads it and `Moment.text` writes it in its normal form: a capital `T` between date
and time, a capital `Z` for no offset, and no needless zero in the fraction of a second.
-/

namespace KvServer.Toml

open Number

structure Date where
  year : Nat
  month : Nat
  day : Nat
deriving DecidableEq, Repr

structure Clock where
  hour : Nat
  minute : Nat
  second : Nat
  nanosecond : Nat
deriving DecidableEq, Repr

inductive Offset
  | zulu
  | custom (hours : Int) (minutes : Nat)
deriving DecidableEq, Repr

structure Moment where
  date : Option Date
  clock : Option Clock
  offset : Option Offset
deriving DecidableEq, Repr

def digits? (n : Nat) (cs : List Char) : Option (Nat × List Char) :=
  let ds := cs.take n
  if ds.length = n then (decimal? ds).map (·, cs.drop n) else none

def after? (c : Char) : List Char → Option (List Char)
  | d :: cs => if d = c then some cs else none
  | [] => none

def Date.read? (cs : List Char) : Option (Date × List Char) := do
  let (year, cs) ← digits? 4 cs
  let cs ← after? '-' cs
  let (month, cs) ← digits? 2 cs
  let cs ← after? '-' cs
  let (day, cs) ← digits? 2 cs
  if 1 ≤ month ∧ month ≤ 12 ∧ 1 ≤ day ∧ day ≤ 31 then some (⟨year, month, day⟩, cs) else none

/-- Reads the fraction of a second, in nanoseconds; digits past the ninth do not count. -/
def fraction? (cs : List Char) : Option (Nat × List Char) :=
  match cs with
  | '.' :: rest =>
      let ds := rest.takeWhile fun c ↦ (digit? c).isSome
      (decimal? ((ds ++ List.replicate 9 '0').take 9)).bind fun n ↦
        if ds.isEmpty then none else some (n, rest.drop ds.length)
  | _ => some (0, cs)

def Clock.read? (cs : List Char) : Option (Clock × List Char) := do
  let (hour, cs) ← digits? 2 cs
  let cs ← after? ':' cs
  let (minute, cs) ← digits? 2 cs
  let cs ← after? ':' cs
  let (second, cs) ← digits? 2 cs
  let (nanosecond, cs) ← fraction? cs
  if hour ≤ 24 ∧ minute ≤ 59 ∧ second ≤ 59 then some (⟨hour, minute, second, nanosecond⟩, cs)
  else none

def Offset.read? : List Char → Option (Option Offset)
  | [] => some none
  | ['Z'] | ['z'] => some (some .zulu)
  | sign :: cs => do
      if sign ≠ '+' ∧ sign ≠ '-' then none
      let (hours, cs) ← digits? 2 cs
      let cs ← after? ':' cs
      let (minutes, cs) ← digits? 2 cs
      if !cs.isEmpty then none
      some (some (.custom (if sign = '-' then -hours else hours) minutes))

/-- Whether a character may stand between a date and a time. -/
def joinsClock (c : Char) : Bool := c = 'T' || c = 't' || c = ' '

/-- Reads a moment.  An offset may follow a date, with or without a time of day between them. -/
def Moment.parse? (cs : List Char) : Option Moment := do
  if cs[2]? = some ':' then
    let (clock, cs) ← Clock.read? cs
    if cs.isEmpty then some ⟨none, some clock, none⟩ else none
  else
    let (date, cs) ← Date.read? cs
    let (clock, cs) ←
      if cs.head?.any joinsClock then (Clock.read? (cs.drop 1)).map fun p ↦ (some p.1, p.2)
      else some (none, cs)
    some ⟨some date, clock, ← Offset.read? cs⟩

def padded (width n : Nat) : List Char :=
  let ds := Nat.toDigits 10 n
  List.replicate (width - ds.length) '0' ++ ds

def Date.text (d : Date) : List Char :=
  padded 4 d.year ++ '-' :: padded 2 d.month ++ '-' :: padded 2 d.day

def Clock.text (c : Clock) : List Char :=
  let seconds := padded 2 c.hour ++ ':' :: padded 2 c.minute ++ ':' :: padded 2 c.second
  if c.nanosecond = 0 then seconds
  else seconds ++ '.' :: ((padded 9 c.nanosecond).reverse.dropWhile (· = '0')).reverse

def Offset.text : Offset → List Char
  | .zulu => ['Z']
  | .custom hours minutes =>
      (if hours < 0 then '-' else '+') :: padded 2 hours.natAbs ++ ':' :: padded 2 minutes

def Moment.text (m : Moment) : List Char :=
  let date := m.date.elim [] Date.text
  let clock := m.clock.elim [] Clock.text
  let between := if m.date.isSome ∧ m.clock.isSome then ['T'] else []
  date ++ between ++ clock ++ m.offset.elim [] Offset.text

end KvServer.Toml
