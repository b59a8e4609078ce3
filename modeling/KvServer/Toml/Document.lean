import KvServer.Toml.Meaning
import KvServer.Toml.Number
import KvServer.Toml.Token

/-!
# TOML documents

`parse?` reads the entries that a document stands for, or refuses the document.
-/

namespace KvServer.Toml

def skipBlanks : List Token → List Token
  | .blank _ :: ts => skipBlanks ts
  | ts => ts

def expect (t : Token) : List Token → Option (List Token)
  | u :: ts => if u = t then some ts else none
  | [] => none

def lineEnd? : List Token → Option (List Token)
  | [] | [.comment] => some []
  | .newline :: ts | .comment :: .newline :: ts => some ts
  | _ => none

/-- The tokens after blanks, line ends and comments; a comment has to end its line. -/
def skipLines : List Token → Option (List Token)
  | .blank _ :: ts | .newline :: ts | .comment :: .newline :: ts => skipLines ts
  | [.comment] => some []
  | .comment :: _ => none
  | ts => some ts

def name? : List Token → Option (List Char × List Token)
  | .word cs :: ts => some (cs, ts)
  | .quoted cs false :: ts => some (cs, ts)
  | _ => none

def key? : (fuel : Nat) → List Token → Option (List (List Char) × List Token)
  | 0, _ => none
  | fuel + 1, ts => do
      let (name, ts) ← name? ts
      match skipBlanks ts with
      | .dot :: ts =>
          let (names, ts) ← key? fuel (skipBlanks ts)
          some (name :: names, ts)
      | ts => some ([name], ts)

def markedWord? (mark : Token) (sign : Char) : List Token → Option (List Char × List Token)
  | t :: ts =>
      if t = mark then
        match ts with
        | .word cs :: ts => some (sign :: cs, ts)
        | _ => none
      else some ([], t :: ts)
  | [] => some ([], [])

def clockRest? (ts : List Token) : Option (List Char × List Token) := do
  let (minutes, ts) ← markedWord? .colon ':' (.colon :: ts)
  let (seconds, ts) ← markedWord? .colon ':' (.colon :: (← expect .colon ts))
  let (fraction, ts) ← markedWord? .dot '.' ts
  let (plus, ts) ← markedWord? .plus '+' ts
  let (minutesOff, ts) ← markedWord? .colon ':' ts
  some (minutes ++ seconds ++ fraction ++ plus ++ minutesOff, ts)

def moment? (cs : List Char) (ts : List Token) : Option (Item × List Token) := do
  let (cs, ts) := match ts with
    | .blank [' '] :: .word hour :: ts => (cs ++ ' ' :: hour, ts)
    | ts => (cs, ts)
  let (rest, ts) ← match ts with
    | .colon :: ts => clockRest? ts
    | ts => some ([], ts)
  some (.moment (cs ++ rest), ts)

/-- Reads the exponent after its letter: digits that follow at once, or after a plus sign. -/
def exponent? (cs : List Char) (ts : List Token) : Option (Int × List Token) := do
  let (signed, cs, ts) ← match cs, ts with
    | [], .plus :: .word cs :: ts | [], .word cs :: ts => some (false, cs, ts)
    | [], _ => none
    | cs, ts => some (true, cs, ts)
  let (r, rest) ← run? { signed } cs
  if rest.isEmpty then some (r.value 10, ts) else none

def double? (cs : List Char) (after : Option (List Char)) (ts : List Token) :
    Option (Item × List Token) := do
  let (whole, suffix) ← run? { signed := true, leadingZeros := false } cs
  let (fraction, suffix) ← match after with
    | none => some ([], suffix)
    | some after =>
        if suffix.isEmpty then (run? {} after).map fun p ↦ (p.1.digits, p.2) else none
  let (exponent, ts) ← match suffix with
    | [] => some (0, ts)
    | e :: suffix => if e = 'e' ∨ e = 'E' then exponent? suffix ts else none
  let x ← real? whole.negative (whole.digits ++ fraction) (exponent - fraction.length)
  some (.real x, ts)

def number? (cs : List Char) (ts : List Token) : Option (Item × List Token) :=
  if hasBase cs then (anyInteger? cs).map (.integer ·, ts)
  else if cs.contains 'e' || cs.contains 'E' then double? cs none ts
  else match ts with
    | .dot :: .word after :: ts => double? cs (some after) ts
    | .dot :: _ => none
    | ts =>
        if cs = ['i', 'n', 'f'] then some (.real (1.0 / 0.0), ts)
        else if cs = ['-', 'i', 'n', 'f'] then some (.real (-1.0 / 0.0), ts)
        else if cs = ['n', 'a', 'n'] ∨ cs = ['-', 'n', 'a', 'n'] then some (.real (0.0 / 0.0), ts)
        else (anyInteger? cs).map (.integer ·, ts)

def hyphenAfter (a b : Char) : List Char → Bool
  | c :: '-' :: cs => c = a || c = b || hyphenAfter a b ('-' :: cs)
  | _ :: cs => hyphenAfter a b cs
  | [] => false

/-- Whether a word is the start of a date rather than of a number. -/
def startsDate (cs : List Char) : Bool :=
  cs.contains 'T' || cs.contains 't' || (cs.drop 1).contains '-' && !hyphenAfter 'e' 'E' cs

def scalar? (cs : List Char) (ts : List Token) : Option (Item × List Token) :=
  if startsDate cs then moment? cs ts
  else match ts with
    | .colon :: _ => moment? cs ts
    | ts => number? cs ts

def startsScalar (cs : List Char) : Bool :=
  cs = ['i', 'n', 'f'] || cs = ['n', 'a', 'n'] || cs.head?.any fun c ↦ c = '-' || c.isDigit

mutual

def item? : (fuel : Nat) → List Token → Option (Item × List Token)
  | 0, _ => none
  | fuel + 1, ts =>
      match ts with
      | .quoted cs _ :: ts => some (.text cs, ts)
      | .word cs :: ts =>
          if cs = ['t', 'r', 'u', 'e'] then some (.flag true, ts)
          else if cs = ['f', 'a', 'l', 's', 'e'] then some (.flag false, ts)
          else if startsScalar cs then scalar? cs ts
          else none
      | .plus :: .word cs :: ts => number? cs ts
      | .openBrace :: ts =>
          match skipBlanks ts with
          | .closeBrace :: ts => some (.inline [], ts)
          | ts => (pairs? fuel [] ts).map fun p ↦ (.inline p.1, p.2)
      | .openBracket :: ts => (items? fuel ts).map fun p ↦ (.list p.1, p.2)
      | _ => none

def items? : (fuel : Nat) → List Token → Option (List Item × List Token)
  | 0, _ => none
  | fuel + 1, ts => do
      match ← skipLines ts with
      | .closeBracket :: ts => some ([], ts)
      | ts =>
          let (item, ts) ← item? fuel ts
          match ← skipLines ts with
          | .comma :: ts =>
              let (items, ts) ← items? fuel ts
              some (item :: items, ts)
          | .closeBracket :: ts => some ([item], ts)
          | _ => none

def pairs? : (fuel : Nat) → Entries → List Token → Option (Entries × List Token)
  | 0, _, _ => none
  | fuel + 1, entries, ts => do
      let (names, ts) ← key? fuel ts
      let (item, ts) ← item? fuel (skipBlanks (← expect .equals ts))
      let entries ← entries.add item names
      match skipBlanks ts with
      | .closeBrace :: ts => some (entries, ts)
      | .comma :: ts => pairs? fuel entries (skipBlanks ts)
      | _ => none

end

inductive Line
  | header (repeated : Bool) (path : List (List Char))
  | entry (names : List (List Char)) (item : Item)

def header? (fuel : Nat) (ts : List Token) : Option (Line × List Token) := do
  let (repeated, ts) := match ts with
    | .openBracket :: ts => (true, ts)
    | ts => (false, ts)
  let (path, ts) ← key? fuel (skipBlanks ts)
  let ts ← expect .closeBracket ts
  let ts ← if repeated then expect .closeBracket ts else some ts
  some (.header repeated path, ← lineEnd? (skipBlanks ts))

def entry? (fuel : Nat) (ts : List Token) : Option (Line × List Token) := do
  let (names, ts) ← key? fuel ts
  let (item, ts) ← item? fuel (skipBlanks (← expect .equals ts))
  some (.entry names item, ← lineEnd? (skipBlanks ts))

def lines? : (fuel : Nat) → List Token → Option (List Line)
  | 0, _ => none
  | fuel + 1, ts => do
      match ← skipLines ts with
      | [] => some []
      | t :: ts =>
          let (line, ts) ← if t = .openBracket then header? fuel ts else entry? fuel (t :: ts)
          let lines ← lines? fuel ts
          some (line :: lines)

/-- The items of some lines before the first header, added to others, and the blocks of the
headers. -/
def blocks? (entries : Entries) : List Line → Option (Entries × List Block)
  | [] => some (entries, [])
  | .entry names item :: lines => do blocks? (← entries.add item names) lines
  | .header repeated path :: lines => do
      let name ← path.getLast?
      let (below, blocks) ← blocks? [] lines
      some (entries, ⟨repeated, path.dropLast, name, below⟩ :: blocks)

def dropByteOrderMark : List Char → List Char
  | '\ufeff' :: cs => cs
  | cs => cs

/-- The entries that a document stands for; a document that stands for a moment has none. -/
def parse? (document : List Char) : Option (List (String × Value)) := do
  let ts ← tokens? (dropByteOrderMark document)
  let lines ← lines? (ts.length + 1) ts
  let (entries, blocks) ← blocks? [] lines
  (rootValue? entries blocks).map Value.entries

end KvServer.Toml
