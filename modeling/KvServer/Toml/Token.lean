import KvServer.Number.Base

/-!
# Tokens of a TOML document

`tokens?` cuts a document into tokens, or refuses it.  A line ends with a line feed, with or
without a carriage return before it.  Bare words, numbers and the parts of dates are all words; a
string token holds the text that the quotes stand for.
-/

namespace KvServer.Toml

inductive Token
  | newline
  | blank (cs : List Char)
  | comment
  | equals
  | dot
  | comma
  | colon
  | plus
  | openBrace
  | closeBrace
  | openBracket
  | closeBracket
  | word (cs : List Char)
  | quoted (text : List Char) (multiline : Bool)
deriving DecidableEq, Repr

/-- A document with every line end written as one line feed. -/
def unifyLines : List Char → List Char
  | '\r' :: '\n' :: cs => '\n' :: unifyLines cs
  | c :: cs => c :: unifyLines cs
  | [] => []

def isGap (c : Char) : Bool := c = ' ' || c = '\t'

def isWordChar (c : Char) : Bool := c.isAlphanum || c = '_' || c = '-'

def isCommentChar (c : Char) : Bool := c = '\t' || ' ' ≤ c

def isTextChar (c : Char) : Bool := isCommentChar c && c ≠ '\x7f'

/-- What a reader of quoted text has read, and what comes after it. -/
abbrev Quoted := Option (List Char × List Char)

def Quoted.push (c : Char) (q : Quoted) : Quoted := q.map fun p ↦ (c :: p.1, p.2)

def codePoint? (digits : List Char) : Option Char :=
  (Number.inBase? 16 digits).bind fun n ↦ if n.isValidChar then some (.ofNat n) else none

def shortEscape? : Char → Option Char
  | '"' => some '"'
  | '\\' => some '\\'
  | 'b' => some '\x08'
  | 'f' => some '\x0c'
  | 'n' => some '\n'
  | 'r' => some '\r'
  | 't' => some '\t'
  | _ => none

def longEscape? (n : Nat) (cs : List Char) : Option (Char × List Char) :=
  let digits := cs.take n
  if digits.length = n then (codePoint? digits).map (·, cs.drop n) else none

def escape? : List Char → Option (Char × List Char)
  | 'u' :: cs => longEscape? 4 cs
  | 'U' :: cs => longEscape? 8 cs
  | c :: cs => (shortEscape? c).map (·, cs)
  | [] => none

/-- What follows a backslash that joins two lines: it may stand before spaces up to the end of its
line, and joins all lines up to the next character that is not blank. -/
def joined? (cs : List Char) : Option (List Char) :=
  match cs.dropWhile isGap with
  | '\n' :: rest => some (rest.dropWhile fun c ↦ isGap c || c = '\n')
  | _ => none

def literal : List Char → Quoted
  | [] => none
  | '\'' :: rest => some ([], rest)
  | c :: rest => if isTextChar c then (literal rest).push c else none

def literalLines : List Char → Quoted
  | [] => none
  | '\'' :: '\'' :: '\'' :: '\'' :: '\'' :: rest => some (['\'', '\''], rest)
  | '\'' :: '\'' :: '\'' :: '\'' :: rest => some (['\''], rest)
  | '\'' :: '\'' :: '\'' :: rest => some ([], rest)
  | c :: rest => if isTextChar c || c = '\n' then (literalLines rest).push c else none

def basic : (fuel : Nat) → List Char → Quoted
  | 0, _ | _, [] => none
  | _ + 1, '"' :: rest => some ([], rest)
  | fuel + 1, '\\' :: rest =>
      match escape? rest with
      | some (c, rest) => (basic fuel rest).push c
      | none => none
  | fuel + 1, c :: rest => if isTextChar c then (basic fuel rest).push c else none

def basicLines : (fuel : Nat) → List Char → Quoted
  | 0, _ | _, [] => none
  | _ + 1, '"' :: '"' :: '"' :: '"' :: '"' :: rest => some (['"', '"'], rest)
  | _ + 1, '"' :: '"' :: '"' :: '"' :: rest => some (['"'], rest)
  | _ + 1, '"' :: '"' :: '"' :: rest => some ([], rest)
  | fuel + 1, '\\' :: rest =>
      match escape? rest, joined? rest with
      | some (c, rest), _ => (basicLines fuel rest).push c
      | none, some rest => basicLines fuel rest
      | none, none => none
  | fuel + 1, c :: rest =>
      if isTextChar c || c = '\n' then (basicLines fuel rest).push c else none

def dropNewline : List Char → List Char
  | '\n' :: cs => cs
  | cs => cs

def Quoted.token (multiline : Bool) (q : Quoted) : Option (Token × List Char) :=
  q.map fun p ↦ (.quoted p.1 multiline, p.2)

def mark? : Char → Option Token
  | '\n' => some .newline
  | '=' => some .equals
  | '.' => some .dot
  | ',' => some .comma
  | ':' => some .colon
  | '+' => some .plus
  | '\x7b' => some .openBrace
  | '\x7d' => some .closeBrace
  | '[' => some .openBracket
  | ']' => some .closeBracket
  | _ => none

def first? : List Char → Option (Token × List Char)
  | [] => none
  | '"' :: '"' :: '"' :: cs =>
      let cs := dropNewline cs
      (basicLines (cs.length + 1) cs).token true
  | '"' :: cs => (basic (cs.length + 1) cs).token false
  | '\'' :: '\'' :: '\'' :: cs => (literalLines (dropNewline cs)).token true
  | '\'' :: cs => (literal cs).token false
  | '#' :: cs => some (.comment, cs.dropWhile isCommentChar)
  | c :: cs =>
      if isGap c then some (.blank ((c :: cs).takeWhile isGap), cs.dropWhile isGap)
      else if isWordChar c then
        some (.word ((c :: cs).takeWhile isWordChar), cs.dropWhile isWordChar)
      else (mark? c).map (·, cs)

/-- The tokens of some characters, when there are fewer than `fuel`. -/
def tokensWithin : (fuel : Nat) → List Char → Option (List Token)
  | 0, _ => none
  | _ + 1, [] => some []
  | fuel + 1, cs => do
      let (t, rest) ← first? cs
      let ts ← tokensWithin fuel rest
      some (t :: ts)

def tokens? (document : List Char) : Option (List Token) :=
  let cs := unifyLines document
  tokensWithin (cs.length + 1) cs

end KvServer.Toml
