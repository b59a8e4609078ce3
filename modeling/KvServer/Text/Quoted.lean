import KvServer.Text.Printable

/-!
# Quoted text

A quoted text stands between double quotes.  The quote, the backslash and the common controls have
a short escape; another character that does not show as itself is written as its code point in
lower-case hexadecimal between braces.
-/

namespace KvServer.Text

/-- The code point of a character between braces. -/
def codePointEscape (c : Char) : List Char :=
  ['\\', 'u', '\x7b'] ++ Nat.toDigits 16 c.toNat ++ ['\x7d']

def escape (c : Char) : List Char :=
  match c with
  | '\x00' => ['\\', '0']
  | '\t' => ['\\', 't']
  | '\r' => ['\\', 'r']
  | '\n' => ['\\', 'n']
  | '\\' => ['\\', '\\']
  | '"' => ['\\', '"']
  | c => if isExtender c || !isPrintable c then codePointEscape c else [c]

def quote (cs : List Char) : List Char := '"' :: cs.flatMap escape ++ ['"']

end KvServer.Text
