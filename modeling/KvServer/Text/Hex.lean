import KvServer.Number.Base
import KvServer.Text.Utf8

/-!
# Bytes as hexadecimal text

Each byte is written as two small digits.  Capital digits are read as well.
-/

namespace KvServer.Text

def hexText (bs : Bytes) : List Char :=
  bs.flatMap fun b ↦ [Nat.digitChar (b.toNat / 16), Nat.digitChar (b.toNat % 16)]

def hexBytes? : List Char → Option Bytes
  | [] => some []
  | [_] => none
  | a :: b :: cs => do
      let high ← Number.hexDigit? a
      let low ← Number.hexDigit? b
      let bs ← hexBytes? cs
      some (.ofNat (16 * high + low) :: bs)

end KvServer.Text
