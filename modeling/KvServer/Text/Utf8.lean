/-!
# Text as bytes

`encode` writes a text in UTF-8.  `pieces` reads any bytes back as a sequence of characters and
faults: a fault is a longest beginning of a character that the next byte does not continue, a
byte that begins none, or a beginning that the end cuts off.  `decode` refuses a sequence with a
fault and tells where the first one is, and `decodeLossy` shows each fault as one replacement
character.
-/

namespace KvServer.Text

abbrev Bytes := List UInt8

def encode (cs : List Char) : Bytes := cs.flatMap String.utf8EncodeChar

/-- A character begun and not finished. -/
structure Begun where
  bits : Nat
  /-- The bytes still to come. -/
  owed : Nat
  /-- The least value of the next byte. -/
  low : UInt8
  high : UInt8
  seen : Nat
deriving DecidableEq, Repr

inductive Move
  | emit (c : Char)
  | wait (b : Begun)
  | refuse
deriving DecidableEq, Repr

def Move.first (b : UInt8) : Move :=
  if b < 0x80 then .emit (Char.ofNat b.toNat)
  else if b < 0xC2 then .refuse
  else if b < 0xE0 then .wait ⟨b.toNat - 0xC0, 1, 0x80, 0xBF, 1⟩
  else if b < 0xF0 then
    .wait ⟨b.toNat - 0xE0, 2, if b = 0xE0 then 0xA0 else 0x80, if b = 0xED then 0x9F else 0xBF, 1⟩
  else if b < 0xF5 then
    .wait ⟨b.toNat - 0xF0, 3, if b = 0xF0 then 0x90 else 0x80, if b = 0xF4 then 0x8F else 0xBF, 1⟩
  else .refuse

def Begun.accepts (s : Begun) (b : UInt8) : Bool := s.low ≤ b && b ≤ s.high

def Begun.next (s : Begun) (b : UInt8) : Move :=
  let bits := s.bits * 64 + (b.toNat - 0x80)
  if s.owed = 1 then .emit (Char.ofNat bits)
  else .wait ⟨bits, s.owed - 1, 0x80, 0xBF, s.seen + 1⟩

inductive Piece
  | char (c : Char)
  /-- `length` bytes that no character begins with, or that the next byte does not continue. -/
  | malformed (length : Nat)
  /-- The first `length` bytes of a character, at the end. -/
  | cut (length : Nat)
deriving DecidableEq, Repr

/-- What a byte does after a character begun, if any: the fault that it brings to light, and its
own move. -/
def Move.after : Option Begun → UInt8 → List Piece × Move
  | none, b => ([], .first b)
  | some s, b => if s.accepts b then ([], s.next b) else ([.malformed s.seen], .first b)

def piecesFrom : Option Begun → Bytes → List Piece
  | none, [] => []
  | some s, [] => [.cut s.seen]
  | s, b :: rest =>
      (Move.after s b).1 ++
        match (Move.after s b).2 with
        | .emit c => .char c :: piecesFrom none rest
        | .wait t => piecesFrom (some t) rest
        | .refuse => .malformed 1 :: piecesFrom none rest

def pieces (bs : Bytes) : List Piece := piecesFrom none bs

structure Fault where
  index : Nat
  length : Option Nat
deriving DecidableEq, Repr

def Fault.message (f : Fault) : String :=
  match f.length with
  | some n => s!"invalid utf-8 sequence of {n} bytes from index {f.index}"
  | none => s!"incomplete utf-8 byte sequence from index {f.index}"

def join (index : Nat) : List Piece → Except Fault (List Char)
  | [] => .ok []
  | .char c :: ps => (join (index + c.utf8Size) ps).map (c :: ·)
  | .malformed n :: _ => .error ⟨index, some n⟩
  | .cut _ :: _ => .error ⟨index, none⟩

def decode (bs : Bytes) : Except Fault (List Char) := join 0 (pieces bs)

def Piece.shown : Piece → Char
  | .char c => c
  | .malformed _ | .cut _ => '\ufffd'

/-- The text of the bytes, with one replacement character for each fault. -/
def decodeLossy (bs : Bytes) : List Char := (pieces bs).map Piece.shown

def bytesOf (s : String) : Bytes := encode s.toList

def stringOf (bs : Bytes) : Except Fault String := (decode bs).map String.ofList

end KvServer.Text
