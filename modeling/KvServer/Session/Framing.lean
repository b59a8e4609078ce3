import KvServer.Text.Utf8

/-!
# Framing

A frame ends with a line feed and has at most `maxFrame` bytes.  A reader takes frames off the
bytes that have come in.  It depends only on these bytes and not on how they were cut on the way.
-/

namespace KvServer

open Text

/-- The most bytes in a frame, its line feed included. -/
def maxFrame : Nat := 65536

inductive InputEnd
  | closed
  | failed (message : String)
deriving DecidableEq, Repr

inductive Ending
  | closed
  | truncated (n : Nat)
  | frameTooLong
  | io (message : String)
  | shutdown
  | detached
deriving DecidableEq, Repr

def Ending.message : Ending → String
  | .closed => "connection closed by peer"
  | .truncated n => s!"peer closed mid-frame ({n} bytes dropped)"
  | .frameTooLong => s!"frame exceeds {maxFrame} bytes"
  | .io message => "read error: " ++ message
  | .shutdown => "server shutting down"
  | .detached => "event loop stopped"

inductive Front
  | line (frame rest : Bytes)
  /-- As many bytes as allowed without a line feed. -/
  | overlong
  | short
deriving DecidableEq, Repr

def Front.push (b : UInt8) : Front → Front
  | .line frame rest => .line (b :: frame) rest
  | .overlong => .overlong
  | .short => .short

/-- Looks for a line feed among the first bytes, at most `limit` of them. -/
def front : (limit : Nat) → Bytes → Front
  | 0, _ => .overlong
  | _ + 1, [] => .short
  | limit + 1, b :: bs => if b = 0x0A then .line [b] bs else (front limit bs).push b

structure Inbox where
  unread : Bytes := []
  inputEnd : Option InputEnd := none
deriving DecidableEq, Repr

inductive Reading
  | frame (bytes : Bytes) (rest : Inbox)
  | stop (e : Ending)
  | wait
deriving DecidableEq, Repr

namespace Inbox

def next (i : Inbox) : Reading :=
  match front maxFrame i.unread with
  | .line bytes rest => .frame bytes { i with unread := rest }
  | .overlong => .stop .frameTooLong
  | .short =>
      match i.inputEnd, i.unread with
      | none, _ => .wait
      | some .closed, [] => .stop .closed
      | some .closed, bs => .stop (.truncated bs.length)
      | some (.failed message), _ => .stop (.io message)

def receive (bs : Bytes) (i : Inbox) : Inbox := { i with unread := i.unread ++ bs }

theorem front_line_length {limit : Nat} {bs frame rest : Bytes}
    (h : front limit bs = .line frame rest) : rest.length < bs.length := by
  induction limit, bs using front.induct generalizing frame rest with
  | case1 => simp [front] at h
  | case2 => simp [front] at h
  | case3 limit bs =>
      simp only [front, if_true, Front.line.injEq] at h
      simp [← h.2]
  | case4 limit b bs hb ih =>
      simp only [front, hb, if_false] at h
      cases hf : front limit bs with
      | line f r =>
          rw [hf] at h
          simp only [Front.push, Front.line.injEq] at h
          have := ih hf
          simp only [List.length_cons, ← h.2]
          omega
      | overlong => simp [hf, Front.push] at h
      | short => simp [hf, Front.push] at h

theorem next_frame_length {i rest : Inbox} {bytes : Bytes} (h : i.next = .frame bytes rest) :
    rest.unread.length < i.unread.length := by
  unfold next at h
  split at h
  · rename_i f r hf
    simp only [Reading.frame.injEq] at h
    rw [← h.2]
    exact front_line_length hf
  · cases h
  · split at h <;> cases h

end Inbox

end KvServer
