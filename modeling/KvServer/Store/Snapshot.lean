import KvServer.Store.Tree
import KvServer.Text.Hex

/-!
# Snapshots of a durable tree

A snapshot has one line for each key, with its bytes and those of its value in hexadecimal and an
equals sign between them.
-/

namespace KvServer.Tree

open Text

def snapshotLine (e : Bytes × Bytes) : List Char := hexText e.1 ++ '=' :: hexText e.2

/-- The lines of all keys, in order. -/
def snapshot (t : Tree) : List Char :=
  t.entries.toList.flatMap fun e ↦ snapshotLine e ++ ['\n']

def entry? (line : List Char) : Option (Bytes × Bytes) :=
  match line.splitOn '=' with
  | [key, value] => do some (← hexBytes? key, ← hexBytes? value)
  | _ => none

def ofSnapshot? (cs : List Char) : Option Tree := do
  let lines := (cs.splitOn '\n').filter (· ≠ [])
  let entries ← lines.mapM entry?
  some ⟨entries.foldl (fun m e ↦ m.insert e.1 e.2) ∅⟩

end KvServer.Tree
