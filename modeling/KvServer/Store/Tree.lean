import KvServer.Store.Basic
import KvServer.Text.Utf8
import Std.Data.ExtTreeMap

/-!
# A store on a durable tree

The tree maps byte sequences to byte sequences and keeps them when it is closed and opened again.
Texts are stored in UTF-8.  A value that is not UTF-8 was put there by someone else: it cannot be
read, but it can be replaced and removed.
-/

namespace KvServer

open Std (ExtTreeMap)
open Text

structure Tree where
  entries : ExtTreeMap Bytes Bytes := ∅

namespace Tree

def readValue (key : String) (value : Bytes) : Except StoreError String :=
  (stringOf value).mapError fun f ↦
    .backend ("value for '" ++ key ++ "' is not utf-8: " ++ f.message)

def get (key : String) (t : Tree) : Except StoreError String :=
  match t.entries[bytesOf key]? with
  | some value => readValue key value
  | none => .error (.notFound key)

def put (key : String) (value : Bytes) (t : Tree) : Tree :=
  ⟨t.entries.insert (bytesOf key) value⟩

def delete (key : String) (t : Tree) : Except StoreError Unit × Tree :=
  if bytesOf key ∈ t.entries then (.ok (), ⟨t.entries.erase (bytesOf key)⟩)
  else (.error (.notFound key), t)

/-- Closes the tree and opens it again. -/
def reopen (t : Tree) : Tree := t

/-- All keys and values that are texts, in order of the keys. -/
def texts (t : Tree) : List (String × String) :=
  t.entries.toList.filterMap fun e ↦
    match stringOf e.1, stringOf e.2 with
    | .ok key, .ok value => some (key, value)
    | _, _ => none

instance : Store Tree where
  call
    | .get key, t => (t.get key, t)
    | .set key value, t => (.ok (), t.put key (bytesOf value))
    | .delete key, t => t.delete key
    | .auth identity secret, t => (.ok (), t.put identity (bytesOf secret))
    | .flush, t => (.ok (), t)

end Tree

end KvServer
