import KvServer.Store.Basic
import Std.Data.ExtTreeMap

/-!
# A store in memory

Values and authorization markers share one map from keys to values.
-/

namespace KvServer

open Std (ExtTreeMap)

structure Memory where
  values : ExtTreeMap String String := ∅

namespace Memory

def get (key : String) (m : Memory) : Except StoreError String :=
  match m.values[key]? with
  | some value => .ok value
  | none => .error (.notFound key)

def set (key value : String) (m : Memory) : Memory := ⟨m.values.insert key value⟩

def delete (key : String) (m : Memory) : Except StoreError Unit × Memory :=
  if key ∈ m.values then (.ok (), ⟨m.values.erase key⟩) else (.error (.notFound key), m)

def size (m : Memory) : Nat := m.values.size

def isEmpty (m : Memory) : Bool := m.size == 0

/-- All keys with their values, in order of the keys. -/
def entries (m : Memory) : List (String × String) := m.values.toList

instance : Store Memory where
  call
    | .get key, m => (m.get key, m)
    | .set key value, m => (.ok (), m.set key value)
    | .delete key, m => m.delete key
    | .auth identity secret, m => (.ok (), m.set identity secret)
    | .flush, m => (.ok (), m)

end Memory

end KvServer
