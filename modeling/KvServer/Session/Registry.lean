import KvServer.Session.Client
import Std.Data.ExtTreeMap

/-!
# The registry of clients

The registry holds the clients that are connected, each under its number.
-/

namespace KvServer

open Std (ExtTreeMap)

structure Registry where
  members : ExtTreeMap Nat Client := ∅

namespace Registry

/-- Adds a client, unless one of its number is there already. -/
def enroll (c : Client) (r : Registry) : Bool × Registry :=
  if c.id ∈ r.members then (false, r) else (true, ⟨r.members.insert c.id c⟩)

def remove (id : Nat) (r : Registry) : Option Client × Registry :=
  match r.members[id]? with
  | some c => (some c, ⟨r.members.erase id⟩)
  | none => (none, r)

def size (r : Registry) : Nat := r.members.size

def isEmpty (r : Registry) : Bool := r.size == 0

end Registry

end KvServer
