import KvServer.Settings.Basic
import KvServer.Settings.Key

/-!
# Layers of settings

A source of settings, such as a file or the environment, is a layer: values with the keys that they
are for.  The values of a layer go into a tree of values one by one, and the settings are the
entries of the tree under their names; a name that is no setting sets nothing.
-/

namespace KvServer

inductive Field
  | host
  | port
  | network
  | auth
  | engine
  | storagePath
  | maxInflightRequests
  | eventQueueCapacity
  | revokeAuthOnDisconnect
deriving DecidableEq, Repr

def Field.name : Field → String
  | host => "host"
  | port => "port"
  | network => "network"
  | auth => "auth"
  | engine => "engine"
  | storagePath => "storage_path"
  | maxInflightRequests => "max_inflight_requests"
  | eventQueueCapacity => "event_queue_capacity"
  | revokeAuthOnDisconnect => "revoke_auth_on_disconnect"

/-- Values with their keys, in the order in which they are given. -/
abbrev Layer := List (String × Value)

namespace Layer

/-- A character in lower case; the sign for the kelvin is a `k` as well. -/
def lowerChar (c : Char) : Char := if c = '\u212a' then 'k' else c.toLower

/-- What follows `kece_` in the name of a variable, in lower case. -/
def variableKey? (name : String) : Option String :=
  match name.toList.map lowerChar with
  | 'k' :: 'e' :: 'c' :: 'e' :: '_' :: key => some (.ofList key)
  | _ => none

def ofEnvironment (env : List (String × String)) : Layer :=
  env.filterMap fun v ↦ (variableKey? v.1).map (·, .text v.2)

/-- A tree with the values of a layer put into it; a key with an index that is out of place is told
instead. -/
def assign : Layer → (tree : Value) → Except String Value
  | [], tree => .ok tree
  | (key, v) :: layer, tree =>
      match Value.assign v (Key.path key) tree with
      | some tree => assign layer tree
      | none => .error key

end Layer

end KvServer
