/-!
# Settings

The settings of the server, with their defaults, and the check that they pass before the server
starts: `Settings.validate` looks at the network, the engine and the two limits, in this order.
-/

namespace KvServer

structure Settings where
  host : String := "127.0.0.1"
  port : UInt16 := 9000
  /-- The kind of network: `tcp`, `tcp4` or `tcp6`. -/
  network : String := "tcp"
  /-- The secret to ask clients for; an empty one is none. -/
  auth : String := ""
  /-- The kind of store: `rwlock` or `sled`. -/
  engine : String := "rwlock"
  storagePath : String := "data"
  maxInflightRequests : UInt64 := 1024
  eventQueueCapacity : UInt64 := 1024
  revokeAuthOnDisconnect : Bool := false
deriving DecidableEq, Repr

inductive SettingsError
  | unsupportedNetwork (name : String)
  | unknownEngine (name : String)
  | zeroLimit (name : String)
deriving DecidableEq, Repr

def SettingsError.message : SettingsError → String
  | .unsupportedNetwork name =>
      "unsupported network '" ++ name ++ "' (expected tcp, tcp4 or tcp6)"
  | .unknownEngine name => "unknown engine '" ++ name ++ "' (expected rwlock or sled)"
  | .zeroLimit name => name ++ " must be greater than zero"

namespace Settings

def networks : List String := ["tcp", "tcp4", "tcp6"]

def engines : List String := ["rwlock", "sled"]

def validate (s : Settings) : Except SettingsError Unit :=
  if s.network ∉ networks then .error (.unsupportedNetwork s.network)
  else if s.engine ∉ engines then .error (.unknownEngine s.engine)
  else if s.maxInflightRequests = 0 then .error (.zeroLimit "max_inflight_requests")
  else if s.eventQueueCapacity = 0 then .error (.zeroLimit "event_queue_capacity")
  else .ok ()

def secret (s : Settings) : Option String := if s.auth = "" then none else some s.auth

def bindAddress (s : Settings) : String := s.host ++ ":" ++ toString s.port.toNat

end Settings

/-- Settings that take the place of those that are there. -/
structure Overrides where
  host : Option String := none
  port : Option UInt16 := none
  network : Option String := none
  auth : Option String := none
  engine : Option String := none
  storagePath : Option String := none
deriving DecidableEq, Repr

def Settings.override (s : Settings) (o : Overrides) : Settings :=
  { s with
    host := o.host.getD s.host
    port := o.port.getD s.port
    network := o.network.getD s.network
    auth := o.auth.getD s.auth
    engine := o.engine.getD s.engine
    storagePath := o.storagePath.getD s.storagePath }

end KvServer
