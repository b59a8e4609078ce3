import KvServer.Server.Address
import KvServer.Settings.Basic

/-!
# The address to listen on

The host of the settings stands for an address, and the network of the settings has to be one that
the address belongs to.
-/

namespace KvServer

inductive BindError
  | unresolved (host : String)
  | noAddress (network bindAddress : String)
deriving DecidableEq, Repr

def BindError.message : BindError → String
  | .unresolved host => "failed to look up the address of '" ++ host ++ "'"
  | .noAddress network bindAddress =>
      "no " ++ network ++ " address found for " ++ bindAddress

/-- Whether an address belongs to a network; what is not bound to one version takes both. -/
def Address.isOn (network : String) (a : Address) : Bool :=
  if network = "tcp4" then a.isV4 else if network = "tcp6" then !a.isV4 else true

def Settings.bind (s : Settings) : Except BindError Address :=
  match Address.ofHost? s.host with
  | none => .error (.unresolved s.host)
  | some a => if a.isOn s.network then .ok a else .error (.noAddress s.network s.bindAddress)

end KvServer
