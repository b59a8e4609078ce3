import KvServer.Command.Basic
import KvServer.Text.Quoted

/-!
# Clients and their requests

A client has a number of its own and the address it comes from.  Two clients may have the same
address, one after the other or at the same time.
-/

namespace KvServer

open Text

structure Client where
  id : Nat
  /-- The address of the peer, which names the client in the store. -/
  identity : String
deriving DecidableEq, Repr

def Client.number (first : Nat) : List String → List Client
  | [] => []
  | identity :: rest => ⟨first, identity⟩ :: number (first + 1) rest

structure Request where
  client : Client
  payload : Bytes
deriving DecidableEq, Repr

namespace Request

def command (r : Request) : Except FrameError Command := Command.parse r.payload

def describe (r : Request) : String :=
  "Request \x7b client: " ++ .ofList (quote r.client.identity.toList) ++
    ", payload: " ++ .ofList (quote (decodeLossy r.payload)) ++ " \x7d"

end Request

end KvServer
