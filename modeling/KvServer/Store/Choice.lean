import KvServer.Store.Memory
import KvServer.Store.Tree

/-!
# A choice of stores

The server runs on either kind of store.
-/

namespace KvServer

/-- A store of either kind. -/
inductive AnyStore
  | memory (m : Memory)
  | tree (t : Tree)

def AnyStore.entries : AnyStore → List (String × String)
  | .memory m => m.entries
  | .tree t => t.texts

instance : Store AnyStore where
  call c
    | .memory m => let (o, m) := Store.call c m; (o, .memory m)
    | .tree t => let (o, t) := Store.call c t; (o, .tree t)

end KvServer
