import KvServer.Files
import KvServer.Settings.Basic
import KvServer.Store.Choice

/-!
# Opening a store

The settings name the kind of store.  A durable store needs a directory.
-/

namespace KvServer

inductive OpenError
  | unknownEngine (name : String)
  | noDirectory (path : String)
deriving DecidableEq, Repr

def OpenError.message : OpenError → String
  | .unknownEngine name => "unknown engine type '" ++ name ++ "' (available: rwlock, sled)"
  | .noDirectory path => "cannot open a database at '" ++ path ++ "'"

/-- Opens the store that the settings name.  A durable one is what `tree?` holds; there is none
when its directory cannot be made. -/
def Settings.openStore (s : Settings) (tree? : Option Tree) : Except OpenError AnyStore :=
  if s.engine = "rwlock" then .ok (.memory {})
  else if s.engine = "sled" then
    match tree? with
    | some t => .ok (.tree t)
    | none => .error (.noDirectory s.storagePath)
  else .error (.unknownEngine s.engine)

/-- Whether a durable store can be kept where a path leads to.  It keeps a directory `blobs` and the
plain files `db` and `conf` there, and more than eight bytes in `conf` belong to another store. -/
def Files.canHoldTree (files : Files) (path : String) : Bool :=
  let place (name : String) : List String := Files.place path ++ [name]
  files.canHoldDirectory (Files.inside path "blobs") &&
    (Files.isAbsolute path ||
      !files.isDirectory (place "db") && !files.isDirectory (place "conf") &&
        (files.content? (place "conf")).all (·.length ≤ 8))

/-- The durable tree that a tree of files has room for; it is empty at first. -/
def Files.newTree? (files : Files) (path : String) : Option Tree :=
  if files.canHoldTree path then some {} else none

end KvServer
