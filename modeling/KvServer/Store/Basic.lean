/-!
# Stores

A store answers calls and may change with each of them.  Nothing else is assumed about it: a
`Store` instance may keep values in memory, on disk, or fail at will.
-/

namespace KvServer

inductive StoreError
  | notFound (key : String)
  | backend (text : String)
deriving DecidableEq, Repr

def StoreError.message : StoreError → String
  | .notFound key => "key not found: " ++ key
  | .backend text => "storage backend error: " ++ text

inductive Call
  | get (key : String)
  | set (key value : String)
  | delete (key : String)
  /-- Store the authorization marker of an identity. -/
  | auth (identity secret : String)
  | flush
deriving DecidableEq, Repr

abbrev Call.Answer : Call → Type
  | .get _ => String
  | .set .. | .delete _ | .auth .. | .flush => Unit

abbrev Call.Outcome (c : Call) : Type := Except StoreError c.Answer

/-- A store with states `σ`. -/
class Store (σ : Type) where
  call : (c : Call) → σ → c.Outcome × σ

end KvServer
