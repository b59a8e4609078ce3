import KvServer.Store.Basic

/-!
# A store that keeps a record

A recorded store notes every call with its outcome.  While a fault is set for a kind of call, calls
of that kind fail with it and do not reach the store inside.
-/

namespace KvServer

inductive CallKind
  | get | set | delete | auth | flush
deriving DecidableEq, Repr

def Call.kind : Call → CallKind
  | .get _ => .get
  | .set .. => .set
  | .delete _ => .delete
  | .auth .. => .auth
  | .flush => .flush

def Call.Outcome.error? {c : Call} (o : c.Outcome) : Option StoreError :=
  match o with
  | .ok _ => none
  | .error e => some e

structure Note where
  call : Call
  error? : Option StoreError
deriving DecidableEq, Repr

/-- A store with a record of its calls and with faults. -/
structure Recorded (σ : Type) where
  store : σ
  faults : CallKind → Option StoreError := fun _ ↦ none
  /-- The calls made so far, the latest first. -/
  notes : List Note := []

namespace Recorded

variable {σ : Type}

def setFault (kind : CallKind) (fault : Option StoreError) (r : Recorded σ) : Recorded σ :=
  { r with faults := fun k ↦ if k = kind then fault else r.faults k }

def note (c : Call) (o : c.Outcome) (r : Recorded σ) : Recorded σ :=
  { r with notes := ⟨c, o.error?⟩ :: r.notes }

def calls (r : Recorded σ) : List Note := r.notes.reverse

def forget (r : Recorded σ) : Recorded σ := { r with notes := [] }

/-- A call on the store inside, which neither meets a fault nor is noted. -/
def direct [Store σ] (c : Call) (r : Recorded σ) : c.Outcome × Recorded σ :=
  let (o, store) := Store.call c r.store
  (o, { r with store })

instance [Store σ] : Store (Recorded σ) where
  call c r :=
    match r.faults c.kind with
    | some e => (.error e, r.note c (.error e))
    | none =>
        let (o, r) := r.direct c
        (o, r.note c o)

end Recorded

end KvServer
