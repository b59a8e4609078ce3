import KvServer.Dispatch.Basic
import KvServer.Store.Recorded

/-!
# Runs of a dispatcher

A run is a list of steps on a recorded store: frames of clients and what happens around them.
After each step every timer that can run has run.
-/

namespace KvServer.Dispatch

open Text

inductive Step
  | frame (identity : String) (bytes : Bytes)
  | revoke (identity : String)
  | advance (ms : Nat)
  | signal (sig : Signal)
  | fault (kind : CallKind) (error? : Option StoreError)
  /-- A call is made on the store from outside. -/
  | direct (c : Call)
deriving DecidableEq, Repr

inductive Answer
  | none
  | reply (r : Reply)
  | outcome (c : Call) (o : c.Outcome)

variable {σ : Type} [Store σ]

def direct (c : Call) (s : TimedStore (Recorded σ)) : c.Outcome × TimedStore (Recorded σ) :=
  let (o, store) := s.store.direct c
  (o, { s with store })

def setFault (kind : CallKind) (error? : Option StoreError) (s : TimedStore (Recorded σ)) :
    TimedStore (Recorded σ) :=
  { s with store := s.store.setFault kind error? }

/-- The answer to one step and the state that it leaves. -/
def step (secret : Option String) (st : Step) (s : TimedStore (Recorded σ)) :
    Answer × TimedStore (Recorded σ) :=
  match st with
  | .frame identity bytes =>
      let (r, s) := execute secret identity bytes s
      (.reply r, s.settle)
  | .revoke identity => (.none, revoke secret identity s)
  | .advance ms => (.none, s.advance ms)
  | .signal sig => (.none, s.signal sig)
  | .fault kind error? => (.none, setFault kind error? s)
  | .direct c =>
      let (o, s) := direct c s
      (.outcome c o, s)

def runSteps (secret : Option String) :
    List Step → TimedStore (Recorded σ) → List Answer × TimedStore (Recorded σ)
  | [], s => ([], s)
  | st :: sts, s =>
      let (a, s) := step secret st s
      let (as, s) := runSteps secret sts s
      (a :: as, s)

end KvServer.Dispatch
