import KvServer.Expiry.TimedStore
import KvServer.Store.Recorded

/-!
# Runs of a store with timers

A run is a list of steps on a recorded store: writes with or without a time to live, timers
cancelled from outside, time, and the shutdown channel.  After each step every timer that can run
has run.
-/

namespace KvServer.Expiry

inductive Write
  | nothing
  | value (text : String)
  | delete
  | fail (e : StoreError)
deriving DecidableEq, Repr

def Write.apply {σ : Type} [Store σ] (w : Write) (key : String) (s : σ) :
    Except StoreError Unit × σ :=
  match w with
  | .nothing => (.ok (), s)
  | .value text => Store.call (.set key text) s
  | .delete => Store.call (.delete key) s
  | .fail e => (.error e, s)

inductive Step
  | write (key : String) (ttl : Option Nat) (w : Write)
  /-- The timer of a token is cancelled from outside. -/
  | abort (token : Nat)
  | advance (ms : Nat)
  | signal (sig : Signal)
  | fault (kind : CallKind) (error? : Option StoreError)
  | direct (c : Call)
deriving DecidableEq, Repr

inductive Answer
  | none
  /-- The outcome of a write: the token of the timer that it armed, if any. -/
  | write (o : Except StoreError (Option Nat))
  | outcome (c : Call) (o : c.Outcome)

variable {σ : Type} [Store σ]

def step (st : Step) (s : TimedStore (Recorded σ)) : Answer × TimedStore (Recorded σ) :=
  match st with
  | .write key ttl w =>
      let (o, s) := s.write key ttl (w.apply key)
      (.write o, s.settle)
  | .abort token => (.none, s.finish .cancelled token)
  | .advance ms => (.none, s.advance ms)
  | .signal sig => (.none, s.signal sig)
  | .fault kind error? => (.none, { s with store := s.store.setFault kind error? })
  | .direct c =>
      let (o, store) := s.store.direct c
      (.outcome c o, { s with store })

def runSteps : List Step → TimedStore (Recorded σ) → List Answer × TimedStore (Recorded σ)
  | [], s => ([], s)
  | st :: sts, s =>
      let (a, s) := step st s
      let (as, s) := runSteps sts s
      (a :: as, s)

end KvServer.Expiry
