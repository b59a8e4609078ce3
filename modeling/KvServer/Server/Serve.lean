import KvServer.Session.Run
import KvServer.Settings.Basic

/-!
# Serving

The server runs a session until its accept loop ends: someone asks it to stop, no connection can be
accepted any more, or the event loop does not take a new one.  Then it tells everyone to stop,
waits until the event loop has stopped, and flushes the store once, whatever the flush answers.
Nobody waits for readers and tasks, which may go on after the flush.  The result of the server is
that of the accept loop.
-/

namespace KvServer

def Settings.sessionOptions (s : Settings) : SessionOptions :=
  { secret := s.secret
    queueCapacity := s.eventQueueCapacity.toNat
    maxInflight := s.maxInflightRequests.toNat
    revokeOnDisconnect := s.revokeAuthOnDisconnect }

inductive AcceptError
  | notAccepted (message : String)
  | loopStopped
deriving DecidableEq, Repr

def AcceptError.message : AcceptError → String
  | .notAccepted message => message
  | .loopStopped => "event loop stopped unexpectedly"

inductive ServerEvent
  | step (st : Session.Step)
  | acceptFails (message : String)
  | stop

/-- Whether the event loop has refused a new connection. -/
def Session.Answer.refuses (st : Session.Step) (a : Session.Answer) : Bool :=
  match st, a with
  | .connect .., .event (.error _) => true
  | _, _ => false

structure Accepted (σ : Type) where
  answers : List Session.Answer
  session : Session (Recorded σ)
  result : Except AcceptError Unit

structure Served (σ : Type) extends Accepted σ where
  store : Recorded σ

variable {σ : Type} [Store σ]

/-- The accept loop.  With no more events, someone asks it to stop. -/
def Session.accept (s : Session (Recorded σ)) : List ServerEvent → Accepted σ
  | [] | .stop :: _ => ⟨[], s, .ok ()⟩
  | .acceptFails message :: _ => ⟨[], s, .error (.notAccepted message)⟩
  | .step st :: events =>
      let (a, s) := s.step st
      if a.refuses st then ⟨[a], s, .error .loopStopped⟩
      else
        let rest := s.accept events
        { rest with answers := a :: rest.answers }

def Session.flush (s : Session (Recorded σ)) : Session (Recorded σ) :=
  { s with data := { s.data with store := (Store.call .flush s.data.store).2 } }

/-- The end of a server, in the order in which `Session.settle` has everyone take his turns: the
session has come to rest before the flush. -/
def Accepted.shutdown (a : Accepted σ) : Served σ :=
  let session := (a.session.step (.signal .stop)).2
  { a with session, store := session.flush.data.store }

def serve (s : Settings) (store : Recorded σ) (events : List ServerEvent) :
    Except LimitError (Served σ) :=
  (Session.start s.sessionOptions store).map fun session ↦ (session.accept events).shutdown

end KvServer
