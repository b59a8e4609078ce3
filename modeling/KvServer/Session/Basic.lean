import KvServer.Session.Registry
import KvServer.Session.Framing
import KvServer.Dispatch.Basic

/-!
# Sessions

A session is the server between its sockets and its store.  Each connection has a reader, which
takes frames off its input; for each frame it first takes a permit and then a place in the queue of
requests.  The event loop takes requests off the queue and makes a task of each; a task replies and
gives the permit back.  A reader that ends closes its connection and reports the departure of its
client to the event loop.

Readers, the event loop and tasks run in any order.  `readerStep`, `readerQuit`, `takeRequest`,
`takeDeparture`, `stopLoop` and `taskStep` are the steps that they take, one at a time; a step that
cannot be taken is `none`.  Nobody prefers the shutdown to what else lies before him: a reader may
go on reading, and the event loop may go on taking events, until it notices the shutdown.
-/

namespace KvServer

open Text

structure SessionOptions where
  secret : Option String := none
  queueCapacity : Nat := 1024
  maxInflight : Nat := 1024
  revokeOnDisconnect : Bool := false
deriving DecidableEq, Repr

inductive Phase
  | reading
  /-- The reader has a frame and waits for a permit. -/
  | holding (frame : Bytes)
  /-- The reader has a permit for its frame and waits for a place in the queue. -/
  | permitted (frame : Bytes)
  | left (e : Ending)
deriving DecidableEq, Repr

structure Connection where
  client : Client
  inbox : Inbox := {}
  phase : Phase := .reading
  /-- Whether writing can succeed at all. -/
  writable : Bool := true
  present : Bool := true
  /-- The replies that have reached the peer, the latest first. -/
  replies : List Reply := []
deriving DecidableEq, Repr

namespace Connection

def isClosed (c : Connection) : Bool :=
  match c.phase with
  | .left _ => true
  | _ => false

def seesEnd (c : Connection) : Bool := c.isClosed && c.present

def deliver (r : Reply) (c : Connection) : Connection :=
  if c.writable && c.present && !c.isClosed then { c with replies := r :: c.replies } else c

def received (c : Connection) : Bytes := c.replies.reverse.flatMap Reply.bytes

end Connection

inductive Task
  | reply (r : Request)
  /-- Give back the permit of a request that has its reply. -/
  | finish (r : Request)
  | revoke (identity : String)
deriving DecidableEq, Repr

/-- The state of the server between its sockets and its store. -/
structure Session (σ : Type) where
  options : SessionOptions
  data : TimedStore σ
  running : Bool := true
  registry : Registry := {}
  /-- All connections ever registered; the number of a client is its place. -/
  connections : List Connection := []
  permits : Nat
  requests : List Request := []
  departures : List Client := []
  tasks : List Task := []

namespace Session

variable {σ : Type}

def update (i : Nat) (f : Connection → Connection) (s : Session σ) : Session σ :=
  { s with connections := s.connections.modify i f }

def stopped (s : Session σ) : Bool := s.data.channel.stopped

/-- Ends the reader of a connection: the connection is closed and the departure reported. -/
def leave (c : Client) (e : Ending) (s : Session σ) : Session σ :=
  let s := s.update c.id fun c ↦ { c with phase := .left e }
  { s with departures := if s.running then s.departures ++ [c] else s.departures }

def release (s : Session σ) : Session σ := { s with permits := s.permits + 1 }

def enqueue (r : Request) (s : Session σ) : Session σ := { s with requests := s.requests ++ [r] }

/-- What a reader does with what lies before it. -/
def connectionStep (c : Connection) (s : Session σ) : Option (Session σ) :=
  match c.phase with
  | .reading =>
      match c.inbox.next with
      | .frame bytes rest =>
          some (s.update c.client.id fun c ↦ { c with phase := .holding bytes, inbox := rest })
      | .stop e => some (s.leave c.client e)
      | .wait => none
  | .holding frame =>
      if s.permits = 0 then none
      else
        some ({ s with permits := s.permits - 1 }.update c.client.id
          fun c ↦ { c with phase := .permitted frame })
  | .permitted frame =>
      if !s.running then some (s.release.leave c.client .detached)
      else if s.requests.length < s.options.queueCapacity then
        some ((s.enqueue ⟨c.client, frame⟩).update c.client.id
          fun c ↦ { c with phase := .reading })
      else none
  | .left _ => none

/-- A reader that waits for input or for a permit notices the shutdown. -/
def connectionQuit (c : Connection) (s : Session σ) : Option (Session σ) :=
  match c.phase with
  | .reading | .holding _ => if s.stopped then some (s.leave c.client .shutdown) else none
  | .permitted _ | .left _ => none

def readerStep (i : Nat) (s : Session σ) : Option (Session σ) :=
  s.connections[i]?.bind fun c ↦ s.connectionStep c

def readerQuit (i : Nat) (s : Session σ) : Option (Session σ) :=
  s.connections[i]?.bind fun c ↦ s.connectionQuit c

def takeRequest (s : Session σ) : Option (Session σ) :=
  match s.running, s.requests with
  | true, r :: rest => some { s with requests := rest, tasks := s.tasks ++ [.reply r] }
  | _, _ => none

/-- Takes a client out of the registry; when it was there, its mark may have to go as well. -/
def unregister (c : Client) (s : Session σ) : Session σ :=
  match s.registry.remove c.id with
  | (none, _) => s
  | (some _, registry) =>
      if s.options.revokeOnDisconnect && s.options.secret.isSome then
        { s with registry, tasks := s.tasks ++ [.revoke c.identity] }
      else { s with registry }

def takeDeparture (s : Session σ) : Option (Session σ) :=
  match s.running, s.departures with
  | true, c :: rest => some ({ s with departures := rest }.unregister c)
  | _, _ => none

/-- The event loop notices the shutdown and ends; what is in its queues is dropped. -/
def stopLoop (s : Session σ) : Option (Session σ) :=
  if s.running && s.stopped then
    some { s with
      running := false
      requests := []
      departures := []
      permits := s.permits + s.requests.length }
  else none

variable [Store σ]

def answer (r : Request) (s : Session σ) : Session σ :=
  let (reply, data) := Dispatch.execute s.options.secret r.client.identity r.payload s.data
  { s with data }.update r.client.id (·.deliver reply)

def taskStep (k : Nat) (s : Session σ) : Option (Session σ) :=
  match s.tasks[k]? with
  | some (.reply r) => some { s.answer r with tasks := s.tasks.set k (.finish r) }
  | some (.finish _) => some { s.release with tasks := s.tasks.eraseIdx k }
  | some (.revoke identity) =>
      some { s with
        data := Dispatch.revoke s.options.secret identity s.data
        tasks := s.tasks.eraseIdx k }
  | none => none

end Session

end KvServer
