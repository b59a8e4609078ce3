import KvServer.Session.Basic
import KvServer.Dispatch.Run

/-!
# Runs of a session

A run is a list of steps, each a thing that peers, time or the operator do.  After each of them the
session settles: the readers, the event loop and the tasks take turns until no one can go on.  In
its turn a reader goes as far as it can, the event loop empties its queues, and every task ends.
Of the orders that are possible this is one: here the readers look at the shutdown first, and the
event loop when its queues are empty.

`Session.work` bounds the number of turns: every step of the session lowers it.
-/

namespace KvServer

open Text

def Connection.work (c : Connection) : Nat :=
  match c.phase with
  | .reading => 8 * c.inbox.unread.length + 3
  | .holding _ => 8 * c.inbox.unread.length + 9
  | .permitted _ => 8 * c.inbox.unread.length + 8
  | .left _ => 0

def Task.work : Task → Nat
  | .reply _ => 3
  | .finish _ => 2
  | .revoke _ => 1

namespace Session

variable {σ : Type}

/-- The steps that a session may still take by itself. -/
def work (s : Session σ) : Nat :=
  (s.connections.map Connection.work).foldr (· + ·) 0 + 4 * s.requests.length +
    2 * s.departures.length + (s.tasks.map Task.work).foldr (· + ·) 0 + s.running.toNat

/-- Takes a step as often as it can be taken, `fuel` times at most. -/
def exhaust (step : Session σ → Option (Session σ)) : (fuel : Nat) → Session σ → Session σ
  | 0, s => s
  | fuel + 1, s =>
      match step s with
      | some s => exhaust step fuel s
      | none => s

def readerTurn (fuel : Nat) (s : Session σ) : Session σ :=
  (List.range s.connections.length).foldl
    (fun s i ↦ exhaust (readerStep i) fuel (exhaust (readerQuit i) fuel s)) s

def loopTurn (fuel : Nat) (s : Session σ) : Session σ :=
  exhaust stopLoop fuel (exhaust takeDeparture fuel (exhaust takeRequest fuel s))

variable [Store σ]

def taskTurn (fuel : Nat) (s : Session σ) : Session σ := exhaust (taskStep 0) fuel s

def isIdle (s : Session σ) : Bool :=
  s.stopLoop.isNone && s.takeRequest.isNone && s.takeDeparture.isNone && s.tasks.isEmpty &&
    s.connections.all fun c ↦ (s.connectionStep c).isNone && (s.connectionQuit c).isNone

/-- Lets everyone have turns until no one can go on, `fuel` times at most. -/
def turns : (fuel : Nat) → Session σ → Session σ
  | 0, s => s
  | fuel + 1, s =>
      if s.isIdle then s
      else turns fuel (taskTurn (fuel + 1) (loopTurn (fuel + 1) (readerTurn (fuel + 1) s)))

def settle (s : Session σ) : Session σ := turns s.work s

end Session

inductive Medium
  | sound
  | readFails (data : Bytes) (message : String)
  | writeFails
deriving DecidableEq, Repr

inductive LoopClosed
  | loopClosed
deriving DecidableEq, Repr

def LoopClosed.message : LoopClosed → String
  | .loopClosed => "event loop is not running"

inductive LimitError
  | queueCapacity (n : Nat)
  | maxInflight (n : Nat)
deriving DecidableEq, Repr

/-- The most permits, and the most places in a queue. -/
def maxLimit : Nat := 0x1fffffffffffffff

namespace Session

variable {σ : Type}

def start (o : SessionOptions) (store : σ) : Except LimitError (Session σ) :=
  if o.queueCapacity = 0 ∨ maxLimit < o.queueCapacity then .error (.queueCapacity o.queueCapacity)
  else if maxLimit < o.maxInflight then .error (.maxInflight o.maxInflight)
  else .ok { options := o, data := { store }, permits := o.maxInflight }

def clientCount (s : Session σ) : Except LoopClosed Nat :=
  if s.running then .ok s.registry.size else .error .loopClosed

def newConnection (client : Client) : Medium → Connection
  | .sound => { client }
  | .readFails data message => { client, inbox := ⟨data, some (.failed message)⟩ }
  | .writeFails => { client, writable := false }

/-- Registers a connection.  Its way through the queue of registrations and its admission by the
event loop are one step with that, so no departure of a client comes before its admission, and the
event loop drops no registration when it stops. -/
def connect (identity : String) (m : Medium) (s : Session σ) :
    Except LoopClosed Unit × Session σ :=
  if s.running then
    let client : Client := ⟨s.connections.length, identity⟩
    let (_, registry) := s.registry.enroll client
    (.ok (), { s with registry, connections := s.connections ++ [newConnection client m] })
  else (.error .loopClosed, s)

def reportDeparture (i : Nat) (s : Session σ) : Except LoopClosed Unit × Session σ :=
  match s.running, s.connections[i]? with
  | true, some c => (.ok (), { s with departures := s.departures ++ [c.client] })
  | _, _ => (.error .loopClosed, s)

def Connection.canSend (c : Connection) : Bool :=
  c.present && c.inbox.inputEnd.isNone && !c.isClosed

def receivedSince (s before : Session σ) (i : Nat) : Bytes :=
  let old := (before.connections[i]?.elim [] Connection.replies).length
  let all := s.connections[i]?.elim [] Connection.replies
  (all.take (all.length - old)).reverse.flatMap Reply.bytes

def closedSince (s before : Session σ) (i : Nat) : Bool :=
  s.connections[i]?.any Connection.seesEnd && !before.connections[i]?.any Connection.isClosed

/-- One step of a run; connections go by their numbers. -/
inductive Step
  | connect (identity : String) (m : Medium)
  | send (i : Nat) (bytes : Bytes)
  | finish (i : Nat)
  /-- A peer sends bytes, if any, and goes away before it reads any reply to them. -/
  | vanish (i : Nat) (bytes : Bytes)
  /-- The departure of a client is reported while its reader lives on. -/
  | unregister (i : Nat)
  | advance (ms : Nat)
  | wait
  | signal (sig : Signal)
  | fault (kind : CallKind) (error? : Option StoreError)
  | direct (c : Call)
deriving DecidableEq, Repr

inductive Answer
  | none
  | event (o : Except LoopClosed Unit)
  | sendFailed
  | outcome (c : Call) (o : c.Outcome)

variable [Store σ]

/-- The answer to one step and the state that it leaves before anyone goes on. -/
def act (st : Step) (s : Session (Recorded σ)) : Answer × Session (Recorded σ) :=
  match st with
  | .connect identity m =>
      let (o, s) := s.connect identity m
      (.event o, s)
  | .send i bytes =>
      if s.connections[i]?.any Connection.canSend then
        (.none, s.update i fun c ↦ { c with inbox := c.inbox.receive bytes })
      else (.sendFailed, s)
  | .finish i =>
      (.none, s.update i fun c ↦
        { c with inbox := { c.inbox with inputEnd := c.inbox.inputEnd.or (some .closed) } })
  | .vanish i bytes =>
      (.none, s.update i fun c ↦
        let inbox := if Connection.canSend c then c.inbox.receive bytes else c.inbox
        { c with
          inbox := { inbox with inputEnd := inbox.inputEnd.or (some .closed) }
          present := false })
  | .unregister i =>
      let (o, s) := s.reportDeparture i
      (.event o, s)
  | .advance ms => (.none, { s with data := s.data.advance ms })
  | .wait => (.none, s)
  | .signal sig => (.none, { s with data := s.data.signal sig })
  | .fault kind error? => (.none, { s with data := Dispatch.setFault kind error? s.data })
  | .direct c =>
      let (o, data) := Dispatch.direct c s.data
      (.outcome c o, { s with data })

/-- The answer to one step and the state that it leaves once no one can go on. -/
def step (st : Step) (s : Session (Recorded σ)) : Answer × Session (Recorded σ) :=
  let (a, s) := s.act st
  (a, s.settle)

def runSteps : List Step → Session (Recorded σ) → List Answer × Session (Recorded σ)
  | [], s => ([], s)
  | st :: sts, s =>
      let (a, s) := s.step st
      let (as, s) := runSteps sts s
      (a :: as, s)

end Session

end KvServer
