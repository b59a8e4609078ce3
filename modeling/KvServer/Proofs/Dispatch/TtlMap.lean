import KvServer.Dispatch.Run
import Mathlib.Logic.Function.Basic

/-!
# Maps whose keys expire

A map of values and deadlines, with a clock.  It answers frames as a dispatcher does, but knows
nothing of stores, tokens or timers: a `SET` puts a value and a deadline, a `DEL` takes both away,
and time removes what has expired.  Marks of clients are values without a say in deadlines.
-/

namespace KvServer

open Function Text

/-- Values and deadlines of keys. -/
structure TtlMap where
  values : String → Option String
  deadlines : String → Option Nat := fun _ ↦ none
  now : Nat := 0
  channel : Channel := {}

namespace TtlMap

/-- Puts a value; it has a deadline when a time to live in seconds is given and no shutdown is
under way. -/
def put (key value : String) (ttl : Option Nat) (m : TtlMap) : TtlMap :=
  { m with
    values := update m.values key (some value)
    deadlines := update m.deadlines key
      (if m.channel.stopped then none else ttl.map fun seconds ↦ m.now + 1000 * seconds) }

def remove (key : String) (m : TtlMap) : TtlMap :=
  { m with values := update m.values key none, deadlines := update m.deadlines key none }

/-- Puts the mark of a client and leaves the deadline alone. -/
def mark (identity secret : String) (m : TtlMap) : TtlMap :=
  { m with values := update m.values identity (some secret) }

def unmark (identity : String) (m : TtlMap) : TtlMap :=
  { m with values := update m.values identity none }

def expired (time : Nat) (m : TtlMap) (key : String) : Bool := (m.deadlines key).any (· ≤ time)

/-- Lets time pass: what has expired goes. -/
def elapse (ms : Nat) (m : TtlMap) : TtlMap :=
  { m with
    values := fun key ↦ if m.expired (m.now + ms) key then none else m.values key
    deadlines := fun key ↦ if m.expired (m.now + ms) key then none else m.deadlines key
    now := m.now + ms }

/-- Passes a signal on: a shutdown takes all deadlines away. -/
def signal (sig : Signal) (m : TtlMap) : TtlMap :=
  { m with
    deadlines := fun key ↦ if (m.channel.after sig).stopped then none else m.deadlines key
    channel := m.channel.after sig }

def admits (secret : Option String) (identity : String) (m : TtlMap) : Bool :=
  secret.all fun secret ↦ m.values identity = some secret

def obey (secret : Option String) (identity : String) (c : Command) (m : TtlMap) :
    Reply × TtlMap :=
  match c with
  | .auth candidate =>
      match secret with
      | none => (.error, m)
      | some secret =>
          if candidate = secret then (.ok, m.mark identity secret) else (.invalidAuth, m)
  | .set key value ttl =>
      if m.admits secret identity then (.ok, m.put key value ttl) else (.invalidAuth, m)
  | .get key =>
      if m.admits secret identity then ((m.values key).elim .error .value, m)
      else (.invalidAuth, m)
  | .del key =>
      if m.admits secret identity then
        if (m.values key).isSome then (.ok, m.remove key) else (.error, m)
      else (.invalidAuth, m)

def execute (secret : Option String) (identity : String) (frame : Bytes) (m : TtlMap) :
    Reply × TtlMap :=
  match Command.parse frame with
  | .error e => (.ofFrameError e, m)
  | .ok c => m.obey secret identity c

/-- What happens to a map that expires. -/
inductive Event
  | frame (identity : String) (bytes : Bytes)
  | revoke (identity : String)
  | advance (ms : Nat)
  | signal (sig : Signal)

def Event.step : Event → Dispatch.Step
  | .frame identity bytes => .frame identity bytes
  | .revoke identity => .revoke identity
  | .advance ms => .advance ms
  | .signal sig => .signal sig

def step (secret : Option String) (e : Event) (m : TtlMap) : Dispatch.Answer × TtlMap :=
  match e with
  | .frame identity bytes =>
      let (r, m) := m.execute secret identity bytes
      (.reply r, m)
  | .revoke identity => (.none, if secret.isSome then m.unmark identity else m)
  | .advance ms => (.none, m.elapse ms)
  | .signal sig => (.none, m.signal sig)

def run (secret : Option String) : List Event → TtlMap → List Dispatch.Answer × TtlMap
  | [], m => ([], m)
  | e :: es, m =>
      let (a, m) := m.step secret e
      let (as, m) := m.run secret es
      (a :: as, m)

end TtlMap

end KvServer
