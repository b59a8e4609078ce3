import KvServer.Expiry.Shutdown
import KvServer.Store.Basic
import Std.Data.ExtTreeMap

/-!
# A store with timers

A write may give its key a time to live.  It then arms a timer, which deletes the key when its
deadline comes.  The number of a timer is its token, and the armed map holds for a key the token of
the latest write that gave it a time to live, until another write succeeds or the timer runs out.
A timer that runs out deletes its key only if the armed map still holds its token, so a timer that
a later write has superseded does nothing, however late it runs.
-/

namespace KvServer

open Std (ExtTreeMap)

inductive TimerStatus
  | pending
  /-- The timer has run out, or shutdown has ended it. -/
  | done
  | cancelled
deriving DecidableEq, Repr

structure Timer where
  key : String
  deadline : Nat
  status : TimerStatus := .pending
deriving DecidableEq, Repr

def Timer.finish (status : TimerStatus) (t : Timer) : Timer :=
  match t.status with
  | .pending => { t with status }
  | .done | .cancelled => t

def Timer.isDue (now : Nat) (t : Timer) : Bool := t.status = .pending && t.deadline ≤ now

/-- A store, the timers of its keys and the time in milliseconds. -/
structure TimedStore (σ : Type) where
  store : σ
  now : Nat := 0
  channel : Channel := {}
  /-- All timers ever armed; the token of a timer is its place. -/
  timers : List Timer := []
  /-- The token of the timer armed for a key. -/
  armed : ExtTreeMap String Nat := ∅

namespace TimedStore

variable {σ : Type}

def finish (status : TimerStatus) (token : Nat) (s : TimedStore σ) : TimedStore σ :=
  { s with timers := s.timers.modify token (·.finish status) }

def disarm (key : String) (s : TimedStore σ) : TimedStore σ :=
  match s.armed[key]? with
  | some token => { s.finish .cancelled token with armed := s.armed.erase key }
  | none => s

/-- Arms a timer for a key.  The deadline has no bound here.  A real clock cannot tell every moment,
and a sleep until one that is too late for it ends after some thirty years: it is assumed that no
timer waits that long. -/
def arm (key : String) (ttl : Nat) (s : TimedStore σ) : TimedStore σ :=
  { s with
    timers := s.timers ++ [{ key, deadline := s.now + ttl }]
    armed := s.armed.insert key s.timers.length }

/-- Applies a write to a key.  When it succeeds it cancels the timer armed for the key and, given a
time to live, arms a new one and answers its token; when it fails the timers stay as they are. -/
def write (key : String) (ttl : Option Nat) (apply : σ → Except StoreError Unit × σ)
    (s : TimedStore σ) : Except StoreError (Option Nat) × TimedStore σ :=
  match apply s.store with
  | (.error e, store) => (.error e, { s with store })
  | (.ok (), store) =>
      let s := { s with store }.disarm key
      match ttl with
      | none => (.ok none, s)
      | some ttl => (.ok (some s.timers.length), s.arm key ttl)

variable [Store σ]

def call (c : Call) (s : TimedStore σ) : c.Outcome × TimedStore σ :=
  let (o, store) := Store.call c s.store
  (o, { s with store })

/-- What a timer does when it runs out: it deletes its key if it is still the one armed for it. -/
def expire (key : String) (token : Nat) (s : TimedStore σ) : TimedStore σ :=
  if s.armed[key]? = some token then
    ({ s with armed := s.armed.erase key }.call (.delete key)).2
  else s

def fire (token : Nat) (s : TimedStore σ) : TimedStore σ :=
  match s.timers[token]? with
  | some t => (s.finish .done token).expire t.key token
  | none => s

def due (s : TimedStore σ) : List Nat :=
  (s.timers.zipIdx.filter fun p ↦ p.1.isDue s.now).map Prod.snd

def endTimers (s : TimedStore σ) : TimedStore σ :=
  { s with timers := s.timers.map (·.finish .done) }

/-- Lets every timer run that can: during a shutdown they all end, else those due run out. -/
def settle (s : TimedStore σ) : TimedStore σ :=
  if s.channel.stopped then s.endTimers else s.due.foldl (fun s token ↦ s.fire token) s

def advance (ms : Nat) (s : TimedStore σ) : TimedStore σ :=
  { s with now := s.now + ms }.settle

def signal (sig : Signal) (s : TimedStore σ) : TimedStore σ :=
  { s with channel := s.channel.after sig }.settle

end TimedStore

end KvServer
