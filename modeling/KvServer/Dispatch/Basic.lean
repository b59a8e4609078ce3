import KvServer.Reply
import KvServer.Expiry.TimedStore

/-!
# Dispatch

A dispatcher turns one frame of a client into one reply.  A malformed frame never reaches the
store.  When a secret is configured, a client may read and write only while the store holds that
secret under the client's own identity, where a matching `AUTH` puts it.
-/

namespace KvServer

open Text

/-- The secret to ask for; an empty text asks for none. -/
def Secret.ofText (text : Option String) : Option String := text.filter (· ≠ "")

namespace Dispatch

variable {σ : Type} [Store σ]

def milliseconds (seconds : Nat) : Nat := seconds * 1000

/-- Checks the secret that a client presents, and marks the client when it is right.  A candidate is
a field of a line, and so has no blanks to be trimmed. -/
def authenticate (secret : Option String) (identity candidate : String) (s : TimedStore σ) :
    Reply × TimedStore σ :=
  match secret with
  | none => (.error, s)
  | some secret =>
      if candidate = secret then
        match s.call (.auth identity secret) with
        | (.ok (), s) => (.ok, s)
        | (.error _, s) => (.error, s)
      else (.invalidAuth, s)

/-- Runs a command if the client holds the secret. -/
def authorized (secret : Option String) (identity : String)
    (run : TimedStore σ → Reply × TimedStore σ) (s : TimedStore σ) : Reply × TimedStore σ :=
  match secret with
  | none => run s
  | some secret =>
      match s.call (.get identity) with
      | (.ok marker, s) => if marker = secret then run s else (.invalidAuth, s)
      | (.error _, s) => (.invalidAuth, s)

def set (key value : String) (expiry : Option Nat) (s : TimedStore σ) : Reply × TimedStore σ :=
  match s.write key (expiry.map milliseconds) (Store.call (.set key value)) with
  | (.ok _, s) => (.ok, s)
  | (.error _, s) => (.error, s)

def get (key : String) (s : TimedStore σ) : Reply × TimedStore σ :=
  match s.call (.get key) with
  | (.ok value, s) => (.value value, s)
  | (.error _, s) => (.error, s)

def del (key : String) (s : TimedStore σ) : Reply × TimedStore σ :=
  match s.write key none (Store.call (.delete key)) with
  | (.ok _, s) => (.ok, s)
  | (.error _, s) => (.error, s)

def run (secret : Option String) (identity : String) (c : Command) (s : TimedStore σ) :
    Reply × TimedStore σ :=
  match c with
  | .auth candidate => authenticate secret identity candidate s
  | .set key value expiry => authorized secret identity (set key value expiry) s
  | .get key => authorized secret identity (get key) s
  | .del key => authorized secret identity (del key) s

def execute (secret : Option String) (identity : String) (frame : Bytes) (s : TimedStore σ) :
    Reply × TimedStore σ :=
  match Command.parse frame with
  | .error e => (.ofFrameError e, s)
  | .ok c => run secret identity c s

/-- Removes the mark of a client that has left. -/
def revoke (secret : Option String) (identity : String) (s : TimedStore σ) : TimedStore σ :=
  if secret.isSome then (s.call (.delete identity)).2 else s

end Dispatch

end KvServer
