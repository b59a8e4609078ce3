import KvServer.Proofs.Session.Lines
import KvServer.Session.Run

/-!
# What a script asks of a dispatcher

A script tells who connects, sends and leaves.  What a single dispatcher has to do for it can be
read off without any session: `Script.plan` lists the frames in the order in which their last bytes
come in, each with the number of its sender, and between them what else reaches the dispatcher.
-/

namespace KvServer

open Text

/-- A peer, as a script tells of it. -/
structure Peer where
  identity : String
  /-- What it has sent of a frame that is not complete. -/
  unfinished : Bytes := []
  ended : Bool := false
  registered : Bool := true
deriving DecidableEq, Repr

/-- A step of a dispatcher, with the number of the peer that gets the reply to it. -/
abbrev Errand : Type := Option Nat × Dispatch.Step

namespace Peer

def join (identity : String) : Peer := { identity }

/-- The frames that some bytes of a peer complete. -/
def frames (i : Nat) (bytes : Bytes) (p : Peer) : List Errand :=
  (lines (p.unfinished ++ bytes)).1.map fun l ↦ (some i, .frame p.identity l)

def send (bytes : Bytes) (p : Peer) : Peer :=
  { p with unfinished := (lines (p.unfinished ++ bytes)).2 }

/-- What is to do when a client departs: a registered client may have a mark to remove. -/
def departure (o : SessionOptions) (p : Peer) : List Errand :=
  if p.registered && o.revokeOnDisconnect && o.secret.isSome then [(none, .revoke p.identity)]
  else []

def unregister (p : Peer) : Peer := { p with registered := false }

def leave (p : Peer) : Peer := { p with ended := true, registered := false }

end Peer

namespace Script

def sender? (i : Nat) (ps : List Peer) : Option Peer := ps[i]?.filter (!·.ended)

/-- What one step of a script asks of a dispatcher, and the peers after it. -/
def step (o : SessionOptions) (st : Session.Step) (ps : List Peer) : List Errand × List Peer :=
  match st with
  | .connect identity (.readFails ..) =>
      ((Peer.join identity).departure o, ps ++ [(Peer.join identity).leave])
  | .connect identity .sound | .connect identity .writeFails => ([], ps ++ [.join identity])
  | .send i bytes =>
      match sender? i ps with
      | some p => (p.frames i bytes, ps.set i (p.send bytes))
      | none => ([], ps)
  | .finish i | .vanish i _ =>
      match sender? i ps with
      | some p => (p.departure o, ps.set i p.leave)
      | none => ([], ps)
  | .unregister i =>
      match ps[i]? with
      | some p => (p.departure o, ps.set i p.unregister)
      | none => ([], ps)
  | .advance ms => ([(none, .advance ms)], ps)
  | .wait => ([], ps)
  | .signal sig => ([(none, .signal sig)], ps)
  | .fault kind error? => ([(none, .fault kind error?)], ps)
  | .direct c => ([(none, .direct c)], ps)

/-- What a script asks of a dispatcher. -/
def plan (o : SessionOptions) : List Session.Step → List Peer → List Errand
  | [], _ => []
  | st :: sts, ps => (step o st ps).1 ++ plan o sts (step o st ps).2

/-- A step without a shutdown, broken writes, frames that are too long, and frames of a peer that
is not there any more when the replies come. -/
def Fair (st : Session.Step) (ps : List Peer) : Prop :=
  match st with
  | .connect _ .sound => True
  | .connect _ (.readFails data _) => Unfinished data
  | .connect _ .writeFails => False
  | .send i bytes => ∀ p ∈ sender? i ps, Fits (p.unfinished ++ bytes)
  | .vanish i bytes => ∀ p ∈ sender? i ps, Unfinished (p.unfinished ++ bytes)
  | .signal sig => sig = .resume
  | .finish _ | .unregister _ | .advance _ | .wait | .fault .. | .direct _ => True

def AllFair (o : SessionOptions) : List Session.Step → List Peer → Prop
  | [], _ => True
  | st :: sts, ps => Fair st ps ∧ AllFair o sts (step o st ps).2

instance (st : Session.Step) (ps : List Peer) : Decidable (Fair st ps) :=
  match st with
  | .connect _ .sound => inferInstanceAs (Decidable True)
  | .connect _ (.readFails data _) => inferInstanceAs (Decidable (Unfinished data))
  | .connect _ .writeFails => inferInstanceAs (Decidable False)
  | .send i bytes => inferInstanceAs (Decidable (∀ p ∈ sender? i ps, Fits (p.unfinished ++ bytes)))
  | .vanish i bytes =>
      inferInstanceAs (Decidable (∀ p ∈ sender? i ps, Unfinished (p.unfinished ++ bytes)))
  | .signal sig => inferInstanceAs (Decidable (sig = .resume))
  | .finish _ | .unregister _ | .advance _ | .wait | .fault .. | .direct _ =>
      inferInstanceAs (Decidable True)

instance decidableAllFair (o : SessionOptions) :
    (sts : List Session.Step) → (ps : List Peer) → Decidable (AllFair o sts ps)
  | [], _ => inferInstanceAs (Decidable True)
  | st :: sts, ps =>
      have := decidableAllFair o sts (step o st ps).2
      inferInstanceAs (Decidable (_ ∧ _))

/-- The replies among the answers to some errands that are for one peer. -/
def repliesTo (i : Nat) (es : List Errand) (answers : List Dispatch.Answer) : List Reply :=
  (es.zip answers).filterMap fun
    | ((some j, _), .reply r) => if j = i then some r else none
    | _ => none

theorem repliesTo_append {i : Nat} {es later : List Errand} {as bs : List Dispatch.Answer}
    (h : es.length = as.length) :
    repliesTo i (es ++ later) (as ++ bs) = repliesTo i es as ++ repliesTo i later bs := by
  rw [repliesTo, List.zip_append h, List.filterMap_append]
  rfl

end Script

end KvServer
