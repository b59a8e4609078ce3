import KvServer.Proofs.Session.Course
import Mathlib.Data.List.Perm.Basic

/-!
# Nothing is lost between the readers and the tasks

A frame that a reader has taken waits for a permit, then for a place in the queue, then for the
event loop and last for its task.  Every change moves it from one of these places to the next, so
nothing gets lost or doubled on the way, and the permits that are free and those in use are always
as many as at the start (`dispatch_conserves`).  The places are bounded, but no one waits in vain:
while a frame is on its way, or a line unread, someone can take a step.
-/

namespace KvServer

open Text

section Lists

variable {α β : Type} {as : List α} {i : Nat} {a : α}

theorem flatMap_modify_perm (f : α → List β) (g : α → α) (h : as[i]? = some a) :
    (f a ++ (as.modify i g).flatMap f).Perm (f (g a) ++ as.flatMap f) := by
  induction as generalizing i with
  | nil => cases h
  | cons b as ih =>
      cases i with
      | zero =>
          cases h
          exact List.perm_append_comm_assoc _ _ _
      | succ i =>
          simp only [List.modify_succ_cons, List.flatMap_cons]
          refine (List.perm_append_comm_assoc _ _ _).trans ?_
          refine ((ih h).append_left (f b)).trans ?_
          exact List.perm_append_comm_assoc _ _ _

theorem flatMap_eraseIdx_perm (f : α → List β) (h : as[i]? = some a) :
    (f a ++ (as.eraseIdx i).flatMap f).Perm (as.flatMap f) := by
  obtain ⟨hi, rfl⟩ := List.getElem?_eq_some_iff.mp h
  exact (List.getElem_cons_eraseIdx_perm hi).flatMap_right f

theorem flatMap_modify_of_same (f : α → List β) {g : α → α} (h : ∀ a, f (g a) = f a) :
    (as.modify i g).flatMap f = as.flatMap f := by
  rw [List.flatMap_def, map_modify_of_eq h, ← List.flatMap_def]

end Lists

/-- The frame that a reader holds, if any, and what it has not read. -/
structure Intake where
  held : List Bytes := []
  unread : Bytes := []
deriving DecidableEq, Repr

namespace Intake

/-- How an intake goes on: what was held or unread, and what has come in, is what has gone into the
queue, as frames, and what is held or unread then. -/
structure Flow (a : Intake) (came : Bytes) (gone : List Bytes) (b : Intake) : Prop where
  bytes : a.held.flatten ++ a.unread ++ came = gone.flatten ++ (b.held.flatten ++ b.unread)
  frames : (∀ f ∈ a.held, IsFrame f) → ∀ f ∈ gone ++ b.held, IsFrame f

variable {a b c : Intake} {came more : Bytes} {gone next : List Bytes}

theorem Flow.of_eq (h : b = a) : Flow a [] [] b := ⟨by simp [h], by simp [h]⟩

theorem Flow.refl : Flow a [] [] a := .of_eq rfl

theorem Flow.trans (h : Flow a came gone b) (hnext : Flow b more next c) :
    Flow a (came ++ more) (gone ++ next) c where
  bytes := by
    have hbytes := congrArg (· ++ more) h.bytes
    simp only [List.append_assoc] at hbytes
    simp only [List.flatten_append, List.append_assoc, hbytes]
    rw [← List.append_assoc b.held.flatten, hnext.bytes]
  frames := by
    intro ha f hf
    have hgone := h.frames ha
    have hheld : ∀ f ∈ b.held, IsFrame f := fun f hf ↦ hgone f (List.mem_append_right _ hf)
    rw [List.append_assoc] at hf
    rcases List.mem_append.mp hf with hf | hf
    · exact hgone f (List.mem_append_left _ hf)
    · exact hnext.frames hheld f hf

/-- The lines that have come in are the frames that have gone and those that are left. -/
theorem Flow.lines_eq (h : Flow {} came gone b) :
    (lines came).1 = gone ++ b.held ++ (lines b.unread).1 := by
  have hbytes := h.bytes
  have hframes := h.frames (by simp)
  simp only [List.flatten_nil, List.nil_append] at hbytes
  rw [hbytes, ← List.append_assoc, ← List.flatten_append,
    lines_flatten_append fun f hf ↦ (hframes f hf).isLine]

end Intake

namespace Connection

def intake (c : Connection) : Intake := ⟨c.held, c.inbox.unread⟩

/-- The frame that a reader has a permit for. -/
def permitted (c : Connection) : List Bytes :=
  match c.phase with
  | .permitted f => [f]
  | .reading | .holding _ | .left _ => []

/-- The frame that a reader holds, as a request of its client. -/
def waiting (c : Connection) : List Request := c.held.map (Request.mk c.client)

/-- The frame that a reader has a permit for, as a request of its client. -/
def ready (c : Connection) : List Request := c.permitted.map (Request.mk c.client)

variable {c d : Connection}

theorem waiting_congr (hclient : d.client = c.client) (hphase : d.phase = c.phase) :
    d.waiting = c.waiting := by
  rw [waiting, held, hclient, hphase, waiting, held]

theorem ready_congr (hclient : d.client = c.client) (hphase : d.phase = c.phase) :
    d.ready = c.ready := by
  rw [ready, permitted, hclient, hphase, ready, permitted]

@[simp] theorem waiting_newConnection (client : Client) (m : Medium) :
    (Session.newConnection client m).waiting = [] := by
  rw [waiting, held, Session.phase_newConnection, List.map_nil]

@[simp] theorem ready_newConnection (client : Client) (m : Medium) :
    (Session.newConnection client m).ready = [] := by
  rw [ready, permitted, Session.phase_newConnection, List.map_nil]

end Connection

namespace Task

/-- The request that a task has answered. -/
def answered : Task → List Request
  | .finish r => [r]
  | .reply _ | .revoke _ => []

end Task

namespace Session

section Places

variable {σ : Type}

/-- The frames that readers hold. -/
def held (s : Session σ) : List Request := s.connections.flatMap Connection.waiting

/-- The frames that readers have a permit for. -/
def permitted (s : Session σ) : List Request := s.connections.flatMap Connection.ready

/-- The requests that have a task. -/
def inDispatch (s : Session σ) : List Request := s.tasks.flatMap Task.request

/-- The requests that have their reply and a task. -/
def replied (s : Session σ) : List Request := s.tasks.flatMap Task.answered

/-- What a connection has on its input side. -/
def intake (i : Nat) (s : Session σ) : Intake := s.connections[i]?.elim {} Connection.intake

end Places

namespace Deed

def reads (ds : List Deed) : List Request :=
  ds.filterMap fun
    | .read r => some r
    | _ => none

def enqueued (ds : List Deed) : List Request :=
  ds.filterMap fun
    | .enqueue r => some r
    | _ => none

def taken (ds : List Deed) : List Request :=
  ds.filterMap fun
    | .take r => some r
    | _ => none

def replies (ds : List Deed) : List Request :=
  ds.filterMap fun
    | .reply r _ => some r
    | _ => none

def finished (ds : List Deed) : List Request :=
  ds.filterMap fun
    | .finish r => some r
    | _ => none

/-- The bytes that have come in for a connection. -/
def arrived (i : Nat) (ds : List Deed) : Bytes :=
  ds.flatMap fun
    | .arrive j bytes => if j = i then bytes else []
    | _ => []

/-- The frames of a connection that have been put into the queue. -/
def entered (i : Nat) (ds : List Deed) : List Bytes :=
  ds.filterMap fun
    | .enqueue r => if r.client.id = i then some r.payload else none
    | _ => none

@[simp] theorem reads_append (ds new : List Deed) :
    reads (ds ++ new) = reads ds ++ reads new :=
  List.filterMap_append

@[simp] theorem enqueued_append (ds new : List Deed) :
    enqueued (ds ++ new) = enqueued ds ++ enqueued new :=
  List.filterMap_append

@[simp] theorem taken_append (ds new : List Deed) :
    taken (ds ++ new) = taken ds ++ taken new :=
  List.filterMap_append

@[simp] theorem replies_append (ds new : List Deed) :
    replies (ds ++ new) = replies ds ++ replies new :=
  List.filterMap_append

@[simp] theorem finished_append (ds new : List Deed) :
    finished (ds ++ new) = finished ds ++ finished new :=
  List.filterMap_append

@[simp] theorem arrived_append (i : Nat) (ds new : List Deed) :
    arrived i (ds ++ new) = arrived i ds ++ arrived i new :=
  List.flatMap_append

@[simp] theorem entered_append (i : Nat) (ds new : List Deed) :
    entered i (ds ++ new) = entered i ds ++ entered i new :=
  List.filterMap_append

end Deed

open Deed

variable {σ : Type} [Store σ] {s s' : Session (Recorded σ)} {e : Event} {new : List Deed}

section Places

omit [Store σ]

variable {i k : Nat} {c : Connection} {f : Connection → Connection} {r : Request}

/-- The frames that readers hold change with those of the one connection that changes. -/
theorem readers_of_modify {came gone : List Request} (hc : s.connections[i]? = some c)
    (hs' : s'.connections = s.connections.modify i f)
    (hmove : (came ++ c.waiting).Perm ((f c).waiting ++ gone)) :
    (came ++ s.held).Perm (s'.held ++ gone) := by
  have hheld := flatMap_modify_perm Connection.waiting f hc
  rw [← hs'] at hheld
  rw [List.perm_iff_count] at hmove hheld ⊢
  intro x
  have hmove := hmove x
  have hheld := hheld x
  simp only [List.count_append, Session.held] at hmove hheld ⊢
  omega

/-- The permits that readers have change with that of the one connection that changes. -/
theorem permits_of_modify {came gone : Nat} (hc : s.connections[i]? = some c)
    (hs' : s'.connections = s.connections.modify i f)
    (hmove : s'.permits + (f c).ready.length + came = s.permits + c.ready.length + gone) :
    s'.permits + s'.permitted.length + came = s.permits + s.permitted.length + gone := by
  have hpermitted := (flatMap_modify_perm Connection.ready f hc).length_eq
  rw [← hs'] at hpermitted
  simp only [List.length_append] at hpermitted
  simp only [Session.permitted]
  omega

theorem held_of_same (hs' : s'.connections = s.connections.modify i f)
    (hclient : ∀ d, (f d).client = d.client) (hphase : ∀ d, (f d).phase = d.phase) :
    s'.held = s.held := by
  rw [held, held, hs']
  exact flatMap_modify_of_same _ fun d ↦ Connection.waiting_congr (hclient d) (hphase d)

theorem permitted_of_same (hs' : s'.connections = s.connections.modify i f)
    (hclient : ∀ d, (f d).client = d.client) (hphase : ∀ d, (f d).phase = d.phase) :
    s'.permitted = s.permitted := by
  rw [permitted, permitted, hs']
  exact flatMap_modify_of_same _ fun d ↦ Connection.ready_congr (hclient d) (hphase d)

@[simp] theorem answered_revocations (client : Client) :
    (s.revocations client).flatMap Task.answered = [] := by
  unfold revocations
  split <;> rfl

end Places

section Arrivals

omit [Store σ]

variable (i : Nat) (bytes : Bytes)

@[simp] theorem reads_arrivals : reads (arrivals i bytes) = [] := by
  cases bytes <;> rfl

@[simp] theorem enqueued_arrivals : enqueued (arrivals i bytes) = [] := by
  cases bytes <;> rfl

@[simp] theorem taken_arrivals : taken (arrivals i bytes) = [] := by
  cases bytes <;> rfl

@[simp] theorem replies_arrivals : replies (arrivals i bytes) = [] := by
  cases bytes <;> rfl

@[simp] theorem finished_arrivals : finished (arrivals i bytes) = [] := by
  cases bytes <;> rfl

end Arrivals

/-- A frame that a reader takes is held until it is put into the queue. -/
theorem Change.readers (h : Change s e new s') :
    (reads new ++ s.held).Perm (s'.held ++ enqueued new) := by
  cases h with
  | idle | unregister | advance | tamper | takeRequest | takeDeparture | finish | revoke =>
      simp [reads, enqueued, held, release]
  | connect client m =>
      simp [held]
  | input bytes hc hclient hphase =>
      rw [reads_arrivals, enqueued_arrivals, List.append_nil]
      exact .of_eq (held_of_same rfl hclient hphase).symm
  | hold hc hphase hnext | permit hc hphase | enqueue hc hphase | leave hc hphase hnext =>
      refine readers_of_modify hc rfl ?_
      simp [reads, enqueued, Connection.waiting, Connection.held, hphase]
  | @reply _ k r htask =>
      change s.held.Perm (_ ++ [])
      rw [List.append_nil]
      exact .of_eq (held_of_same rfl (fun c ↦ (deliver_same _ c).1)
        (fun c ↦ (deliver_same _ c).2.2)).symm

/-- The queue is first in, first out. -/
theorem Change.queue (h : Change s e new s') :
    s.requests ++ enqueued new = taken new ++ s'.requests := by
  cases h with
  | idle | unregister | advance | tamper | takeDeparture | hold | permit | leave | reply | finish
  | revoke =>
      simp [enqueued, taken, update, release, answer]
  | connect | input => simp [update]
  | takeRequest hrequests => simp [enqueued, taken, hrequests]
  | enqueue hc hphase => simp [enqueued, taken, update, Session.enqueue]

/-- A request has a task from when the event loop takes it until the task is finished. -/
theorem Change.dispatch (h : Change s e new s') :
    (taken new ++ s.inDispatch).Perm (s'.inDispatch ++ finished new) := by
  cases h with
  | idle | unregister | advance | tamper | hold | permit | enqueue | leave =>
      simp [taken, finished, inDispatch, update, Session.enqueue]
  | connect | input => simp [inDispatch, update]
  | takeDeparture hdepartures =>
      simp [taken, finished, inDispatch]
  | @takeRequest _ r rest hrequests =>
      simpa [taken, finished, inDispatch, Task.request] using (List.perm_append_singleton r _).symm
  | @reply _ k r htask =>
      have hmoved := flatMap_modify_perm Task.request (fun _ ↦ .finish r) htask
      have hsame := (List.perm_append_left_iff [r]).mp hmoved
      rw [← List.set_eq_modify] at hsame
      simpa [taken, finished, inDispatch] using hsame.symm
  | @finish _ k r htask =>
      have hgone := flatMap_eraseIdx_perm Task.request htask
      simpa [taken, finished, inDispatch, Task.request] using
        hgone.symm.trans List.perm_append_comm
  | @revoke _ k identity htask =>
      have hgone := flatMap_eraseIdx_perm Task.request htask
      simpa [taken, finished, inDispatch, Task.request] using hgone.symm

/-- A request that is replied to waits for its task to be finished. -/
theorem Change.replied (h : Change s e new s') :
    (replies new ++ s.replied).Perm (s'.replied ++ finished new) := by
  cases h with
  | idle | unregister | advance | tamper | hold | permit | enqueue | leave =>
      simp [replies, finished, Session.replied, update, Session.enqueue]
  | connect | input => simp [Session.replied, update]
  | takeDeparture hdepartures =>
      simp [replies, finished, Session.replied]
  | takeRequest hrequests => simp [replies, finished, Session.replied, Task.answered]
  | @reply _ k r htask =>
      have hmoved := flatMap_modify_perm Task.answered (fun _ ↦ .finish r) htask
      rw [← List.set_eq_modify] at hmoved
      simpa [replies, finished, Session.replied, Task.answered] using hmoved.symm
  | @finish _ k r htask =>
      have hgone := flatMap_eraseIdx_perm Task.answered htask
      simpa [replies, finished, Session.replied, Task.answered] using
        hgone.symm.trans List.perm_append_comm
  | @revoke _ k identity htask =>
      have hgone := flatMap_eraseIdx_perm Task.answered htask
      simpa [replies, finished, Session.replied, Task.answered] using hgone.symm

/-- A permit is free until a reader takes it, goes with the frame into the queue and is free again
when the request is finished. -/
theorem Change.permits (h : Change s e new s') :
    s'.permits + s'.permitted.length + (enqueued new).length =
      s.permits + s.permitted.length + (finished new).length := by
  cases h with
  | idle | unregister | advance | tamper | takeRequest | takeDeparture | revoke =>
      simp [enqueued, finished, permitted]
  | connect client m =>
      simp [permitted]
  | input bytes hc hclient hphase =>
      rw [enqueued_arrivals, finished_arrivals, permitted_of_same rfl hclient hphase]
      rfl
  | hold hc hphase hnext | enqueue hc hphase | leave hc hphase hnext =>
      refine permits_of_modify hc rfl ?_
      simp [enqueued, finished, Connection.ready, Connection.permitted, hphase, update,
        Session.enqueue]
  | permit hc hphase hpermits =>
      refine permits_of_modify hc rfl ?_
      simp [enqueued, finished, Connection.ready, Connection.permitted, hphase, update]
      omega
  | @reply _ k r htask =>
      rw [permitted_of_same rfl (fun c ↦ (deliver_same _ c).1) (fun c ↦ (deliver_same _ c).2.2)]
      rfl
  | finish htask =>
      simp [enqueued, finished, permitted, release]
      omega

/-! ## The order of the frames -/

section Streams

omit [Store σ]

variable {i j : Nat} {c : Connection} {f : Connection → Connection}

@[simp] theorem arrived_arrivals (bytes : Bytes) :
    arrived i (arrivals j bytes) = if j = i then bytes else [] := by
  cases bytes <;> simp [arrivals, arrived]

@[simp] theorem entered_arrivals (bytes : Bytes) : entered i (arrivals j bytes) = [] := by
  cases bytes <;> rfl

@[simp] theorem intake_deliver (r : Reply) (c : Connection) : (c.deliver r).intake = c.intake := by
  unfold Connection.deliver
  split <;> rfl

theorem intake_of_same (hs' : s'.connections = s.connections.modify j f)
    (hf : ∀ d, (f d).intake = d.intake) : s'.intake i = s.intake i := by
  rw [intake, intake, hs', List.getElem?_modify]
  by_cases hji : j = i
  · cases s.connections[i]? <;> simp [hji, hf]
  · simp [hji]

/-- The intakes change with that of the one connection that changes. -/
theorem flow_of_modify (hc : s.connections[j]? = some c)
    (hs' : s'.connections = s.connections.modify j f)
    (hother : j ≠ i → arrived i new = [] ∧ entered i new = [])
    (hflow : c.intake.Flow (arrived j new) (entered j new) (f c).intake) :
    (s.intake i).Flow (arrived i new) (entered i new) (s'.intake i) := by
  rw [intake, intake, hs', List.getElem?_modify]
  by_cases hji : j = i
  · subst hji
    simpa [hc] using hflow
  · obtain ⟨harrived, hentered⟩ := hother hji
    rw [harrived, hentered]
    simpa [hji] using Intake.Flow.refl

end Streams

/-- Frames go into the queue as they have come in. -/
theorem Change.flow (h : Change s e new s') (i : Nat) :
    (s.intake i).Flow (arrived i new) (entered i new) (s'.intake i) := by
  cases h with
  | idle | unregister | advance | tamper | takeRequest | takeDeparture | finish | revoke =>
      exact .refl
  | connect client m hid =>
      have hheld : (newConnection client m).held = [] := by
        rw [Connection.held, phase_newConnection]
      rw [arrived_arrivals, entered_arrivals, hid, intake, intake, List.getElem?_append]
      by_cases hi : i < s.connections.length
      · rw [if_neg (Nat.ne_of_gt hi), if_pos hi]
        exact .refl
      · rw [if_neg hi, List.getElem?_eq_none (Nat.le_of_not_lt hi)]
        by_cases hlast : s.connections.length = i
        · subst hlast
          refine ⟨?_, ?_⟩ <;> simp [Connection.intake, hheld]
        · rw [if_neg hlast, List.getElem?_eq_none (by rw [List.length_singleton]; omega)]
          exact .refl
  | @input _ j bytes c f hc hclient hphase hunread =>
      refine flow_of_modify hc rfl ?_ ?_
      · intro hne
        simp [hne]
      · have hheld : (f c).held = c.held := by rw [Connection.held, hphase, Connection.held]
        rw [arrived_arrivals, entered_arrivals, if_pos rfl]
        exact ⟨by simp [Connection.intake, hheld, hunread], by simp [Connection.intake, hheld]⟩
  | hold hc hphase hnext =>
      refine flow_of_modify hc rfl (fun _ ↦ ⟨rfl, rfl⟩) ?_
      obtain ⟨hframe, hunread, -⟩ := Inbox.next_eq_frame hnext
      refine ⟨?_, ?_⟩
      · simp [Connection.intake, Connection.held, hphase, hunread, arrived, entered]
      · simpa [Connection.intake, Connection.held, hphase, entered] using hframe
  | permit hc hphase | leave hc hphase hnext =>
      refine flow_of_modify hc rfl (fun _ ↦ ⟨rfl, rfl⟩) ⟨?_, ?_⟩ <;>
        simp [Connection.intake, Connection.held, hphase, arrived, entered]
  | enqueue hc hphase =>
      refine flow_of_modify hc rfl (fun hne ↦ ⟨rfl, by simp [entered, hne]⟩) ⟨?_, ?_⟩ <;>
        simp [Connection.intake, Connection.held, hphase, arrived, entered]
  | @reply _ k r htask =>
      exact .of_eq (intake_of_same rfl (intake_deliver _))

/-! ## Courses -/

/-- What the deeds of a course and the state after it say about each other. -/
structure Ledger (o : SessionOptions) (ds : List Deed) (s : Session (Recorded σ)) : Prop where
  options : s.options = o
  permits : s.permits + s.permitted.length + (enqueued ds).length =
    o.maxInflight + (finished ds).length
  readers : (reads ds).Perm (s.held ++ enqueued ds)
  queue : enqueued ds = taken ds ++ s.requests
  dispatch : (taken ds).Perm (s.inDispatch ++ finished ds)
  replied : (replies ds).Perm (s.replied ++ finished ds)
  flow : ∀ i, Intake.Flow {} (arrived i ds) (entered i ds) (s.intake i)

variable {o : SessionOptions} {ds : List Deed}

theorem perm_append_of_step {a a' came came' gone gone' : List Request}
    (h : came.Perm (a ++ gone)) (hstep : (came' ++ a).Perm (a' ++ gone')) :
    (came ++ came').Perm (a' ++ (gone ++ gone')) := by
  rw [List.perm_iff_count] at h hstep ⊢
  intro x
  have h := h x
  have hstep := hstep x
  simp only [List.count_append] at h hstep ⊢
  omega

theorem Ledger.change (hs : Ledger o ds s) (h : Change s e new s') : Ledger o (ds ++ new) s' where
  options := h.options.trans hs.options
  permits := by
    have hbefore := hs.permits
    have hstep := h.permits
    simp only [enqueued_append, finished_append, List.length_append]
    omega
  readers := by
    rw [reads_append, enqueued_append]
    exact perm_append_of_step hs.readers h.readers
  queue := by
    rw [enqueued_append, taken_append, hs.queue, List.append_assoc, h.queue, List.append_assoc]
  dispatch := by
    rw [taken_append, finished_append]
    exact perm_append_of_step hs.dispatch h.dispatch
  replied := by
    rw [replies_append, finished_append]
    exact perm_append_of_step hs.replied h.replied
  flow i := by
    rw [arrived_append, entered_append]
    exact (hs.flow i).trans (h.flow i)

section Ledgers

omit [Store σ]

theorem Ledger.start (o : SessionOptions) (data : TimedStore (Recorded σ)) :
    Ledger o [] { options := o, data, permits := o.maxInflight } where
  options := rfl
  permits := rfl
  readers := .refl _
  queue := rfl
  dispatch := .refl _
  replied := .refl _
  flow _ := .refl

theorem Ledger.underway (hs : Ledger o ds s) :
    (reads ds).Perm (s.held ++ s.requests ++ s.inDispatch ++ finished ds) := by
  have hreaders := hs.readers
  have hdispatch := hs.dispatch
  rw [hs.queue] at hreaders
  rw [List.perm_iff_count] at hreaders hdispatch ⊢
  intro x
  have hreaders := hreaders x
  have hdispatch := hdispatch x
  simp only [List.count_append] at hreaders hdispatch ⊢
  omega

theorem Ledger.permits_eq (hs : Ledger o ds s) :
    s.permits + (s.permitted ++ s.requests ++ s.inDispatch).length = o.maxInflight := by
  have hpermits := hs.permits
  have hqueue := congrArg List.length hs.queue
  have hdispatch := hs.dispatch.length_eq
  simp only [List.length_append] at hqueue hdispatch ⊢
  omega

end Ledgers

/-! ## No one waits in vain -/

/-- Steps of a reader, of the event loop with a request, or of a task. -/
def Event.Forwards : Event → Prop
  | .reader _ | .takeRequest | .task _ => True
  | .outside _ | .stopLoop | .takeDeparture | .quit _ => False

/-- A frame is on its way, or a reader that has not left has a line before it. -/
def HasWork (s : Session σ) : Prop :=
  s.held ++ s.requests ++ s.inDispatch ≠ [] ∨
    ∃ c ∈ s.connections, (∀ x, c.phase ≠ .left x) ∧ (lines c.inbox.unread).1 ≠ []

theorem taskStep_isSome {k : Nat} {x : Task} (h : s.tasks[k]? = some x) :
    (s.taskStep k).isSome := by
  cases x <;> simp [taskStep, h]

omit [Store σ] in
theorem takeRequest_isSome (hgoing : s.Going) (h : s.requests ≠ []) : s.takeRequest.isSome := by
  cases hrequests : s.requests with
  | nil => exact absurd hrequests h
  | cons r rest => simp [takeRequest, hgoing.running, hrequests]

omit [Store σ] in
/-- A reader can go on unless it lacks what its phase asks for. -/
theorem readerStep_isSome {i : Nat} {c : Connection} (hgoing : s.Going)
    (hc : s.connections[i]? = some c) (hleft : ∀ x, c.phase ≠ .left x)
    (hreading : c.phase = .reading → c.inbox.next ≠ .wait)
    (hholding : ∀ f, c.phase = .holding f → s.permits ≠ 0)
    (hpermitted : ∀ f, c.phase = .permitted f → s.requests.length < s.options.queueCapacity) :
    (s.readerStep i).isSome := by
  have hstep : s.readerStep i = s.connectionStep c := by rw [readerStep, hc]; rfl
  rw [hstep, connectionStep]
  cases hphase : c.phase with
  | reading =>
      cases hnext : c.inbox.next with
      | frame f rest => rfl
      | stop x => rfl
      | wait => exact absurd hnext (hreading hphase)
  | holding f => simp [hholding f hphase]
  | permitted f => simp [hgoing.running, hpermitted f hphase]
  | left x => exact absurd hphase (hleft x)

theorem next_ne_wait_of_line {i : Inbox} (h : (lines i.unread).1 ≠ []) : i.next ≠ .wait := by
  intro hwait
  have hshort : front maxFrame i.unread = .short := by
    unfold Inbox.next at hwait
    split at hwait
    · cases hwait
    · cases hwait
    · assumption
  have hfeed := (front_eq_short_iff.mp hshort).2
  rw [lines_of_not_mem hfeed] at h
  exact h rfl

omit [Store σ] in
theorem permitted_eq_nil (h : ∀ c ∈ s.connections, ∀ f, c.phase ≠ .permitted f) :
    s.permitted = [] := by
  refine List.flatMap_eq_nil_iff.mpr fun c hc ↦ ?_
  cases hphase : c.phase with
  | permitted f => exact absurd hphase (h c hc f)
  | reading | holding f | left x => simp [Connection.ready, Connection.permitted, hphase]

omit [Store σ] in
/-- A session that has frames to forward, but none queued and none in dispatch, has a reader that
wants to go on. -/
theorem HasWork.exists_connection (h : s.HasWork) (hrequests : s.requests = [])
    (hdispatch : s.inDispatch = []) :
    ∃ c ∈ s.connections, (∀ x, c.phase ≠ .left x) ∧
      (c.phase = .reading → (lines c.inbox.unread).1 ≠ []) := by
  rcases h with hunderway | ⟨c, hc, hleft, hlines⟩
  · rw [hrequests, hdispatch, List.append_nil, List.append_nil] at hunderway
    obtain ⟨r, hr⟩ := List.exists_mem_of_ne_nil _ hunderway
    obtain ⟨c, hc, hwaiting⟩ := List.mem_flatMap.mp hr
    refine ⟨c, hc, ?_, ?_⟩
    · intro x hphase
      simp [Connection.waiting, Connection.held, hphase] at hwaiting
    · intro hphase
      simp [Connection.waiting, Connection.held, hphase] at hwaiting
  · exact ⟨c, hc, hleft, fun _ ↦ hlines⟩

theorem Ledger.exists_next (hs : Ledger o ds s) (hgoing : s.Going) (hinflight : 1 ≤ o.maxInflight)
    (hcapacity : 1 ≤ o.queueCapacity) (h : s.HasWork) :
    ∃ e : Event, e.Forwards ∧ (e.next s).isSome := by
  by_cases hdispatch : s.inDispatch = []
  · by_cases hrequests : s.requests = []
    · have hroom : s.requests.length < s.options.queueCapacity := by
        rw [hrequests, hs.options, List.length_nil]
        exact hcapacity
      have hpermits := hs.permits_eq
      rw [hrequests, hdispatch, List.append_nil, List.append_nil] at hpermits
      -- a reader with a permit finds room; without such a reader all permits are free
      by_cases hready : ∃ c ∈ s.connections, ∃ f, c.phase = .permitted f
      · obtain ⟨c, hc, f, hphase⟩ := hready
        obtain ⟨i, hi⟩ := List.mem_iff_getElem?.mp hc
        refine ⟨.reader i, trivial, readerStep_isSome hgoing hi ?_ ?_ ?_ fun _ _ ↦ hroom⟩ <;>
          simp [hphase]
      · have hnone : ∀ c ∈ s.connections, ∀ f, c.phase ≠ .permitted f :=
          fun c hc f hphase ↦ hready ⟨c, hc, f, hphase⟩
        rw [permitted_eq_nil hnone] at hpermits
        obtain ⟨c, hc, hleft, hreading⟩ := h.exists_connection hrequests hdispatch
        obtain ⟨i, hi⟩ := List.mem_iff_getElem?.mp hc
        refine ⟨.reader i, trivial, readerStep_isSome hgoing hi hleft ?_ ?_ fun _ _ ↦ hroom⟩
        · exact fun hphase ↦ next_ne_wait_of_line (hreading hphase)
        · intro f _
          rw [List.length_nil] at hpermits
          omega
    · exact ⟨.takeRequest, trivial, takeRequest_isSome hgoing hrequests⟩
  · obtain ⟨r, hr⟩ := List.exists_mem_of_ne_nil _ hdispatch
    obtain ⟨x, hx, -⟩ := List.mem_flatMap.mp hr
    obtain ⟨k, hk⟩ := List.mem_iff_getElem?.mp hx
    exact ⟨.task k, trivial, taskStep_isSome hk⟩

/-- Take a session without a shutdown, with at least one permit and at least one place in its queue,
and let connections, input, readers, the event loop and tasks take their steps in any order.  Then
the permits that are free and those of the frames that are permitted, queued or in dispatch are as
many as at the start; a frame that was read is held by its reader, queued, in dispatch or finished,
and in one of these places only; and the frames of each connection go into the queue in the order of
the lines that came in.  While a frame is unfinished, a reader, the event loop or a task can take a
step. -/
theorem dispatch_conserves (o : SessionOptions) (data : TimedStore (Recorded σ)) (es : List Event)
    (hinflight : 1 ≤ o.maxInflight) (hcapacity : 1 ≤ o.queueCapacity)
    (hopen : data.channel.stopped = false) (hes : ∀ e ∈ es, e.KeepsOn) :
    let after := course es { options := o, data, permits := o.maxInflight }
    let ds := after.1
    let s := after.2
    s.permits + (s.permitted ++ s.requests ++ s.inDispatch).length = o.maxInflight ∧
    (reads ds).Perm (s.held ++ s.requests ++ s.inDispatch ++ finished ds) ∧
    (replies ds).Perm (s.replied ++ finished ds) ∧
    enqueued ds = taken ds ++ s.requests ∧
    (∀ i, (lines (arrived i ds)).1 =
      entered i ds ++ (s.intake i).held ++ (lines (s.intake i).unread).1) ∧
    (s.HasWork → ∃ e : Event, e.Forwards ∧ (e.next s).isSome) := by
  intro after ds s
  have hstart : Going { options := o, data, permits := o.maxInflight } := ⟨rfl, hopen⟩
  obtain ⟨-, hgoing, hledger⟩ := course_induction (P := Ledger o) hes
    (fun _ _ _ _ _ _ _ _ hs h ↦ hs.change h) (by simp [Numbered]) hstart (Ledger.start o data)
  exact ⟨hledger.permits_eq, hledger.underway, hledger.replied, hledger.queue,
    fun i ↦ (hledger.flow i).lines_eq, hledger.exists_next hgoing hinflight hcapacity⟩

/-- Two clients share one permit and one place in the queue.  The reader of the second finds no
permit, and someone else can go on. -/
theorem two_clients_share_permit :
    let o : SessionOptions := { queueCapacity := 1, maxInflight := 1 }
    let es : List Event :=
      [.outside (.connect "a" .sound), .outside (.connect "b" .sound),
        .outside (.send 0 (bytesOf "GET x\nGET y\n")), .outside (.send 1 (bytesOf "GET z\n")),
        .reader 0, .reader 1, .reader 0, .reader 1, .reader 0, .reader 0, .takeRequest, .task 0]
    let after := course es
      { options := o, data := { store := { store := ({} : Memory) } }, permits := o.maxInflight }
    after.2.permits = 0 ∧ after.2.held.map Request.payload = [bytesOf "GET y\n", bytesOf "GET z\n"] ∧
      after.2.requests = [] ∧ after.2.inDispatch.length = 1 ∧ (reads after.1).length = 3 ∧
      (lines (arrived 0 after.1)).1 = [bytesOf "GET x\n", bytesOf "GET y\n"] ∧
      ∃ e : Event, e.Forwards ∧ (e.next after.2).isSome := by
  intro o es after
  obtain ⟨hpermits, hplaces, -, -, hlines, hnext⟩ :=
    dispatch_conserves o { store := { store := ({} : Memory) } } es (by decide) (by decide) rfl
      (by decide)
  have hwork : after.2.HasWork := .inl (by decide +kernel)
  refine ⟨by decide +kernel, by decide +kernel, by decide +kernel, by decide +kernel, ?_, ?_,
    hnext hwork⟩
  · exact hplaces.length_eq.trans (by decide +kernel)
  · exact (hlines 0).trans (by decide +kernel)

end Session

end KvServer
