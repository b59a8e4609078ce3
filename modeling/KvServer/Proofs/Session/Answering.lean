import KvServer.Proofs.Session.Conservation
import KvServer.Proofs.Session.Membership
import KvServer.Proofs.Session.Refinement

/-!
# What a client hears before it sees the end

A reader closes its connection as soon as its input ends, or is too long, and it does not ask what
became of the frames that it has put into the queue.  Replies to them that come later are lost.  So
the peer has the replies to those of its frames that have been answered when the reader leaves, and
no others will come (`replies_at_close`).
-/

namespace KvServer

open Text

/-- The frames of an input do not depend on how it ends. -/
theorem framing_fst_congr (bs : Bytes) (e e' : InputEnd) :
    (framing bs e).1 = (framing bs e').1 := by
  unfold framing
  split <;> rfl

/-- A reader stops where no frame begins, however the input goes on. -/
theorem framing_eq_nil_of_stop {i : Inbox} {x : Ending} (h : i.next = .stop x) (e : InputEnd) :
    (framing i.unread e).1 = [] := by
  rcases Inbox.next_eq_stop h with ⟨-, hlong⟩ | ⟨e', hended, -⟩
  · have hstop : Inbox.next ⟨i.unread, some e⟩ = .stop .frameTooLong := Inbox.next_of_overlong hlong
    exact congrArg Prod.fst (framing_of_stop (i := ⟨i.unread, some e⟩) rfl hstop)
  · rw [framing_fst_congr _ e e', framing_of_stop hended h]

/-- The request that a task has not answered yet. -/
def Task.pending : Task → List Request
  | .reply r => [r]
  | .finish _ | .revoke _ => []

theorem Task.request_eq (t : Task) : t.request = t.pending ++ t.answered := by
  cases t <;> rfl

namespace Session

section Frames

variable {σ : Type}

/-- The frames of one client among some requests. -/
def framesOf (i : Nat) (rs : List Request) : List Bytes :=
  rs.filterMap fun r ↦ if r.client.id = i then some r.payload else none

/-- The requests that readers have put into the queue and that have no reply yet. -/
def pending (s : Session σ) : List Request := s.requests ++ s.tasks.flatMap Task.pending

/-- The frames of a client that its reader has put into the queue and that have no reply yet. -/
def unanswered (i : Nat) (s : Session σ) : List Bytes := framesOf i s.pending

/-- Whether a reply to a connection reaches its peer.  A connection that is still to come hears. -/
def hears (i : Nat) (s : Session σ) : Bool := s.connections[i]?.all Connection.hears

theorem inDispatch_perm (s : Session σ) :
    s.inDispatch.Perm (s.tasks.flatMap Task.pending ++ s.replied) := by
  rw [inDispatch, funext Task.request_eq]
  exact (List.flatMap_append_perm _ _ _).symm

end Frames

namespace Deed

/-- The frames of a client that have been answered, each with its reply. -/
def answersTo (i : Nat) (ds : List Deed) : List (Bytes × Reply) :=
  ds.filterMap fun
    | .reply r a => if r.client.id = i then some (r.payload, a) else none
    | _ => none

variable {i : Nat}

@[simp] theorem answersTo_append (ds new : List Deed) :
    answersTo i (ds ++ new) = answersTo i ds ++ answersTo i new :=
  List.filterMap_append

theorem answersTo_eq_nil {ds : List Deed} (h : ∀ r a, .reply r a ∈ ds → r.client.id ≠ i) :
    answersTo i ds = [] := by
  refine List.filterMap_eq_nil_iff.mpr fun d hd ↦ ?_
  cases d with
  | reply r a => exact if_neg (h r a hd)
  | arrive | read | enqueue | take | finish | depart | revoke => rfl

theorem entered_eq_framesOf (ds : List Deed) : entered i ds = framesOf i (enqueued ds) := by
  rw [framesOf, enqueued, List.filterMap_filterMap, entered]
  congr 1
  funext d
  cases d <;> rfl

theorem map_fst_answersTo (ds : List Deed) :
    (answersTo i ds).map Prod.fst = framesOf i (replies ds) := by
  rw [framesOf, replies, List.filterMap_filterMap, answersTo, List.map_filterMap]
  congr 1
  funext d
  cases d with
  | reply r a => by_cases h : r.client.id = i <;> simp [h]
  | arrive | read | enqueue | take | finish | depart | revoke => rfl

end Deed

open Deed

variable {σ : Type} [Store σ] {s s' : Session (Recorded σ)} {e : Event} {ds new : List Deed}
  {o : SessionOptions} {i : Nat}

/-! ## Nothing is answered twice -/

section Ledgers

omit [Store σ]

/-- What has gone into the queue has its reply or is still to be answered. -/
theorem Ledger.enqueued_perm (hs : Ledger o ds s) :
    (enqueued ds).Perm (replies ds ++ s.pending) := by
  have hdispatch := hs.dispatch.trans (s.inDispatch_perm.append_right _)
  have hreplied := hs.replied
  rw [hs.queue]
  rw [List.perm_iff_count] at hdispatch hreplied ⊢
  intro x
  have hdispatch := hdispatch x
  have hreplied := hreplied x
  simp only [List.count_append, pending] at hdispatch hreplied ⊢
  omega

/-- The frames of a reader that has no frame in hand and none before it have their reply or are
still to be answered. -/
theorem Ledger.frames_perm (hs : Ledger o ds s) {c : Connection} {x : Ending}
    (hc : s.connections[i]? = some c) (hphase : c.phase = .reading) (hnext : c.inbox.next = .stop x)
    (e : InputEnd) :
    (framing (arrived i ds) e).1.Perm ((answersTo i ds).map Prod.fst ++ s.unanswered i) := by
  have hflow := hs.flow i
  have hintake : s.intake i = ⟨[], c.inbox.unread⟩ := by
    simp [intake, hc, Connection.intake, Connection.held, hphase]
  rw [hintake] at hflow
  have hframes := hflow.frames (by simp)
  have hbytes : arrived i ds = (entered i ds).flatten ++ c.inbox.unread := by
    simpa using hflow.bytes
  rw [List.append_nil] at hframes
  rw [hbytes, framing_flatten_append hframes, framing_eq_nil_of_stop hnext, List.append_nil,
    entered_eq_framesOf, map_fst_answersTo, unanswered, framesOf, framesOf, framesOf,
    ← List.filterMap_append]
  exact hs.enqueued_perm.filterMap _

end Ledgers

/-! ## What reaches a peer -/

section Hearing

omit [Store σ]

variable {j : Nat} {c : Connection} {f : Connection → Connection}

theorem hears_of_modify (hs' : s'.connections = s.connections.modify j f)
    (hf : ∀ c, s.connections[j]? = some c → (f c).hears = true → c.hears = true)
    (h : s'.hears i = true) : s.hears i = true := by
  rw [hears, hs', List.getElem?_modify] at h
  rw [hears]
  by_cases hji : j = i
  · subst hji
    cases hc : s.connections[j]? with
    | none => rfl
    | some c =>
        rw [hc] at h
        exact hf c hc (by simpa using h)
  · simpa [hji] using h

@[simp] theorem hears_deliver (r : Reply) (c : Connection) : (c.deliver r).hears = c.hears := by
  unfold Connection.deliver
  split <;> rfl

theorem replies_deliver (r : Reply) (c : Connection) :
    (c.deliver r).replies = if c.hears then r :: c.replies else c.replies := by
  rw [Connection.deliver, Connection.hears]
  split <;> rfl

theorem repliesOf_of_modify (hs' : s'.connections = s.connections.modify j f)
    (hf : ∀ d, (f d).replies = d.replies) : s'.repliesOf i = s.repliesOf i :=
  (repliesOf_congr (s := s.update j f) hs' i).trans (repliesOf_update hf i)

@[simp] theorem replies_newConnection (client : Client) (m : Medium) :
    (newConnection client m).replies = [] := by
  cases m <;> rfl

theorem answersTo_arrivals (bytes : Bytes) : answersTo i (arrivals j bytes) = [] :=
  answersTo_eq_nil fun _ _ h ↦ nomatch eq_arrive_of_mem_arrivals h

/-- A connection that has just been made has no replies, as one that is still to come. -/
theorem repliesOf_of_append {c : Connection} (hs' : s'.connections = s.connections ++ [c])
    (hc : c.replies = []) : s'.repliesOf i = s.repliesOf i := by
  rw [repliesOf, repliesOf, hs', List.getElem?_append]
  split
  · rfl
  · rename_i hi
    rw [List.getElem?_eq_none (Nat.le_of_not_lt hi)]
    cases h : [c][i - s.connections.length]? with
    | none => rfl
    | some d =>
        obtain rfl := List.mem_singleton.mp (List.mem_of_getElem? h)
        simp [hc]

end Hearing

/-- A peer that does not hear will not hear again. -/
theorem Change.hears (h : Change s e new s') (hheard : s'.hears i = true) : s.hears i = true := by
  cases h with
  | idle | unregister | advance | tamper | takeRequest | takeDeparture | finish | revoke =>
      exact hheard
  | connect client m =>
      rw [Session.hears, List.getElem?_append] at hheard
      split at hheard
      · exact hheard
      · rename_i hi
        rw [Session.hears, List.getElem?_eq_none (Nat.le_of_not_lt hi)]
        rfl
  | input bytes hc hclient hphase hunread hreplies hhears =>
      exact hears_of_modify rfl (fun c _ ↦ hhears c) hheard
  | hold hc hphase | permit hc hphase | enqueue hc hphase | leave hc hphase =>
      refine hears_of_modify rfl ?_ hheard
      intro d hd
      cases hc.symm.trans hd
      simp [Connection.hears, Connection.isClosed, hphase]
  | reply =>
      refine hears_of_modify rfl ?_ hheard
      intro d _ hd
      rwa [hears_deliver] at hd

/-- What reaches a peer in a change is the reply to its own frame, as long as it hears. -/
theorem Change.repliesOf (h : Change s e new s') (hs : Membership ds s) :
    s'.repliesOf i = s.repliesOf i ++ if s.hears i then (answersTo i new).map Prod.snd else [] := by
  cases h with
  | idle | unregister | advance | tamper | takeRequest | takeDeparture | finish | revoke =>
      simp [answersTo, Session.repliesOf, release]
  | connect client m =>
      rw [answersTo_arrivals, repliesOf_of_append rfl (replies_newConnection _ _)]
      simp
  | input bytes hc hclient hphase hunread hreplies =>
      rw [answersTo_arrivals, repliesOf_update hreplies]
      simp
  | hold | permit | enqueue | leave =>
      refine (repliesOf_of_modify (s := s) rfl ?_).trans ?_
      · exact fun _ ↦ rfl
      · simp [answersTo]
  | @reply _ k r htask =>
      have hknown : s.Knows r.client :=
        hs.tasks _ (List.mem_of_getElem? htask) r List.mem_cons_self
      obtain ⟨c, hc, -⟩ := hknown.exists_connection
      let a := (Dispatch.execute s.options.secret r.client.identity r.payload s.data).1
      change Session.repliesOf i (s.update r.client.id (·.deliver a)) = _
      by_cases hi : r.client.id = i
      · subst hi
        rw [repliesOf_update_self hc, replies_deliver, Session.repliesOf, Session.hears, hc]
        by_cases hhears : c.hears = true <;> simp [answersTo, hhears, a]
      · rw [repliesOf_update_ne hi]
        simp [answersTo, hi]

/-- What is known of the frames and the replies of a course. -/
structure Answering (o : SessionOptions) (ds : List Deed) (s : Session (Recorded σ)) : Prop where
  ledger : Ledger o ds s
  membership : Membership ds s
  /-- A peer that hears has the replies to all its frames that have been answered. -/
  heard : ∀ i, s.hears i = true → s.repliesOf i = (answersTo i ds).map Prod.snd

theorem Answering.change (hs : Answering o ds s) (hnumbered : s.Numbered) (h : Change s e new s') :
    Answering o (ds ++ new) s' where
  ledger := hs.ledger.change h
  membership := hs.membership.change hnumbered h
  heard i hhears := by
    have hbefore := h.hears hhears
    rw [h.repliesOf hs.membership, if_pos hbefore, hs.heard i hbefore, answersTo_append,
      List.map_append]

omit [Store σ] in
theorem Answering.start (o : SessionOptions) (data : TimedStore (Recorded σ)) :
    Answering o [] { options := o, data, permits := o.maxInflight } where
  ledger := .start o data
  membership := .start o data
  heard _ _ := rfl

/-- Once a peer does not hear, no reply reaches it for the rest of a course. -/
theorem repliesOf_course_of_deaf {es : List Event} (hes : ∀ e ∈ es, e.KeepsOn)
    (hnumbered : s.Numbered) (hgoing : s.Going) (hs : Membership ds s) (hdeaf : s.hears i = false) :
    (course es s).2.repliesOf i = s.repliesOf i := by
  refine (course_induction
    (P := fun ds t ↦ Membership ds t ∧ t.hears i = false ∧ t.repliesOf i = s.repliesOf i) hes
    ?_ hnumbered hgoing ⟨hs, hdeaf, rfl⟩).2.2.2.2
  rintro ds t new t' e - hnumbered - ⟨ht, hdeaf, hsame⟩ h
  refine ⟨ht.change hnumbered h, ?_, ?_⟩
  · rw [Bool.eq_false_iff] at hdeaf ⊢
    exact mt h.hears hdeaf
  · rw [h.repliesOf ht, hdeaf, hsame]
    simp

omit [Store σ] in
/-- A reader that closes its connection stops there. -/
theorem stop_of_close {c : Connection} (hgoing : s.Going)
    (hc : s.connections[c.client.id]? = some c) (hstep : s.readerStep c.client.id = some s')
    (hclosed : s'.connections[c.client.id]?.any Connection.isClosed = true) :
    ∃ x, c.phase = .reading ∧ c.inbox.next = .stop x ∧
      s'.connections[c.client.id]? = some { c with phase := .left x } := by
  obtain ⟨c', frames, hturn, hc', -⟩ := exists_turn hgoing hc hstep
  rw [hc'] at hclosed
  cases hturn with
  | hold | permit | enqueue => cases hclosed
  | leave hphase hnext => exact ⟨_, hphase, hnext, hc'⟩

/-- Let a session without a shutdown take its steps in any order up to the moment at which the
reader of a peer that reads, and can be written to, closes its connection.  The frames that the
peer has sent until then are those that have been answered and those that have not, and it has
the replies to the former and will get no other.  So it gets one reply to each of its frames
exactly if none of them is still in the queue or with a task that has not replied when the reader
leaves. -/
theorem replies_at_close (o : SessionOptions) (data : TimedStore (Recorded σ))
    {es later : List Event} {c : Connection} (hopen : data.channel.stopped = false)
    (hes : ∀ e ∈ es, e.KeepsOn) (hlater : ∀ e ∈ later, e.KeepsOn)
    (hcourse : course es { options := o, data, permits := o.maxInflight } = (ds, s))
    (hc : s.connections[i]? = some c) (hwritable : c.writable = true) (hpresent : c.present = true)
    (hstep : s.readerStep i = some s')
    (hclosed : s'.connections[i]?.any Connection.isClosed = true) :
    let frames := (framing (arrived i ds) .closed).1
    frames.Perm ((answersTo i ds).map Prod.fst ++ s.unanswered i) ∧
    s'.repliesOf i = (answersTo i ds).map Prod.snd ∧
    (course later s').2.repliesOf i = s'.repliesOf i ∧
    ((s'.repliesOf i).length = frames.length ↔ s.unanswered i = []) := by
  intro frames
  have hstart : Going { options := o, data, permits := o.maxInflight } := ⟨rfl, hopen⟩
  obtain ⟨hnumbered, hgoing, hs⟩ := course_induction (P := Answering o) hes
    (fun _ _ _ _ _ _ hnumbered _ hs h ↦ hs.change hnumbered h) (by simp [Numbered]) hstart
    (.start o data)
  rw [hcourse] at hnumbered hgoing hs
  obtain rfl := hnumbered i c hc
  obtain ⟨x, hphase, hnext, hc'⟩ := stop_of_close hgoing hc hstep hclosed
  have hperm : frames.Perm ((answersTo c.client.id ds).map Prod.fst ++ s.unanswered c.client.id) :=
    hs.ledger.frames_perm hc hphase hnext .closed
  have hheard : s.repliesOf c.client.id = (answersTo c.client.id ds).map Prod.snd := by
    apply hs.heard
    simp [hears, hc, Connection.hears, Connection.isClosed, hphase, hwritable, hpresent]
  have hreplies : s'.repliesOf c.client.id = (answersTo c.client.id ds).map Prod.snd := by
    rw [← hheard, repliesOf, repliesOf, hc, hc']
    rfl
  have hchange := change_of_reader hnumbered hgoing hstep
  refine ⟨hperm, hreplies, ?_, ?_⟩
  · apply repliesOf_course_of_deaf hlater (hchange.numbered hnumbered) (hchange.going hgoing)
      (hs.membership.change hnumbered hchange)
    simp [hears, hc', Connection.hears, Connection.isClosed]
  · rw [hreplies, hperm.length_eq, List.length_append, List.length_map, List.length_map,
      ← List.length_eq_zero_iff]
    omega

/-- A peer sends two frames and the end of its input.  The first has its reply and the second a task
when the reader leaves, and the reply to the second is lost. -/
theorem reply_to_second_frame_lost :
    let o : SessionOptions := {}
    let data : TimedStore (Recorded Memory) := { store := { store := {} } }
    let es : List Event :=
      [.outside (.connect "a" .sound), .outside (.send 0 (bytesOf "GET x\nGET y\n")),
        .outside (.finish 0), .reader 0, .reader 0, .reader 0, .takeRequest, .task 0, .task 0,
        .reader 0, .reader 0, .reader 0, .takeRequest]
    let after := course es { options := o, data, permits := o.maxInflight }
    let frames := (framing (arrived 0 after.1) .closed).1
    ∃ s', after.2.readerStep 0 = some s' ∧ after.2.unanswered 0 = [bytesOf "GET y\n"] ∧
      frames.Perm [bytesOf "GET x\n", bytesOf "GET y\n"] ∧
      (course [.task 0] s').2.repliesOf 0 = [.error] ∧
      (s'.repliesOf 0).length ≠ frames.length := by
  intro o data es after frames
  have hlast : (after.2.readerStep 0).any (·.connections[0]?.any Connection.isClosed) = true := by
    decide +kernel
  have hpeer : after.2.connections[0]?.any (fun c ↦ c.writable && c.present) = true := by
    decide +kernel
  have hanswers : answersTo 0 after.1 = [(bytesOf "GET x\n", .error)] := by decide +kernel
  have hunanswered : after.2.unanswered 0 = [bytesOf "GET y\n"] := by decide +kernel
  obtain ⟨s', hstep, hclosed⟩ := (Option.any_eq_true _ _).mp hlast
  obtain ⟨c, hc, hhears⟩ := (Option.any_eq_true _ _).mp hpeer
  obtain ⟨hwritable, hpresent⟩ := Bool.and_eq_true_iff.mp hhears
  have hes : ∀ e ∈ es, e.KeepsOn := by decide
  have hlater : ∀ e ∈ [.task 0], Event.KeepsOn e := by decide
  obtain ⟨hframes, hreplies, hsame, hall⟩ := replies_at_close o data rfl hes hlater
    (Prod.eta _).symm hc hwritable hpresent hstep hclosed
  rw [hanswers] at hreplies
  rw [hanswers, hunanswered] at hframes
  refine ⟨s', hstep, hunanswered, hframes, hsame.trans hreplies, fun hlength ↦ ?_⟩
  rw [hall.mp hlength] at hunanswered
  cases hunanswered

/-- A peer sends a frame and the end of its input, and hears nothing. -/
theorem only_frame_unanswered :
    let o : SessionOptions := {}
    let es : List Event :=
      [.outside (.connect "a" .sound), .outside (.send 0 (bytesOf "GET k\n")), .outside (.finish 0),
        .reader 0, .reader 0, .reader 0, .reader 0, .takeRequest, .task 0, .task 0]
    let after := course es
      { options := o, data := { store := { store := ({} : Memory) } }, permits := o.maxInflight }
    (∀ e ∈ es, e.KeepsOn) ∧ (framing (arrived 0 after.1) .closed).1 = [bytesOf "GET k\n"] ∧
      (∀ c ∈ after.2.connections, c.writable = true ∧ c.present = true ∧ c.isClosed = true) ∧
      after.2.requests = [] ∧ after.2.tasks = [] ∧ after.2.repliesOf 0 = [] := by
  decide +kernel

end Session

end KvServer
