import KvServer.Proofs.Session.Reading
import KvServer.Proofs.Session.Rest

/-!
# Courses of a session

In a course things happen to a session in any order: peers, time and the operator do something, or
the event loop, a reader or a task takes a step.  `course` notes what was done on the way, by what
can be seen of it.  While there is no shutdown, `Change` says all that one event can do, and
`course_induction` carries what every change keeps through a whole course.  A run of a script is a
course in which everyone takes all the steps he can before the next line (`exists_course`).
-/

namespace KvServer

open Text

/-- To modify one entry changes nothing that the modification keeps. -/
theorem map_modify_of_eq {α β : Type} {g : α → β} {f : α → α} (h : ∀ a, g (f a) = g a)
    (as : List α) (i : Nat) : (as.modify i f).map g = as.map g := by
  apply List.ext_getElem?
  intro j
  rw [List.getElem?_map, List.getElem?_map, List.getElem?_modify]
  by_cases hj : i = j
  · cases as[j]? <;> simp [hj, h]
  · simp [hj]

/-- Whether a reply to a connection reaches its peer. -/
def Connection.hears (c : Connection) : Bool := c.writable && c.present && !c.isClosed

/-- The request that a task is about. -/
def Task.request : Task → List Request
  | .reply r | .finish r => [r]
  | .revoke _ => []

namespace Session

inductive Event
  /-- Peers, time or the operator do something. -/
  | outside (st : Step)
  | stopLoop
  | takeRequest
  | takeDeparture
  | reader (i : Nat)
  /-- A reader notices the shutdown. -/
  | quit (i : Nat)
  | task (k : Nat)
deriving DecidableEq, Repr

inductive Deed
  /-- Bytes have come in for a connection. -/
  | arrive (i : Nat) (bytes : Bytes)
  /-- A reader has taken a frame off its input. -/
  | read (r : Request)
  | enqueue (r : Request)
  /-- The event loop has taken a request off the queue. -/
  | take (r : Request)
  | reply (r : Request) (a : Reply)
  | finish (r : Request)
  /-- The event loop has taken the departure of a client. -/
  | depart (client : Client)
  | revoke (identity : String)
deriving DecidableEq, Repr

/-- What comes from outside among some events. -/
def script (es : List Event) : List Step :=
  es.filterMap fun
    | .outside st => some st
    | _ => none

theorem script_append (es later : List Event) : script (es ++ later) = script es ++ script later :=
  List.filterMap_append

theorem mem_script {es : List Event} {st : Step} : st ∈ script es ↔ .outside st ∈ es := by
  simp only [script, List.mem_filterMap]
  constructor
  · rintro ⟨e, he, hst⟩
    cases e with
    | outside st' => cases hst; exact he
    | stopLoop | takeRequest | takeDeparture | reader | quit | task => cases hst
  · exact fun h ↦ ⟨_, h, rfl⟩

theorem script_cons_eq_nil {e : Event} {es : List Event} (h : script (e :: es) = []) :
    (∀ st, e ≠ .outside st) ∧ script es = [] := by
  constructor
  · rintro st rfl
    cases h
  · cases e with
    | outside st => cases h
    | stopLoop | takeRequest | takeDeparture | reader | quit | task => exact h

variable {σ : Type}

/-- The note of some bytes that have come in, if there are any. -/
def arrivals (i : Nat) : Bytes → List Deed
  | [] => []
  | b :: bs => [.arrive i (b :: bs)]

theorem eq_arrive_of_mem_arrivals {i : Nat} {bytes : Bytes} {d : Deed} (h : d ∈ arrivals i bytes) :
    d = .arrive i bytes := by
  cases bytes with
  | nil => cases h
  | cons b bs => exact List.mem_singleton.mp h

/-- What comes in with a step from outside. -/
def Step.arrivals (s : Session σ) : Step → List Deed
  | .connect identity m =>
      if s.running then
        let n := s.connections.length
        Session.arrivals n (newConnection ⟨n, identity⟩ m).inbox.unread
      else []
  | .send i bytes | .vanish i bytes =>
      if s.connections[i]?.any Connection.canSend then Session.arrivals i bytes else []
  | .finish _ | .unregister _ | .advance _ | .wait | .signal _ | .fault .. | .direct _ => []

/-- The frame that a reader has taken between two states of its connection. -/
def Connection.readSince (before after : Connection) : List Deed :=
  match before.phase, after.phase with
  | .reading, .holding f => [.read ⟨before.client, f⟩]
  | _, _ => []

/-- What a reader has done between two states of its session. -/
def readerDeeds (i : Nat) (s s' : Session σ) : List Deed :=
  let taken := match s.connections[i]?, s'.connections[i]? with
    | some before, some after => Connection.readSince before after
    | _, _ => []
  taken ++ (s'.requests.drop s.requests.length).map .enqueue

variable [Store σ]

namespace Event

/-- What comes of an event that can happen. -/
def next (s : Session (Recorded σ)) : Event → Option (Session (Recorded σ))
  | .outside st => some (s.act st).2
  | .stopLoop => s.stopLoop
  | .takeRequest => s.takeRequest
  | .takeDeparture => s.takeDeparture
  | .reader i => s.readerStep i
  | .quit i => s.readerQuit i
  | .task k => s.taskStep k

/-- What an event has done between two states. -/
def deeds (s s' : Session (Recorded σ)) : Event → List Deed
  | .outside st => st.arrivals s
  | .stopLoop | .quit _ => []
  | .takeRequest => (s.requests.take 1).map .take
  | .takeDeparture => (s.departures.take 1).map .depart
  | .reader i => readerDeeds i s s'
  | .task k =>
      match s.tasks[k]? with
      | some (.reply r) =>
          [.reply r (Dispatch.execute s.options.secret r.client.identity r.payload s.data).1]
      | some (.finish r) => [.finish r]
      | some (.revoke identity) => [.revoke identity]
      | none => []

end Event

/-- What is done in the course of some events, and the state that they leave.  An event that cannot
happen is passed over. -/
def course : List Event → Session (Recorded σ) → List Deed × Session (Recorded σ)
  | [], s => ([], s)
  | e :: es, s =>
      match e.next s with
      | none => course es s
      | some s' =>
          let (ds, t) := course es s'
          (e.deeds s s' ++ ds, t)

/-! ## What an event can do -/

/-- Not a shutdown. -/
def Event.KeepsOn (e : Event) : Prop :=
  e ≠ .outside (.signal .stop) ∧ e ≠ .outside (.signal .detach)

instance : DecidablePred Event.KeepsOn := fun _ ↦ inferInstanceAs (Decidable (_ ∧ _))

/-- Steps that reach for the store or the shutdown channel past the dispatcher. -/
def Step.Tampers : Step → Prop
  | .signal _ | .fault .. | .direct _ => True
  | .connect .. | .send .. | .finish _ | .vanish .. | .unregister _ | .advance _ | .wait => False

/-- The task, if any, that the departure of a client gives. -/
def revocations (client : Client) (s : Session σ) : List Task :=
  if (s.registry.remove client.id).1.isSome && s.options.revokeOnDisconnect &&
      s.options.secret.isSome then [.revoke client.identity]
  else []

omit [Store σ] in
theorem unregister_eq_revocations (client : Client) (s : Session σ) :
    s.unregister client =
      { s with
        registry := (s.registry.remove client.id).2
        tasks := s.tasks ++ s.revocations client } := by
  rw [unregister_eq, revocations]
  split <;> simp

omit [Store σ] in
@[simp] theorem request_revocations (client : Client) (s : Session σ) :
    (s.revocations client).flatMap Task.request = [] := by
  unfold revocations
  split <;> rfl

/-- What an event can do to a session while there is no shutdown, with the deeds noted. -/
inductive Change (s : Session (Recorded σ)) : Event → List Deed → Session (Recorded σ) → Prop
  | idle {e : Event} : Change s e [] s
  | connect {e : Event} (client : Client) (m : Medium) (hid : client.id = s.connections.length) :
      Change s e (arrivals client.id (newConnection client m).inbox.unread)
        { s with
          registry := (s.registry.enroll client).2
          connections := s.connections ++ [newConnection client m] }
  | input {e : Event} {i : Nat} (bytes : Bytes) {c : Connection} {f : Connection → Connection}
      (hc : s.connections[i]? = some c) (hclient : ∀ d, (f d).client = d.client)
      (hphase : ∀ d, (f d).phase = d.phase) (hunread : (f c).inbox.unread = c.inbox.unread ++ bytes)
      (hreplies : ∀ d, (f d).replies = d.replies) (hhears : ∀ d, (f d).hears = true → d.hears = true) :
      Change s e (arrivals i bytes) (s.update i f)
  | unregister {e : Event} {i : Nat} {c : Connection} (hc : s.connections[i]? = some c) :
      Change s e [] { s with departures := s.departures ++ [c.client] }
  | advance {e : Event} (ms : Nat) : Change s e [] { s with data := s.data.advance ms }
  | tamper {st : Step} {data : TimedStore (Recorded σ)} (hst : st.Tampers)
      (hopen : data.channel.stopped = false) : Change s (.outside st) [] { s with data }
  | takeRequest {e : Event} {r : Request} {rest : List Request} (hrequests : s.requests = r :: rest) :
      Change s e [.take r] { s with requests := rest, tasks := s.tasks ++ [.reply r] }
  | takeDeparture {e : Event} {client : Client} {rest : List Client}
      (hdepartures : s.departures = client :: rest) :
      Change s e [.depart client]
        { s with
          registry := (s.registry.remove client.id).2
          departures := rest
          tasks := s.tasks ++ s.revocations client }
  | hold {e : Event} {c : Connection} {f : Bytes} {rest : Inbox}
      (hc : s.connections[c.client.id]? = some c) (hphase : c.phase = .reading)
      (hnext : c.inbox.next = .frame f rest) :
      Change s e [.read ⟨c.client, f⟩]
        (s.update c.client.id fun c ↦ { c with phase := .holding f, inbox := rest })
  | permit {e : Event} {c : Connection} {f : Bytes} (hc : s.connections[c.client.id]? = some c)
      (hphase : c.phase = .holding f) (hpermits : s.permits ≠ 0) :
      Change s e []
        ({ s with permits := s.permits - 1 }.update c.client.id
          fun c ↦ { c with phase := .permitted f })
  | enqueue {e : Event} {c : Connection} {f : Bytes} (hc : s.connections[c.client.id]? = some c)
      (hphase : c.phase = .permitted f) :
      Change s e [.enqueue ⟨c.client, f⟩]
        ((s.enqueue ⟨c.client, f⟩).update c.client.id fun c ↦ { c with phase := .reading })
  | leave {e : Event} {c : Connection} {x : Ending} (hc : s.connections[c.client.id]? = some c)
      (hphase : c.phase = .reading) (hnext : c.inbox.next = .stop x) :
      Change s e []
        { s.update c.client.id fun c ↦ { c with phase := .left x } with
          departures := s.departures ++ [c.client] }
  | reply {e : Event} {k : Nat} {r : Request} (htask : s.tasks[k]? = some (.reply r)) :
      Change s e
        [.reply r (Dispatch.execute s.options.secret r.client.identity r.payload s.data).1]
        { s.answer r with tasks := s.tasks.set k (.finish r) }
  | finish {e : Event} {k : Nat} {r : Request} (htask : s.tasks[k]? = some (.finish r)) :
      Change s e [.finish r] { s.release with tasks := s.tasks.eraseIdx k }
  | revoke {e : Event} {k : Nat} {identity : String}
      (htask : s.tasks[k]? = some (.revoke identity)) :
      Change s e [.revoke identity]
        { s with
          data := Dispatch.revoke s.options.secret identity s.data
          tasks := s.tasks.eraseIdx k }

variable {s s' t : Session (Recorded σ)} {e : Event} {ds : List Deed}

omit [Store σ] in
theorem update_eq_self {i : Nat} (h : s.connections[i]? = none) (f : Connection → Connection) :
    s.update i f = s := by
  rw [update, List.modify_eq_self (List.getElem?_eq_none_iff.mp h)]

theorem change_of_act (hgoing : s.Going) {st : Step} (hst : Event.KeepsOn (.outside st)) :
    Change s (.outside st) (st.arrivals s) (s.act st).2 := by
  have hopen : s.data.channel.stopped = false := hgoing.opened
  cases st with
  | connect identity m =>
      have hid : (⟨s.connections.length, identity⟩ : Client).id = s.connections.length := rfl
      have hnext : (s.connect identity m).2 =
          { s with
            registry := (s.registry.enroll ⟨s.connections.length, identity⟩).2
            connections := s.connections ++ [newConnection ⟨s.connections.length, identity⟩ m] } := by
        simp [Session.connect, hgoing.running]
      rw [Step.arrivals, if_pos hgoing.running, act, hnext]
      exact .connect _ m hid
  | send i bytes =>
      cases hc : s.connections[i]? with
      | none =>
          simp only [Step.arrivals, act, hc, Option.any_none]
          exact .idle
      | some c =>
          by_cases hcan : Connection.canSend c
          · simp only [Step.arrivals, act, hc, Option.any_some, hcan, if_true]
            exact .input bytes hc (fun _ ↦ rfl) (fun _ ↦ rfl) rfl (fun _ ↦ rfl) fun _ ↦ id
          · simp only [Step.arrivals, act, hc, Option.any_some, hcan]
            exact .idle
  | finish i =>
      cases hc : s.connections[i]? with
      | none =>
          rw [act, update_eq_self hc]
          exact .idle
      | some c =>
          exact .input [] hc (fun _ ↦ rfl) (fun _ ↦ rfl) (by simp) (fun _ ↦ rfl) fun _ ↦ id
  | vanish i bytes =>
      cases hc : s.connections[i]? with
      | none =>
          rw [act, update_eq_self hc, Step.arrivals, hc]
          exact .idle
      | some c =>
          by_cases hcan : Connection.canSend c
          · simp only [Step.arrivals, act, hc, Option.any_some, hcan, if_true]
            exact .input bytes hc (fun _ ↦ rfl) (fun _ ↦ rfl) (by simp [hcan, Inbox.receive])
              (fun _ ↦ rfl) (by simp [Connection.hears])
          · simp only [Step.arrivals, act, hc, Option.any_some, hcan]
            exact .input [] hc (fun _ ↦ rfl) (fun _ ↦ rfl) (by simp [hcan]) (fun _ ↦ rfl)
              (by simp [Connection.hears])
  | unregister i =>
      cases hc : s.connections[i]? with
      | none =>
          have hsame : (s.reportDeparture i).2 = s := by simp [reportDeparture, hc]
          rw [act, hsame]
          exact .idle
      | some c =>
          have hnext : (s.reportDeparture i).2 =
              { s with departures := s.departures ++ [c.client] } := by
            simp [reportDeparture, hc, hgoing.running]
          rw [act, hnext]
          exact .unregister hc
  | advance ms => exact .advance ms
  | wait => exact .idle
  | signal sig =>
      refine .tamper trivial ?_
      cases sig with
      | stop => exact absurd rfl hst.1
      | detach => exact absurd rfl hst.2
      | resume =>
          have hvalue : s.data.channel.attached = true := by
            simpa [Channel.stopped] using (Bool.or_eq_false_iff.mp hopen).2
          simp [TimedStore.signal, Channel.after, Channel.stopped, hvalue]
  | fault kind error? => exact .tamper trivial hopen
  | direct c => exact .tamper trivial hopen

theorem change_of_reader (hnumbered : s.Numbered) (hgoing : s.Going) {i : Nat}
    (h : s.readerStep i = some s') : Change s (.reader i) (readerDeeds i s s') s' := by
  obtain ⟨c, hc, hmove⟩ := readerStep_eq_some h
  obtain rfl := hnumbered i c hc
  cases hmove with
  | leave x hphase hwhy =>
      rcases hwhy with hstop | ⟨hreading, hnext⟩
      · rw [hgoing.opened] at hstop
        cases hstop
      · have hdeeds : readerDeeds c.client.id s (s.leave c.client x) = [] := by
          simp [readerDeeds, leave, update, hc, Connection.readSince]
        have hleave : s.leave c.client x =
            { s.update c.client.id fun c ↦ { c with phase := .left x } with
              departures := s.departures ++ [c.client] } := by
          simp [leave, update, hgoing.running]
        rw [hdeeds, hleave]
        exact .leave hc hreading hnext
  | @hold f rest hphase hnext =>
      have hdeeds : readerDeeds c.client.id s (s.update c.client.id fun c ↦
          { c with phase := .holding f, inbox := rest }) = [.read ⟨c.client, f⟩] := by
        simp [readerDeeds, update, hc, Connection.readSince, hphase]
      rw [hdeeds]
      exact .hold hc hphase hnext
  | @permit f hphase hpermits =>
      have hdeeds : readerDeeds c.client.id s ({ s with permits := s.permits - 1 }.update
          c.client.id fun c ↦ { c with phase := .permitted f }) = [] := by
        simp [readerDeeds, update, hc, Connection.readSince]
      rw [hdeeds]
      exact .permit hc hphase hpermits
  | @enqueue f hphase hrunning =>
      have hdeeds : readerDeeds c.client.id s ((s.enqueue ⟨c.client, f⟩).update c.client.id
          fun c ↦ { c with phase := .reading }) = [.enqueue ⟨c.client, f⟩] := by
        simp [readerDeeds, update, Session.enqueue, hc, Connection.readSince]
      rw [hdeeds]
      exact .enqueue hc hphase
  | detach hphase hrunning =>
      rw [hgoing.running] at hrunning
      cases hrunning

theorem change_of_task {k : Nat} (h : s.taskStep k = some s') :
    Change s (.task k) (Event.deeds s s' (.task k)) s' := by
  cases htask : s.tasks[k]? with
  | none => simp [taskStep, htask] at h
  | some t =>
      cases t with
      | reply r =>
          simp only [taskStep, htask, Option.some.injEq] at h
          subst h
          simp only [Event.deeds, htask]
          exact .reply htask
      | finish r =>
          simp only [taskStep, htask, Option.some.injEq] at h
          subst h
          simp only [Event.deeds, htask]
          exact .finish htask
      | revoke identity =>
          simp only [taskStep, htask, Option.some.injEq] at h
          subst h
          simp only [Event.deeds, htask]
          exact .revoke htask

theorem change_of_next (hnumbered : s.Numbered) (hgoing : s.Going) (he : e.KeepsOn)
    (h : e.next s = some s') : Change s e (e.deeds s s') s' := by
  cases e with
  | outside st =>
      cases h
      exact change_of_act hgoing he
  | stopLoop =>
      obtain ⟨-, hstop, -⟩ := stopLoop_eq_some h
      rw [hgoing.opened] at hstop
      cases hstop
  | takeRequest =>
      obtain ⟨-, r, rest, hrequests, rfl⟩ := takeRequest_eq_some h
      have hdeeds : (s.requests.take 1).map Deed.take = [.take r] := by
        rw [hrequests]
        rfl
      rw [Event.deeds, hdeeds]
      exact .takeRequest hrequests
  | takeDeparture =>
      obtain ⟨-, client, rest, hdepartures, rfl⟩ := takeDeparture_eq_some h
      have hdeeds : (s.departures.take 1).map Deed.depart = [.depart client] := by
        rw [hdepartures]
        rfl
      rw [Event.deeds, hdeeds, unregister_eq_revocations]
      exact .takeDeparture hdepartures
  | reader i => exact change_of_reader hnumbered hgoing h
  | quit i =>
      rw [Event.next, readerQuit_of_not_stopped hgoing.opened] at h
      cases h
  | task k => exact change_of_task h

/-! ## Whole courses -/

omit [Store σ] in
@[simp] theorem client_newConnection (client : Client) (m : Medium) :
    (newConnection client m).client = client := by
  cases m <;> rfl

omit [Store σ] in
@[simp] theorem phase_newConnection (client : Client) (m : Medium) :
    (newConnection client m).phase = .reading := by
  cases m <;> rfl

omit [Store σ] in
theorem Numbered.connect (hs : s.Numbered) {c : Connection} (hid : c.client.id = s.connections.length)
    {t : Session (Recorded σ)} (ht : t.connections = s.connections ++ [c]) : t.Numbered := by
  intro i d hd
  rw [ht, List.getElem?_append] at hd
  split at hd
  · exact hs i d hd
  · rename_i hle
    obtain ⟨hi, rfl⟩ := List.getElem?_eq_some_iff.mp hd
    simp only [List.length_singleton] at hi
    simp only [List.getElem_singleton, hid]
    omega

theorem Change.numbered (hs : s.Numbered) (h : Change s e ds s') : s'.Numbered := by
  cases h with
  | connect client m hid => exact hs.connect (by rw [client_newConnection, hid]) rfl
  | input bytes hc hclient => exact hs.update hclient
  | @hold _ c | @enqueue _ c | @permit _ c | @leave _ c =>
      exact Numbered.update (i := c.client.id) hs fun _ ↦ rfl
  | reply => exact Numbered.update hs (client_deliver _)
  | idle | unregister | advance | tamper | takeRequest | takeDeparture | finish | revoke => exact hs

theorem Change.going (hs : s.Going) (h : Change s e ds s') : s'.Going := by
  have hopen : s.data.channel.stopped = false := hs.opened
  cases h with
  | advance ms =>
      refine ⟨hs.running, ?_⟩
      simpa [stopped, TimedStore.advance] using hopen
  | tamper hst hdata => exact ⟨hs.running, hdata⟩
  | reply =>
      refine ⟨hs.running, ?_⟩
      exact (congrArg Channel.stopped (Dispatch.execute_channel _)).trans hopen
  | revoke =>
      refine ⟨hs.running, ?_⟩
      exact (congrArg Channel.stopped Dispatch.revoke_channel).trans hopen
  | idle | connect | input | unregister | takeRequest | takeDeparture | hold | permit | enqueue
  | leave | finish =>
      exact ⟨hs.running, hs.opened⟩

theorem Change.options (h : Change s e ds s') : s'.options = s.options := by
  cases h <;> rfl

/-- A reply is what the dispatcher answers to a request that has a task, and it is all that the
change does. -/
theorem Change.of_reply (h : Change s e ds s') {r : Request} {a : Reply} (hr : .reply r a ∈ ds) :
    ds = [.reply r a] ∧ .reply r ∈ s.tasks ∧
      a = (Dispatch.execute s.options.secret r.client.identity r.payload s.data).1 := by
  cases h with
  | reply htask =>
      obtain ⟨rfl, rfl⟩ := Deed.reply.inj (List.mem_singleton.mp hr)
      exact ⟨rfl, List.mem_of_getElem? htask, rfl⟩
  | connect | input => cases eq_arrive_of_mem_arrivals hr
  | idle | unregister | advance | tamper | takeRequest | takeDeparture | hold | permit | enqueue
  | leave | finish | revoke => simp at hr

/-- What every change keeps, whatever was done before, a course keeps. -/
theorem course_induction {P : List Deed → Session (Recorded σ) → Prop} {es : List Event}
    (hes : ∀ e ∈ es, e.KeepsOn)
    (hstep : ∀ ds s new s', ∀ e ∈ es, s.Numbered → s.Going → P ds s → Change s e new s' →
      P (ds ++ new) s')
    (hnumbered : s.Numbered) (hgoing : s.Going) (hs : P ds s) :
    (course es s).2.Numbered ∧ (course es s).2.Going ∧ P (ds ++ (course es s).1) (course es s).2 := by
  induction es generalizing ds s with
  | nil =>
      rw [course, List.append_nil]
      exact ⟨hnumbered, hgoing, hs⟩
  | cons e es ih =>
      have hes' : ∀ e ∈ es, e.KeepsOn := fun e he ↦ hes e (List.mem_cons_of_mem _ he)
      have hstep' := fun ds s new s' e' he' ↦ hstep ds s new s' e' (List.mem_cons_of_mem _ he')
      cases hnext : e.next s with
      | none =>
          simp only [course, hnext]
          exact ih hes' hstep' hnumbered hgoing hs
      | some s' =>
          have hchange := change_of_next hnumbered hgoing (hes e List.mem_cons_self) hnext
          have hafter := hstep _ _ _ _ e List.mem_cons_self hnumbered hgoing hs hchange
          simp only [course, hnext, ← List.append_assoc]
          exact ih hes' hstep' (hchange.numbered hnumbered) (hchange.going hgoing) hafter

theorem course_append (es later : List Event) (s : Session (Recorded σ)) :
    course (es ++ later) s =
      ((course es s).1 ++ (course later (course es s).2).1, (course later (course es s).2).2) := by
  induction es generalizing s with
  | nil => rfl
  | cons e es ih =>
      simp only [List.cons_append, course]
      cases e.next s with
      | none => exact ih s
      | some s' => simp only [ih s', List.append_assoc]

theorem course_concat_of_next {es : List Event} (he : e.next (course es s).2 = some s') :
    (course (es ++ [e]) s).2 = s' := by
  rw [course_append]
  simp [course, he]

/-- What a session does by itself is a course. -/
theorem exists_course_settle (s : Session (Recorded σ)) :
    ∃ es, script es = [] ∧ (course es s).2 = s.settle := by
  refine settle_induction (P := fun t ↦ ∃ es, script es = [] ∧ (course es s).2 = t) ?_ ⟨[], rfl, rfl⟩
  rintro t t' ⟨es, hes, rfl⟩ hmove
  have hafter : ∀ e : Event, script [e] = [] → e.next (course es s).2 = some t' →
      ∃ es, script es = [] ∧ (course es s).2 = t' := by
    intro e he hnext
    exact ⟨es ++ [e], by rw [script_append, hes, he]; rfl, course_concat_of_next hnext⟩
  cases hmove with
  | stopLoop h => exact hafter .stopLoop rfl h
  | takeRequest h => exact hafter .takeRequest rfl h
  | takeDeparture h => exact hafter .takeDeparture rfl h
  | reader i h =>
      rcases h with h | h
      · exact hafter (.reader i) rfl h
      · exact hafter (.quit i) rfl h
  | task h => exact hafter (.task 0) rfl h

/-- A run of a script is a course in which nothing else comes from outside. -/
theorem exists_course (sts : List Step) (s : Session (Recorded σ)) :
    ∃ es, script es = sts ∧ (course es s).2 = (runSteps sts s).2 := by
  induction sts generalizing s with
  | nil => exact ⟨[], rfl, rfl⟩
  | cons st sts ih =>
      obtain ⟨own, hown, hsettle⟩ := exists_course_settle (s.act st).2
      obtain ⟨rest, hrest, hlast⟩ := ih (s.step st).2
      refine ⟨.outside st :: (own ++ rest), ?_, ?_⟩
      · have hstart : script (.outside st :: (own ++ rest)) = st :: script (own ++ rest) := rfl
        rw [hstart, script_append, hown, hrest, List.nil_append]
      · have hstart : Event.next s (.outside st) = some (s.act st).2 := rfl
        simp only [course, hstart, course_append, hsettle]
        exact hlast

end Session

end KvServer
