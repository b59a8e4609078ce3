import KvServer.Proofs.Session.Rest

/-!
# Serving one connection

The frames of a peer pass from its input through the hands of its reader, the queue and the tasks
to the store, and the permits bound how many are on their way.  In which order the moves come does
not matter: what all frames on their way will make of the replies and the data stays the same
(`Serving.move`).  So once no one can go on, the frames have been served one after the other
(`Serving.settle_eq`).
-/

namespace KvServer

open Text

def Task.frames : Task → List Bytes
  | .reply r => [r.payload]
  | .finish _ | .revoke _ => []

def Phase.frames : Phase → List Bytes
  | .holding frame | .permitted frame => [frame]
  | .reading | .left _ => []

def Phase.permits : Phase → Nat
  | .permitted _ => 1
  | .reading | .holding _ | .left _ => 0

/-- Serves frames of a client one after the other; the replies stand the latest first. -/
def Dispatch.serve {σ : Type} [Store σ] (secret : Option String) (identity : String) :
    List Bytes → List Reply × TimedStore σ → List Reply × TimedStore σ
  | [], done => done
  | frame :: frames, (replies, s) =>
      let (r, s) := execute secret identity frame s
      serve secret identity frames (r :: replies, s)

theorem modify_set {α : Type} (as : List α) (i : Nat) (a : α) (f : α → α) :
    (as.set i a).modify i f = as.set i (f a) := by
  induction as generalizing i with
  | nil => cases i <;> rfl
  | cons b as ih =>
      cases i with
      | zero => rfl
      | succ i => exact congrArg (b :: ·) (ih i)

theorem modify_of_getElem? {α : Type} {as : List α} {i : Nat} {a : α} (h : as[i]? = some a)
    (f : α → α) : as.modify i f = as.set i (f a) := by
  obtain ⟨hlt, rfl⟩ := List.getElem?_eq_some_iff.mp h
  have hset := modify_set as i as[i] f
  rwa [List.set_getElem_self] at hset

attribute [ext] Inbox Connection Session

/-- A peer is there, and the reader of its connection listens to it. -/
structure Connection.Listens (c : Connection) : Prop where
  phase : c.phase = .reading
  writable : c.writable = true
  present : c.present = true
  inputEnd : c.inbox.inputEnd = none

namespace Session

variable {σ : Type} {s₀ s s' : Session σ} {c₀ c : Connection} {rest : Bytes}
  {goal : List Reply × TimedStore σ}

/-- The frames on their way to the store, in the order in which they will be served. -/
def onTheWay (c : Connection) (s : Session σ) : List Bytes :=
  s.tasks.flatMap Task.frames ++ s.requests.map Request.payload ++ c.phase.frames ++
    (lines c.inbox.unread).1

variable [Store σ]

/-- A session that serves what one peer has sent.  `c` is its connection, which was `c₀` in the
session `s₀` before; `goal` is what the replies and the data will be, and `rest` what is left of
the input. -/
structure Serving (s₀ : Session σ) (c₀ : Connection) (goal : List Reply × TimedStore σ)
    (rest : Bytes) (c : Connection) (s : Session σ) : Prop extends Steady s where
  options : s.options = s₀.options
  registry : s.registry = s₀.registry
  departures : s.departures = []
  connections : s.connections = s₀.connections.set c₀.client.id c
  client : c.client = c₀.client
  writable : c.writable = true
  present : c.present = true
  inputEnd : c.inbox.inputEnd = none
  isOpen : c.isClosed = false
  tasks : ∀ t ∈ s.tasks, ∃ frame, t = .reply ⟨c₀.client, frame⟩ ∨ t = .finish ⟨c₀.client, frame⟩
  requests : ∀ r ∈ s.requests, r.client = c₀.client
  permits : s.permits + s.requests.length + s.tasks.length + c.phase.permits = s₀.options.maxInflight
  fits : Fits c.inbox.unread
  rest : (lines c.inbox.unread).2 = rest
  goal : Dispatch.serve s₀.options.secret c₀.client.identity (onTheWay c s) (c.replies, s.data) = goal

theorem Serving.takeRequest (h : Serving s₀ c₀ goal rest c s) (hmove : s.takeRequest = some s') :
    Serving s₀ c₀ goal rest c s' := by
  obtain ⟨-, r, requests, hrequests, rfl⟩ := takeRequest_eq_some hmove
  have hclient : r.client = c₀.client := h.requests r (by simp [hrequests])
  have hpermits := h.permits
  have hgoal := h.goal
  refine { h with
    toSteady := h.toSteady.congr h.numbered rfl rfl
    tasks := ?_, requests := ?_, permits := ?_, goal := ?_ }
  · intro t ht
    rcases List.mem_append.mp ht with ht | ht
    · exact h.tasks t ht
    · obtain rfl := List.mem_singleton.mp ht
      exact ⟨r.payload, Or.inl (by rw [← hclient])⟩
  · intro r' hr'
    exact h.requests r' (by simp [hrequests, hr'])
  · simp only [hrequests, List.length_cons, List.length_append, List.length_nil] at hpermits ⊢
    omega
  · rw [← hgoal]
    simp [onTheWay, hrequests, Task.frames]

omit [Store σ] in
theorem connections_update (h : s.connections = s₀.connections.set c₀.client.id c)
    (hclient : c.client = c₀.client) (f : Connection → Connection) :
    (s.update c.client.id f).connections = s₀.connections.set c₀.client.id (f c) := by
  rw [update, h, hclient, modify_set]

theorem Serving.isServed (h : Serving s₀ c₀ goal rest c s)
    (hc₀ : s₀.connections[c₀.client.id]? = some c₀) :
    s.connections[c₀.client.id]? = some c := by
  have hlt := (List.getElem?_eq_some_iff.mp hc₀).1
  rw [h.connections, List.getElem?_set_self hlt]

/-- The reader of the connection that is served takes a frame, a permit or a place in the queue. -/
theorem Serving.readerMove (h : Serving s₀ c₀ goal rest c s) (hnumbered : s'.Numbered)
    (hmove : ReaderMove c s s') : ∃ c', Serving s₀ c₀ goal rest c' s' := by
  have hgoal := h.goal
  have hpermits := h.permits
  have hnext := Inbox.next_of_fits h.fits h.inputEnd
  cases hmove with
  | leave e hphase hwhy =>
      -- without a shutdown the input would have to end or to be too long
      exfalso
      obtain hstop | ⟨-, hend⟩ := hwhy
      · simp [h.goesOn] at hstop
      · rcases hnext with ⟨-, hwait⟩ | ⟨l, after, -, hframe⟩
        · simp [hwait] at hend
        · simp [hframe] at hend
  | @hold bytes inbox hphase htaken =>
      rcases hnext with ⟨-, hwait⟩ | ⟨l, after, hlines, hframe⟩
      · simp [hwait] at htaken
      · obtain ⟨rfl, rfl⟩ := Reading.frame.inj (hframe.symm.trans htaken)
        refine ⟨_, { h with
          toSteady := h.toSteady.congr hnumbered rfl rfl
          connections := connections_update h.connections h.client _, isOpen := rfl
          permits := ?_, fits := h.fits.of_line hlines, rest := ?_, goal := ?_ }⟩
        · rw [hphase] at hpermits
          exact hpermits
        · rw [← h.rest, hlines]
        · rw [← hgoal]
          simp [onTheWay, Session.update, hphase, hlines, Phase.frames]
  | @permit frame hphase hfree =>
      refine ⟨_, { h with
        toSteady := h.toSteady.congr hnumbered rfl rfl
        connections := connections_update h.connections h.client _, isOpen := rfl
        permits := ?_, goal := ?_ }⟩
      · rw [hphase] at hpermits
        simp only [Session.update, Phase.permits] at hpermits ⊢
        omega
      · rw [← hgoal]
        simp [onTheWay, Session.update, hphase, Phase.frames]
  | @enqueue frame hphase hrunning =>
      refine ⟨_, { h with
        toSteady := h.toSteady.congr hnumbered rfl rfl
        connections := connections_update h.connections h.client _, isOpen := rfl
        requests := ?_, permits := ?_, goal := ?_ }⟩
      · intro r hr
        rcases List.mem_append.mp hr with hr | hr
        · exact h.requests r hr
        · obtain rfl := List.mem_singleton.mp hr
          exact h.client
      · rw [hphase] at hpermits
        simp only [Session.update, Session.enqueue, Phase.permits, List.length_append,
          List.length_cons, List.length_nil] at hpermits ⊢
        omega
      · rw [← hgoal]
        simp [onTheWay, Session.update, Session.enqueue, hphase, Phase.frames]
  | @detach frame hphase hrunning => simp [h.running] at hrunning

theorem serve_cons (secret : Option String) (identity : String) (frame : Bytes)
    (frames : List Bytes) (replies : List Reply) (data : TimedStore σ) :
    Dispatch.serve secret identity (frame :: frames) (replies, data) =
      Dispatch.serve secret identity frames
        ((Dispatch.execute secret identity frame data).1 :: replies,
          (Dispatch.execute secret identity frame data).2) := rfl

omit [Store σ] in
theorem deliver_of_open (hwritable : c.writable = true) (hpresent : c.present = true)
    (hopen : c.isClosed = false) (r : Reply) :
    c.deliver r = { c with replies := r :: c.replies } := by
  simp [Connection.deliver, hwritable, hpresent, hopen]

theorem Serving.taskMove (h : Serving s₀ c₀ goal rest c s) (hnumbered : s'.Numbered)
    (hmove : TaskMove s s') : ∃ c', Serving s₀ c₀ goal rest c' s' := by
  have hgoal := h.goal
  have hpermits := h.permits
  cases hmove with
  | @reply r tasks htasks =>
      obtain ⟨frame, hr | hr⟩ := h.tasks (.reply r) (by simp [htasks])
      · cases hr
        have hdeliver := deliver_of_open h.writable h.present h.isOpen
          (Dispatch.execute s.options.secret c₀.client.identity frame s.data).1
        refine ⟨{ c with
            replies := (Dispatch.execute s.options.secret c₀.client.identity frame s.data).1 ::
              c.replies }, { h with
          numbered := hnumbered, running := h.running
          goesOn := ?_, settled := Dispatch.settled_execute frame h.settled h.goesOn
          connections := ?_, isOpen := h.isOpen
          tasks := ?_, permits := ?_, goal := ?_ }⟩
        · rw [stopped]
          exact (congrArg Channel.stopped (Dispatch.execute_channel frame)).trans h.goesOn
        · rw [← hdeliver]
          have hupdate := connections_update h.connections h.client
            (·.deliver (Dispatch.execute s.options.secret c₀.client.identity frame s.data).1)
          rw [h.client] at hupdate
          exact hupdate
        · intro t ht
          rcases List.mem_cons.mp ht with rfl | ht
          · exact ⟨frame, Or.inr rfl⟩
          · exact h.tasks t (by simp [htasks, ht])
        · rw [htasks] at hpermits
          exact hpermits
        · rw [← hgoal]
          simp only [onTheWay, htasks, List.flatMap_cons, Task.frames, List.nil_append,
            List.cons_append]
          rw [serve_cons, ← h.options]
          rfl
      · cases hr
  | @finish r tasks htasks =>
      refine ⟨c, { h with
        toSteady := h.toSteady.congr hnumbered rfl rfl
        tasks := ?_, permits := ?_, goal := ?_ }⟩
      · intro t ht
        exact h.tasks t (by simp [htasks, ht])
      · simp only [htasks, release, List.length_cons] at hpermits ⊢
        omega
      · rw [← hgoal]
        simp [onTheWay, htasks, release, Task.frames]
  | @revoke identity tasks htasks =>
      obtain ⟨frame, hr | hr⟩ := h.tasks (.revoke identity) (by simp [htasks]) <;> cases hr

/-! ## Until no one can go on -/

/-- Every move keeps what the frames on their way will come to. -/
theorem Serving.move (h : Serving s₀ c₀ goal rest c s)
    (hc₀ : s₀.connections[c₀.client.id]? = some c₀)
    (hothers : ∀ i d, i ≠ c₀.client.id → s₀.connections[i]? = some d → d.Rests)
    (hmove : Move s s') : ∃ c', Serving s₀ c₀ goal rest c' s' := by
  have hnumbered := hmove.numbered h.numbered
  cases hmove with
  | stopLoop hstep => simp [stopLoop_eq_none h.goesOn] at hstep
  | takeRequest hstep => exact ⟨c, h.takeRequest hstep⟩
  | takeDeparture hstep => simp [takeDeparture_eq_none h.departures] at hstep
  | reader i hstep =>
      rw [readerQuit_of_not_stopped h.goesOn] at hstep
      obtain hstep | ⟨⟨⟩⟩ := hstep
      by_cases hi : i = c₀.client.id
      · subst hi
        obtain ⟨d, hd, hreader⟩ := readerStep_eq_some hstep
        obtain rfl := Option.some.inj ((h.isServed hc₀).symm.trans hd)
        exact h.readerMove hnumbered hreader
      · have hrests : ∀ d, s.connections[i]? = some d → d.Rests := by
          intro d hd
          rw [h.connections, List.getElem?_set_ne (Ne.symm hi)] at hd
          exact hothers i d hi hd
        simp [readerStep_of_rests hrests] at hstep
  | task hstep => exact h.taskMove hnumbered (taskStep_zero_eq_some hstep)

/-- The connection that is served has been served once no one can go on. -/
theorem Serving.rests (h : Serving s₀ c₀ goal rest c s) (hidle : s.isIdle = true)
    (hc₀ : s₀.connections[c₀.client.id]? = some c₀) (hroom : 0 < s₀.options.queueCapacity)
    (hfree : 0 < s₀.options.maxInflight) :
    s.requests = [] ∧ s.tasks = [] ∧ c.phase = .reading ∧ (lines c.inbox.unread).1 = [] := by
  obtain ⟨-, hrequest, -, htasks, hreaders⟩ := isIdle_iff.mp hidle
  have hrequests := requests_eq_nil h.running hrequest
  have hstep := (hreaders c (List.mem_of_getElem? (h.isServed hc₀))).1
  have hpermits := h.permits
  simp only [hrequests, htasks, List.length_nil] at hpermits
  refine ⟨hrequests, htasks, ?_⟩
  cases hphase : c.phase with
  | reading =>
      refine ⟨rfl, ?_⟩
      rcases Inbox.next_of_fits h.fits h.inputEnd with ⟨hlines, -⟩ | ⟨l, after, -, hframe⟩
      · exact hlines
      · simp [connectionStep, hphase, hframe] at hstep
  | holding frame =>
      rw [hphase] at hpermits
      have hne : s.permits ≠ 0 := by
        simp only [Phase.permits] at hpermits
        omega
      simp [connectionStep, hphase, hne] at hstep
  | permitted frame =>
      simp [connectionStep, hphase, h.running, hrequests, h.options, hroom] at hstep
  | left e =>
      have hopen := h.isOpen
      simp [Connection.isClosed, hphase] at hopen

def served (c : Connection) (goal : List Reply × TimedStore σ) (rest : Bytes) (s : Session σ) :
    Session σ :=
  { s with
    data := goal.2
    connections := s.connections.set c.client.id
      { c with inbox := { c.inbox with unread := rest }, replies := goal.1 } }

/-- Once no one can go on, all frames have been served in their order. -/
theorem Serving.settle_eq (h : Serving s₀ c₀ goal rest c s)
    (hc₀ : s₀.connections[c₀.client.id]? = some c₀) (hlistens : c₀.Listens) (hs₀ : s₀.Quiet)
    (hroom : 0 < s₀.options.queueCapacity) (hfree : 0 < s₀.options.maxInflight) :
    s.settle = served c₀ goal rest s₀ := by
  have hothers : ∀ i d, i ≠ c₀.client.id → s₀.connections[i]? = some d → d.Rests :=
    fun i d _ hd ↦ hs₀.rests d (List.mem_of_getElem? hd)
  obtain ⟨c', hserved⟩ : ∃ c', Serving s₀ c₀ goal rest c' s.settle := by
    refine settle_induction (P := fun t ↦ ∃ c', Serving s₀ c₀ goal rest c' t) ?_ ⟨c, h⟩
    rintro t t' ⟨c', ht⟩ hmove
    exact ht.move hc₀ hothers hmove
  obtain ⟨hrequests, htasks, hphase, hlines⟩ :=
    hserved.rests (isIdle_settle h.numbered) hc₀ hroom hfree
  have hpermits : s.settle.permits = s₀.permits := by
    have hall := hserved.permits
    simp only [hrequests, htasks, hphase, List.length_nil, Phase.permits] at hall
    rw [hs₀.permits]
    omega
  have hgoal : (c'.replies, s.settle.data) = goal := by
    have hdone := hserved.goal
    rw [onTheWay, hrequests, htasks, hphase, hlines] at hdone
    exact hdone
  have hunread : c'.inbox.unread = rest := by
    rw [← hserved.rest, lines_of_no_line hlines]
  have hc' : c' = { c₀ with inbox := { c₀.inbox with unread := rest }, replies := goal.1 } :=
    Connection.ext hserved.client
      (Inbox.ext hunread (hserved.inputEnd.trans hlistens.inputEnd.symm))
      (hphase.trans hlistens.phase.symm) (hserved.writable.trans hlistens.writable.symm)
      (hserved.present.trans hlistens.present.symm) (congrArg Prod.fst hgoal)
  refine Session.ext hserved.options (congrArg Prod.snd hgoal)
    (hserved.running.trans hs₀.running.symm) hserved.registry ?_ hpermits
    (hrequests.trans hs₀.requests.symm) (hserved.departures.trans hs₀.departures.symm)
    (htasks.trans hs₀.tasks.symm)
  rw [hserved.connections, hc']
  rfl

/-- What a peer sends to a quiet session is served. -/
theorem Quiet.settle_receive (hs : s.Quiet) (hc : s.connections[c.client.id]? = some c)
    (hlistens : c.Listens) {bytes : Bytes} (hfits : Fits (c.inbox.unread ++ bytes))
    (hroom : 0 < s.options.queueCapacity) (hfree : 0 < s.options.maxInflight) :
    (s.update c.client.id fun c ↦ { c with inbox := c.inbox.receive bytes }).settle =
      served c
        (Dispatch.serve s.options.secret c.client.identity (lines (c.inbox.unread ++ bytes)).1
          (c.replies, s.data))
        (lines (c.inbox.unread ++ bytes)).2 s := by
  refine Serving.settle_eq (c := { c with inbox := c.inbox.receive bytes }) ?_ hc hlistens hs hroom
    hfree
  exact
    { numbered := hs.numbered.update fun _ ↦ rfl
      running := hs.running
      goesOn := hs.goesOn
      settled := hs.settled
      options := rfl
      registry := rfl
      departures := hs.departures
      connections := modify_of_getElem? hc _
      client := rfl
      writable := hlistens.writable
      present := hlistens.present
      inputEnd := hlistens.inputEnd
      isOpen := by simp [Connection.isClosed, hlistens.phase]
      tasks := by simp [update, hs.tasks]
      requests := by simp [update, hs.requests]
      permits := by
        simp [update, hs.requests, hs.tasks, hs.permits, hlistens.phase, Phase.permits]
      fits := hfits
      rest := rfl
      goal := by
        simp [onTheWay, update, hs.requests, hs.tasks, hlistens.phase, Phase.frames,
          Inbox.receive] }

end Session

end KvServer
