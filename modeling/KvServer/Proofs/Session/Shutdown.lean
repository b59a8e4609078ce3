import KvServer.Proofs.Session.Endings

/-!
# After a shutdown

A session is down once its event loop has stopped, its readers have closed their connections and
nothing is under way (`Down`).  It stays so whatever happens to it: nobody in it can go on, no peer
gets anything more, and the store changes only by what an operator does to it himself
(`Down.course`).  `ShutDown` says what a peer, an accept loop and the store see of that.
-/

namespace KvServer

namespace TimedStore

variable {σ : Type} {s : TimedStore σ}

/-- No timer is pending. -/
def Still (s : TimedStore σ) : Prop := ∀ t ∈ s.timers, t.status ≠ .pending

theorem still_endTimers (s : TimedStore σ) : s.endTimers.Still := by
  intro t ht
  obtain ⟨u, -, rfl⟩ := List.mem_map.mp ht
  exact Timer.finish_not_pending (by simp) u

theorem Still.due_eq_nil (h : s.Still) : s.due = [] := by
  rw [List.eq_nil_iff_forall_not_mem]
  intro token hdue
  obtain ⟨t, ht, htime⟩ := mem_due.mp hdue
  obtain ⟨time, -, huntil⟩ := Timer.isDue_iff.mp htime
  exact h t (List.mem_of_getElem? ht) (Timer.until?_eq_some.mp huntil).1

/-- Without a pending timer, time and signals leave the store alone. -/
theorem Still.settle [Store σ] (h : s.Still) : s.settle.Still ∧ s.settle.store = s.store := by
  cases hstop : s.channel.stopped with
  | true =>
      rw [settle_of_stopped hstop]
      exact ⟨still_endTimers s, rfl⟩
  | false =>
      rw [settle_of_not_stopped hstop, h.due_eq_nil]
      exact ⟨h, rfl⟩

end TimedStore

/-- The signals that tell everyone to stop. -/
def Signal.Stops (sig : Signal) : Prop := sig = .stop ∨ sig = .detach

/-- What a step does to the store past the dispatcher. -/
def Session.Step.touch {σ : Type} [Store σ] (st : Session.Step) (store : Recorded σ) : Recorded σ :=
  match st with
  | .fault kind error? => store.setFault kind error?
  | .direct c => (store.direct c).2
  | _ => store

namespace Session

variable {σ : Type}

/-- What a peer has: the replies that have reached it, and whether it is still there. -/
def peers (s : Session σ) : List (List Reply × Bool) :=
  s.connections.map fun c ↦ (c.replies, c.present)

/-- The event loop has stopped, every reader has closed its connection, and nothing is under way. -/
structure Down (s : Session σ) : Prop where
  running : s.running = false
  tasks : s.tasks = []
  closed : ∀ c ∈ s.connections, c.isClosed = true
  still : s.data.Still

/-- The reader of a closed connection has ended. -/
theorem reader_of_closed {s : Session σ} {c : Connection} (h : c.isClosed = true) :
    s.connectionStep c = none ∧ s.connectionQuit c = none := by
  refine ⟨connectionStep_of_rests (Or.inl h), ?_⟩
  unfold Connection.isClosed at h
  split at h
  · rename_i e hphase
    simp [connectionQuit, hphase]
  · cases h

theorem Down.isIdle {s : Session σ} (h : s.Down) : s.isIdle = true :=
  isIdle_iff.mpr ⟨by simp [stopLoop, h.running], by simp [takeRequest, h.running],
    by simp [takeDeparture, h.running], h.tasks, fun c hc ↦ reader_of_closed (h.closed c hc)⟩

theorem exists_connection_of_peers {s t : Session σ} (h : t.peers = s.peers) {i : Nat} {c : Connection}
    (hc : s.connections[i]? = some c) :
    ∃ c', t.connections[i]? = some c' ∧ c'.present = c.present := by
  have hpeer := congrArg (·[i]?) h
  simp only [peers, List.getElem?_map, hc, Option.map_some, Option.map_eq_some_iff,
    Prod.mk.injEq] at hpeer
  obtain ⟨c', hc', -, hpresent⟩ := hpeer
  exact ⟨c', hc', hpresent⟩

variable [Store σ] {s t : Session (Recorded σ)}

/-- What is left of a session that is down: the event loop does not come back, and no peer has got
anything more. -/
structure Remains (s t : Session (Recorded σ)) (store : Recorded σ) : Prop where
  down : t.Down
  replies : t.connections.map Connection.replies = s.connections.map Connection.replies
  store : t.data.store = store

omit [Store σ] in
theorem Down.update (h : s.Down) {i : Nat} {f : Connection → Connection}
    (hphase : ∀ c, (f c).phase = c.phase) (hreplies : ∀ c, (f c).replies = c.replies) :
    Remains s (s.update i f) s.data.store := by
  refine ⟨⟨h.running, h.tasks, ?_, h.still⟩, map_modify_of_eq hreplies _ _, rfl⟩
  intro c hc
  have hclosed : c.isClosed ∈ (s.update i f).connections.map Connection.isClosed :=
    List.mem_map_of_mem hc
  rw [Session.update, map_modify_of_eq] at hclosed
  · obtain ⟨d, hd, hsame⟩ := List.mem_map.mp hclosed
    rw [← hsame]
    exact h.closed d hd
  · intro d
    rw [Connection.isClosed, hphase, ← Connection.isClosed]

theorem Down.act (h : s.Down) (st : Step) :
    Remains s (s.act st).2 (st.touch s.data.store) := by
  cases st with
  | connect identity m =>
      have hsame : (s.act (.connect identity m)).2 = s := by
        rw [Session.act, connect_of_not_running h.running]
      rw [hsame]
      exact ⟨h, rfl, rfl⟩
  | send i bytes =>
      rw [Session.act]
      split
      · exact h.update (fun _ ↦ rfl) fun _ ↦ rfl
      · exact ⟨h, rfl, rfl⟩
  | finish i => exact h.update (fun _ ↦ rfl) fun _ ↦ rfl
  | vanish i bytes => exact h.update (fun _ ↦ rfl) fun _ ↦ rfl
  | unregister i =>
      have hsame : (s.act (.unregister i)).2 = s := by
        simp [Session.act, reportDeparture, h.running]
      rw [hsame]
      exact ⟨h, rfl, rfl⟩
  | advance ms =>
      have hstill : TimedStore.Still { s.data with now := s.data.now + ms } := h.still
      exact ⟨⟨h.running, h.tasks, h.closed, hstill.settle.1⟩, rfl, hstill.settle.2⟩
  | signal sig =>
      have hstill : TimedStore.Still { s.data with channel := s.data.channel.after sig } := h.still
      exact ⟨⟨h.running, h.tasks, h.closed, hstill.settle.1⟩, rfl, hstill.settle.2⟩
  | wait => exact ⟨h, rfl, rfl⟩
  | fault | direct => exact ⟨⟨h.running, h.tasks, h.closed, h.still⟩, rfl, rfl⟩

/-- What happens to a session that is down comes from outside. -/
theorem Down.next (h : s.Down) {e : Event} (he : ∀ st, e ≠ .outside st) : e.next s = none := by
  cases hnext : e.next s with
  | none => rfl
  | some s' =>
      rcases move_or_task_of_next he hnext with hmove | ⟨k, htask⟩
      · exact absurd hmove (not_move_of_isIdle h.isIdle)
      · simp [taskStep, h.tasks] at htask

theorem Down.course (h : s.Down) (es : List Event) :
    Remains s (Session.course es s).2
      ((script es).foldl (fun store st ↦ st.touch store) s.data.store) := by
  induction es generalizing s with
  | nil => exact ⟨h, rfl, rfl⟩
  | cons e es ih =>
      by_cases he : ∀ st, e ≠ .outside st
      · have hscript : script (e :: es) = script es := by
          cases e with
          | outside st => exact absurd rfl (he st)
          | stopLoop | takeRequest | takeDeparture | reader | quit | task => rfl
        rw [hscript]
        simp only [Session.course, h.next he]
        exact ih h
      · obtain ⟨st, rfl⟩ : ∃ st, e = .outside st := by simpa using he
        have hact := h.act st
        have hrest := ih hact.down
        have hnext : Event.next s (.outside st) = some (s.act st).2 := rfl
        have hscript : script (.outside st :: es) = st :: script es := rfl
        simp only [Session.course, hnext]
        refine ⟨hrest.down, hrest.replies.trans hact.replies, ?_⟩
        rw [hscript, List.foldl_cons, ← hact.store]
        exact hrest.store

/-- `down` is a session for good after it was told to stop at `s`; `store` is its store then. -/
structure ShutDown (s down : Session (Recorded σ)) (store : Recorded σ) : Prop where
  /-- Every peer that is still there sees the end of its connection. -/
  seen : ∀ (i : Nat) (c : Connection), s.connections[i]? = some c → c.present = true →
    c.isClosed = false → closedSince down s i = true
  /-- The event loop answers nobody any more. -/
  refused : ∀ (later : List Event) (identity : String) (m : Medium) (i : Nat),
    let last := (Session.course later down).2
    last.connect identity m = (.error .loopClosed, last) ∧
      last.reportDeparture i = (.error .loopClosed, last) ∧ last.clientCount = .error .loopClosed
  /-- No peer gets another byte. -/
  silent : ∀ later : List Event,
    (Session.course later down).2.connections.map Connection.replies =
      s.connections.map Connection.replies
  /-- The store, with its record of calls, changes only by what is done past the server. -/
  untouched : ∀ later : List Event,
    (Session.course later down).2.data.store =
      (script later).foldl (fun store st ↦ st.touch store) store

theorem Down.shutDown (h : t.Down) (hpeers : t.peers = s.peers) : ShutDown s t t.data.store := by
  have hreplies : t.connections.map Connection.replies = s.connections.map Connection.replies := by
    have hfst := congrArg (List.map Prod.fst) hpeers
    simpa [peers, Function.comp_def] using hfst
  constructor
  · intro i c hc hpresent hopen
    obtain ⟨c', hc', hpresent'⟩ := exists_connection_of_peers hpeers hc
    have hclosed := h.closed c' (List.mem_of_getElem? hc')
    simp [closedSince, Connection.seesEnd, hc, hc', hclosed, hpresent', hpresent, hopen]
  · intro later identity m i last
    have hrunning : last.running = false := (h.course later).down.running
    refine ⟨connect_of_not_running hrunning identity m, ?_, ?_⟩
    · simp [reportDeparture, hrunning]
    · simp [clientCount, hrunning]
  · intro later
    rw [(h.course later).replies, hreplies]
  · exact fun later ↦ (h.course later).store

end Session

end KvServer
