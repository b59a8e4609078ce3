import KvServer.Proofs.Dispatch.Execution
import KvServer.Proofs.Session.Enrollment
import KvServer.Proofs.Session.Lines
import KvServer.Proofs.Session.Progress

/-!
# Sessions at rest, and departures

A quiet session has nothing to do: its readers rest, its queues are empty and all permits are free.
When a client departs from it, there is only one move at a time (`Leads`), so one can follow the
session until it is quiet again (`Quiet.leads_departure`, `leads_leave`).
-/

namespace KvServer

/-- The reader of a connection has ended, or it waits for something to come in. -/
def Connection.Rests (c : Connection) : Prop :=
  c.isClosed = true ∨ (c.phase = .reading ∧ c.inbox.next = .wait)

namespace Session

variable {σ : Type} {s s' t : Session σ} {c : Connection} {client : Client} {i : Nat}

theorem connectionStep_of_rests (h : c.Rests) : s.connectionStep c = none := by
  rcases h with hclosed | ⟨hphase, hnext⟩
  · unfold Connection.isClosed at hclosed
    split at hclosed
    · rename_i e hphase
      simp [connectionStep, hphase]
    · cases hclosed
  · simp [connectionStep, hphase, hnext]

theorem readerStep_of_rests (h : ∀ c, s.connections[i]? = some c → c.Rests) :
    s.readerStep i = none := by
  rw [readerStep, Option.bind_eq_none_iff]
  intro c hc
  exact connectionStep_of_rests (h c hc)

theorem connectionQuit_of_not_stopped (hstop : s.stopped = false) : s.connectionQuit c = none := by
  unfold connectionQuit
  split <;> simp [hstop]

theorem readerQuit_of_not_stopped (hstop : s.stopped = false) : s.readerQuit i = none := by
  rw [readerQuit, Option.bind_eq_none_iff]
  intro c _
  exact connectionQuit_of_not_stopped hstop

/-- No one has told the session to stop, and no timer is overdue. -/
structure Steady (s : Session σ) : Prop where
  numbered : s.Numbered
  running : s.running = true
  goesOn : s.stopped = false
  settled : s.data.Settled

theorem Steady.congr (h : s.Steady) (hnumbered : s'.Numbered) (hrunning : s'.running = s.running)
    (hdata : s'.data = s.data) : s'.Steady where
  numbered := hnumbered
  running := hrunning.trans h.running
  goesOn := by
    rw [stopped, hdata]
    exact h.goesOn
  settled := by
    rw [hdata]
    exact h.settled

/-- Nothing is left to do. -/
structure Quiet (s : Session σ) : Prop extends Steady s where
  requests : s.requests = []
  departures : s.departures = []
  tasks : s.tasks = []
  permits : s.permits = s.options.maxInflight
  rests : ∀ c ∈ s.connections, c.Rests

theorem stopLoop_eq_none (hstop : s.stopped = false) : s.stopLoop = none := by
  simp [stopLoop, hstop]

theorem takeRequest_eq_none (h : s.requests = []) : s.takeRequest = none := by
  simp [takeRequest, h]

theorem takeDeparture_eq_none (h : s.departures = []) : s.takeDeparture = none := by
  simp [takeDeparture, h]

theorem requests_eq_nil (hrunning : s.running = true) (h : s.takeRequest = none) :
    s.requests = [] := by
  cases hrequests : s.requests with
  | nil => rfl
  | cons r rest => simp [takeRequest, hrunning, hrequests] at h

theorem departures_eq_nil (hrunning : s.running = true) (h : s.takeDeparture = none) :
    s.departures = [] := by
  cases hdepartures : s.departures with
  | nil => rfl
  | cons c rest => simp [takeDeparture, hrunning, hdepartures] at h

theorem Quiet.isIdle (h : s.Quiet) : s.isIdle = true :=
  isIdle_iff.mpr ⟨stopLoop_eq_none h.goesOn, takeRequest_eq_none h.requests,
    takeDeparture_eq_none h.departures, h.tasks,
    fun c hc ↦ ⟨connectionStep_of_rests (h.rests c hc), connectionQuit_of_not_stopped h.goesOn⟩⟩

variable [Store σ]

theorem not_move_of_isIdle (h : s.isIdle = true) : ¬ Move s s' := by
  obtain ⟨hstop, hrequest, hdeparture, htasks, hreaders⟩ := isIdle_iff.mp h
  intro hmove
  cases hmove with
  | stopLoop h => simp [hstop] at h
  | takeRequest h => simp [hrequest] at h
  | takeDeparture h => simp [hdeparture] at h
  | reader i h =>
      rcases h with h | h
      · obtain ⟨c, hc, hstep⟩ := Option.bind_eq_some_iff.mp h
        simp [hreaders c (List.mem_of_getElem? hc)] at hstep
      · obtain ⟨c, hc, hquit⟩ := Option.bind_eq_some_iff.mp h
        simp [hreaders c (List.mem_of_getElem? hc)] at hquit
  | task h => simp [taskStep, htasks] at h

/-- There is one move at a time, until no one can go on. -/
inductive Leads : Session σ → Session σ → Prop
  | done {s : Session σ} (hidle : s.isIdle = true) : Leads s s
  | move {s s' t : Session σ} (honly : ∀ u, Move s u → u = s') (hmove : Move s s')
      (hrest : Leads s' t) : Leads s t

theorem Leads.settle_eq (h : Leads s t) (hs : s.Numbered) : s.settle = t := by
  have hsettle : Leads s.settle t := by
    refine settle_induction (P := fun u ↦ Leads u t) ?_ h
    intro u u' hu hmove
    cases hu with
    | done hidle => exact absurd hmove (not_move_of_isIdle hidle)
    | move honly _ hrest =>
        rw [honly u' hmove]
        exact hrest
  cases hsettle with
  | done => rfl
  | move _ hmove => exact absurd hmove (not_move_of_isIdle (isIdle_settle hs))

/-! ## Departures -/

/-- A session after the departure of a client has been dealt with. -/
def part (client : Client) (s : Session σ) : Session σ :=
  { s with
    registry := (s.registry.remove client.id).2
    data :=
      if (s.registry.remove client.id).1.isSome && s.options.revokeOnDisconnect &&
          s.options.secret.isSome then
        Dispatch.revoke s.options.secret client.identity s.data
      else s.data }

theorem Quiet.part (h : s.Quiet) (client : Client) : (s.part client).Quiet where
  numbered := h.numbered
  running := h.running
  goesOn := by
    unfold Session.part stopped
    dsimp only
    split
    · rw [Dispatch.revoke_channel]
      exact h.goesOn
    · exact h.goesOn
  settled := by
    unfold Session.part
    dsimp only
    split
    · exact Dispatch.settled_revoke h.settled
    · exact h.settled
  requests := h.requests
  departures := h.departures
  tasks := h.tasks
  permits := h.permits
  rests := h.rests

/-- While the readers rest and no request is there, only departures and tasks move. -/
theorem move_of_rests (hstop : s.stopped = false) (hrequests : s.requests = [])
    (hrests : ∀ c ∈ s.connections, c.Rests) (h : Move s s') :
    s.takeDeparture = some s' ∨ TaskMove s s' := by
  cases h with
  | stopLoop h => simp [stopLoop_eq_none hstop] at h
  | takeRequest h => simp [takeRequest_eq_none hrequests] at h
  | takeDeparture h => exact Or.inl h
  | reader i h =>
      have hnone : s.readerStep i = none :=
        readerStep_of_rests fun c hc ↦ hrests c (List.mem_of_getElem? hc)
      simp [hnone, readerQuit_of_not_stopped hstop] at h
  | task h => exact Or.inr (taskStep_zero_eq_some h)

omit [Store σ] in
theorem takeDeparture_eq (hrunning : s.running = true) {rest : List Client}
    (h : s.departures = client :: rest) :
    s.takeDeparture = some ({ s with departures := rest }.unregister client) := by
  simp [takeDeparture, hrunning, h]

theorem Quiet.leads_revoke (hs : s.Quiet) (identity : String) :
    Leads { s with tasks := [.revoke identity] }
      { s with data := Dispatch.revoke s.options.secret identity s.data } := by
  have hquiet : Quiet { s with data := Dispatch.revoke s.options.secret identity s.data } :=
    { hs with
      goesOn := by
        rw [stopped, Dispatch.revoke_channel]
        exact hs.goesOn
      settled := Dispatch.settled_revoke hs.settled }
  have hnext : taskStep 0 { s with tasks := [.revoke identity] } =
      some { s with data := Dispatch.revoke s.options.secret identity s.data } := by
    rw [← hquiet.tasks]
    rfl
  refine .move ?_ (.task hnext) (.done hquiet.isIdle)
  intro u hmove
  rcases move_of_rests (s := { s with tasks := [.revoke identity] }) hs.goesOn hs.requests hs.rests
    hmove with h | h
  · simp [takeDeparture, hs.departures] at h
  · cases h with
    | reply htasks | finish htasks => cases htasks
    | revoke htasks =>
        cases htasks
        rw [← hs.tasks]

omit [Store σ] in
theorem unregister_eq (client : Client) (s : Session σ) :
    s.unregister client =
      if (s.registry.remove client.id).1.isSome && s.options.revokeOnDisconnect &&
          s.options.secret.isSome then
        { s with
          registry := (s.registry.remove client.id).2
          tasks := s.tasks ++ [.revoke client.identity] }
      else { s with registry := (s.registry.remove client.id).2 } := by
  unfold unregister Registry.remove
  cases s.registry.members[client.id]? with
  | none => rfl
  | some member => simp

/-- The departure of a client from a quiet session. -/
theorem Quiet.leads_departure (hs : s.Quiet) (client : Client) :
    Leads { s with departures := [client] } (s.part client) := by
  have hdepart : takeDeparture { s with departures := [client] } = some (s.unregister client) := by
    have hsame : { s with departures := [] } = s := by rw [← hs.departures]
    have htake := takeDeparture_eq (s := { s with departures := [client] }) hs.running rfl
    rwa [hsame] at htake
  refine .move ?_ (.takeDeparture hdepart) ?_
  · intro u hmove
    rcases move_of_rests (s := { s with departures := [client] }) hs.goesOn hs.requests hs.rests
      hmove with h | h
    · exact Option.some.inj (h.symm.trans hdepart)
    · cases h with
      | reply htasks | finish htasks | revoke htasks => simp [hs.tasks] at htasks
  · have hregistry : Quiet { s with registry := (s.registry.remove client.id).2 } := { hs with }
    have hpart := hs.part client
    rw [unregister_eq]
    unfold Session.part at hpart ⊢
    split
    · rename_i hcond
      have hrevoke := hregistry.leads_revoke client.identity
      simpa only [hs.tasks, List.nil_append, hcond, if_true] using hrevoke
    · rename_i hcond
      simp only [hcond] at hpart ⊢
      exact .done hpart.isIdle

def close (i : Nat) (e : Ending) (s : Session σ) : Session σ :=
  s.update i fun c ↦ { c with phase := .left e }

/-- The departure of a client whose reader ends while everyone else rests. -/
theorem leads_leave {e : Ending} (hs : (s.close c.client.id e).Quiet)
    (hc : s.connections[c.client.id]? = some c) (hphase : c.phase = .reading)
    (hnext : c.inbox.next = .stop e) :
    Leads s ((s.close c.client.id e).part c.client) := by
  have hrequests : s.requests = [] := hs.requests
  have hdepartures : s.departures = [] := hs.departures
  have hgoesOn : s.stopped = false := hs.goesOn
  have hrunning : s.running = true := hs.running
  have hstep : s.readerStep c.client.id =
      some { s.close c.client.id e with departures := [c.client] } := by
    simp [readerStep, hc, connectionStep, hphase, hnext, leave, close, update, hrunning,
      hdepartures]
  refine .move ?_ (.reader _ (Or.inl hstep)) (hs.leads_departure c.client)
  intro u hmove
  cases hmove with
  | stopLoop h => simp [stopLoop_eq_none hgoesOn] at h
  | takeRequest h => simp [takeRequest_eq_none hrequests] at h
  | takeDeparture h => simp [takeDeparture_eq_none hdepartures] at h
  | reader j h =>
      rw [readerQuit_of_not_stopped hgoesOn] at h
      obtain h | ⟨⟨⟩⟩ := h
      by_cases hj : j = c.client.id
      · subst hj
        exact Option.some.inj (h.symm.trans hstep)
      · have hrests : ∀ d, s.connections[j]? = some d → d.Rests := by
          intro d hd
          have hd' : (s.close c.client.id e).connections[j]? = some d := by
            simp [close, update, hd, Ne.symm hj]
          exact hs.rests d (List.mem_of_getElem? hd')
        simp [readerStep_of_rests hrests] at h
  | task h =>
      have htasks : s.tasks = [] := hs.tasks
      simp [taskStep, htasks] at h

end Session

end KvServer
