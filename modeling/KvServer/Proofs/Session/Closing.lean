import KvServer.Proofs.Session.Disconnection
import KvServer.Proofs.Session.Shutdown

/-!
# Closing down

A session at rest is told to stop.  Nobody in it prefers that to his own work: every reader reports
the departure of its client as it closes the connection, and the event loop may take some of these
departures before it stops, each of which makes a task of revoking a mark.  That is all that can
come of it, in whatever order things happen (`Closing`): at the end the session is down, and its
store lacks the marks of some clients (`closes_of_isIdle`).  Any clients that are connected can be
among them (`Poised.exists_course`).
-/

namespace KvServer

open Text

/-- The reader of a connection rests, or it waits for a permit where there is none. -/
def Connection.Waits (permits : Nat) (c : Connection) : Prop :=
  c.Rests ∨ permits = 0 ∧ ∃ frame, c.phase = .holding frame

namespace Dispatch

variable {σ : Type} [Store σ] {secret : Option String} {identity : String} {s : TimedStore σ}

theorem revoke_store (hsecret : secret.isSome = true) :
    (revoke secret identity s).store = (Store.call (.delete identity) s.store).2 := by
  rw [revoke, if_pos hsecret]
  rfl

theorem still_revoke (h : s.Still) : (revoke secret identity s).Still := by
  unfold revoke
  split <;> exact h

end Dispatch

namespace Session

section Rest

variable {σ : Type} {s : Session σ} {c : Connection}

theorem waits_of_isIdle (hcapacity : 0 < s.options.queueCapacity) (h : s.isIdle = true) :
    ∀ c ∈ s.connections, c.Waits s.permits := by
  obtain ⟨-, hrequest, -, -, hreaders⟩ := isIdle_iff.mp h
  intro c hc
  have hstep := (hreaders c hc).1
  cases hphase : c.phase with
  | reading =>
      cases hnext : c.inbox.next with
      | frame bytes rest => simp [connectionStep, hphase, hnext] at hstep
      | stop e => simp [connectionStep, hphase, hnext] at hstep
      | wait => exact .inl (.inr ⟨hphase, hnext⟩)
  | holding frame =>
      by_cases hpermits : s.permits = 0
      · exact .inr ⟨hpermits, frame, hphase⟩
      · simp [connectionStep, hphase, hpermits] at hstep
  | permitted frame =>
      -- the queue has a place as long as anyone takes requests off it
      cases hrunning : s.running with
      | false => simp [connectionStep, hphase, hrunning] at hstep
      | true =>
          have hrequests := requests_eq_nil hrunning hrequest
          simp [connectionStep, hphase, hrunning, hrequests, hcapacity] at hstep
  | left e => exact .inl (.inl (by simp [Connection.isClosed, hphase]))

theorem connectionStep_of_waits (h : c.Waits s.permits) : s.connectionStep c = none := by
  rcases h with hrests | ⟨hpermits, frame, hphase⟩
  · exact connectionStep_of_rests hrests
  · simp [connectionStep, hphase, hpermits]

theorem connectionQuit_of_waits (hstop : s.stopped = true) (h : c.Waits s.permits)
    (hopen : c.isClosed = false) : s.connectionQuit c = some (s.leave c.client .shutdown) := by
  rcases h with (hclosed | ⟨hphase, -⟩) | ⟨-, frame, hphase⟩
  · rw [hclosed] at hopen
    cases hopen
  · simp [connectionQuit, hphase, hstop]
  · simp [connectionQuit, hphase, hstop]

/-- A client whose connection is open. -/
def Attached (s : Session σ) (client : Client) : Prop :=
  ∃ c, s.connections[client.id]? = some c ∧ c.client = client ∧ c.isClosed = false

theorem Attached.id_inj {client other : Client} (h : s.Attached client) (h' : s.Attached other)
    (hid : client.id = other.id) : client = other := by
  obtain ⟨c, hc, rfl, -⟩ := h
  obtain ⟨d, hd, rfl, -⟩ := h'
  rw [← hid, hc] at hd
  cases hd
  rfl

/-- Clients whose marks a shutdown may take away: their connections are open, the registry has them,
and the event loop is one that revokes the marks of those who depart. -/
structure Revocable (s : Session σ) (clients : List Client) : Prop where
  nodup : clients.Nodup
  attached : ∀ c ∈ clients, s.Attached c
  registered : ∀ c ∈ clients, c.id ∈ s.registry.members
  revokes : clients ≠ [] →
    s.running = true ∧ s.options.revokeOnDisconnect = true ∧ s.options.secret.isSome = true

theorem Revocable.nil : s.Revocable [] where
  nodup := List.nodup_nil
  attached := by simp
  registered := by simp
  revokes := by simp

theorem Revocable.concat {clients : List Client} {client : Client} (h : s.Revocable clients)
    (hfresh : client ∉ clients) (hattached : s.Attached client)
    (hregistered : client.id ∈ s.registry.members)
    (hrevokes : s.running = true ∧ s.options.revokeOnDisconnect = true ∧
      s.options.secret.isSome = true) : s.Revocable (clients ++ [client]) where
  nodup := List.nodup_append'.mpr ⟨h.nodup, by simp, by simpa using hfresh⟩
  attached := List.forall_mem_append.mpr ⟨h.attached, by simpa using hattached⟩
  registered := List.forall_mem_append.mpr ⟨h.registered, by simpa using hregistered⟩
  revokes _ := hrevokes

theorem Revocable.perm {clients clients' : List Client} (h : s.Revocable clients)
    (hperm : clients.Perm clients') : s.Revocable clients' where
  nodup := hperm.nodup_iff.mp h.nodup
  attached c hc := h.attached c (hperm.mem_iff.mpr hc)
  registered c hc := h.registered c (hperm.mem_iff.mpr hc)
  revokes hne := h.revokes fun hnil ↦ hne (List.nil_perm.mp (hnil ▸ hperm))

theorem Revocable.of_append {clients more : List Client} (h : s.Revocable (clients ++ more)) :
    s.Revocable clients where
  nodup := h.nodup.of_append_left
  attached c hc := h.attached c (List.mem_append_left _ hc)
  registered c hc := h.registered c (List.mem_append_left _ hc)
  revokes hne := h.revokes (List.append_ne_nil_of_left_ne_nil hne more)

end Rest

variable {σ : Type} [Store σ]

/-- The marks of some clients are taken away, one after the other. -/
def revokeAll (clients : List Client) (store : Recorded σ) : Recorded σ :=
  clients.foldl (fun store c ↦ (Store.call (.delete c.identity) store).2) store

theorem revokeAll_concat (clients : List Client) (c : Client) (store : Recorded σ) :
    revokeAll (clients ++ [c]) store =
      (Store.call (.delete c.identity) (revokeAll clients store)).2 := List.foldl_concat ..

/-- `t` is what becomes of a session that is told to stop at `s`.  The event loop has taken the
departures of the clients in `earlier`, `late` and `pending`.  The marks of those in `pending` are
still there, and those in `late` have lost theirs since the store was `base`. -/
structure Closing (s : Session (Recorded σ)) (base : Recorded σ)
    (earlier late pending : List Client) (t : Session (Recorded σ)) : Prop where
  numbered : t.Numbered
  options : t.options = s.options
  stopped : t.stopped = true
  still : t.data.Still
  permits : t.permits = s.permits
  running : t.running = true → s.running = true
  requests : t.running = true → t.requests = []
  /-- Connections stay as they were until they are closed. -/
  connections : ∀ i : Nat, t.connections[i]? = s.connections[i]? ∨
    ∃ c : Connection, s.connections[i]? = some c ∧ c.isClosed = false ∧
      t.connections[i]? = some { c with phase := .left .shutdown }
  departures : t.running = true → ∀ c ∈ t.departures, s.Attached c
  registry : ∀ id ∈ t.registry.members, id ∈ s.registry.members
  tasks : t.tasks = pending.map fun c ↦ .revoke c.identity
  store : t.data.store = revokeAll late base
  revocable : s.Revocable (earlier ++ late ++ pending)
  unregistered : ∀ c ∈ earlier ++ late ++ pending, c.id ∉ t.registry.members

namespace Closing

variable {s t t' : Session (Recorded σ)} {base : Recorded σ} {earlier late pending : List Client}
  {i k : Nat}

/-! ## What can happen -/

theorem stopLoop (h : Closing s base earlier late pending t) (hstep : t.stopLoop = some t') :
    Closing s base earlier late pending t' := by
  obtain ⟨hrunning, -, rfl⟩ := stopLoop_eq_some hstep
  exact { h with
    permits := by simp [h.requests hrunning, h.permits]
    running := by simp
    requests := by simp
    departures := by simp }

/-- A connection that is open has not changed. -/
theorem connection_of_open (h : Closing s base earlier late pending t) {c : Connection}
    (hc : t.connections[i]? = some c) (hopen : c.isClosed = false) :
    s.connections[i]? = some c := by
  rcases h.connections i with hsame | ⟨d, -, -, hd⟩
  · rw [← hsame, hc]
  · rw [hc] at hd
    cases hd
    simp [Connection.isClosed] at hopen

theorem quit (h : Closing s base earlier late pending t) (hstep : t.readerQuit i = some t') :
    Closing s base earlier late pending t' := by
  obtain ⟨c, hc, hphase, -, rfl⟩ := readerQuit_eq_some hstep
  obtain rfl := h.numbered i c hc
  have hopen : c.isClosed = false := by
    rcases hphase with hphase | ⟨frame, hphase⟩ <;> simp [Connection.isClosed, hphase]
  have hsame := h.connection_of_open hc hopen
  exact { h with
    numbered := h.numbered.leave c.client .shutdown
    connections := by
      intro j
      by_cases hj : c.client.id = j
      · subst hj
        exact .inr ⟨c, hsame, hopen, by simp [leave, update, hc]⟩
      · simpa [leave, update, hj] using h.connections j
    departures := by
      intro hrunning d hd
      have hd' : d ∈ t.departures ++ [c.client] := by
        have hrunning' : t.running = true := hrunning
        simpa [leave, update, hrunning'] using hd
      rcases List.mem_append.mp hd' with hd | hd
      · exact h.departures hrunning d hd
      · rw [List.mem_singleton.mp hd]
        exact ⟨c, hsame, rfl, hopen⟩ }

theorem takeDeparture (h : Closing s base earlier late pending t)
    (hstep : t.takeDeparture = some t') :
    ∃ pending', Closing s base earlier late pending' t' := by
  obtain ⟨hrunning, c, rest, hdepartures, rfl⟩ := takeDeparture_eq_some hstep
  have hrest : ∀ d ∈ rest, s.Attached d := by
    intro d hd
    exact h.departures hrunning d (by simp [hdepartures, hd])
  rw [unregister_eq]
  split
  · rename_i hcond
    simp only [Bool.and_eq_true, Registry.remove_fst, Std.ExtTreeMap.isSome_getElem?_iff_mem]
      at hcond
    obtain ⟨⟨hmember, hrevoke⟩, hsecret⟩ := hcond
    have hfresh : c ∉ earlier ++ late ++ pending := fun hc ↦ h.unregistered c hc hmember
    refine ⟨pending ++ [c], { h with
      departures := fun _ ↦ hrest
      registry := fun id hid ↦ h.registry id (Registry.mem_remove.mp hid).2
      tasks := by simp [h.tasks]
      revocable := ?_
      unregistered := ?_ }⟩
    · rw [← List.append_assoc]
      exact h.revocable.concat hfresh (h.departures hrunning c (by simp [hdepartures]))
        (h.registry c.id hmember) ⟨h.running hrunning, h.options ▸ hrevoke, h.options ▸ hsecret⟩
    · intro d hd hid
      obtain ⟨hne, hid⟩ := Registry.mem_remove.mp hid
      rw [← List.append_assoc] at hd
      rcases List.mem_append.mp hd with hd | hd
      · exact h.unregistered d hd hid
      · exact hne (by rw [List.mem_singleton.mp hd])
  · exact ⟨pending, { h with
      departures := fun _ ↦ hrest
      registry := fun id hid ↦ h.registry id (Registry.mem_remove.mp hid).2
      unregistered := fun d hd hid ↦ h.unregistered d hd (Registry.mem_remove.mp hid).2 }⟩

theorem task (h : Closing s base earlier late pending t) (hstep : t.taskStep k = some t') :
    ∃ late' pending', Closing s base earlier late' pending' t' := by
  cases hpending : pending[k]? with
  | none => simp [taskStep, h.tasks, hpending] at hstep
  | some c =>
      have hsecret : s.options.secret.isSome = true := by
        refine (h.revocable.revokes ?_).2.2
        intro hnil
        rw [List.append_eq_nil_iff] at hnil
        simp [hnil.2] at hpending
      have hperm : (earlier ++ late ++ pending).Perm
          (earlier ++ (late ++ [c]) ++ pending.eraseIdx k) := by
        obtain ⟨hk, rfl⟩ := List.getElem?_eq_some_iff.mp hpending
        have herase := (List.getElem_cons_eraseIdx_perm hk).symm
        simpa only [List.append_assoc, List.singleton_append] using
          (herase.append_left late).append_left earlier
      simp only [taskStep, h.tasks, List.getElem?_map, hpending, Option.map_some,
        Option.some.injEq] at hstep
      subst hstep
      refine ⟨late ++ [c], pending.eraseIdx k, { h with
        stopped := ?_, still := ?_, tasks := ?_, store := ?_
        revocable := h.revocable.perm hperm
        unregistered := fun d hd ↦ h.unregistered d (hperm.mem_iff.mpr hd) }⟩
      · exact (congrArg Channel.stopped Dispatch.revoke_channel).trans h.stopped
      · exact Dispatch.still_revoke h.still
      · simp [List.eraseIdx_map]
      · rw [Dispatch.revoke_store (h.options ▸ hsecret), h.store, revokeAll_concat]

/-- Nobody takes a frame, a permit or a request any more. -/
theorem readerStep_eq_none (h : Closing s base earlier late pending t)
    (hwaits : ∀ c ∈ s.connections, c.Waits s.permits) (i : Nat) : t.readerStep i = none := by
  rw [readerStep, Option.bind_eq_none_iff]
  intro c hc
  cases hclosed : c.isClosed with
  | true => exact connectionStep_of_rests (.inl hclosed)
  | false =>
      have hsame := h.connection_of_open hc hclosed
      apply connectionStep_of_waits
      rw [h.permits]
      exact hwaits c (List.mem_of_getElem? hsame)

theorem takeRequest_eq_none (h : Closing s base earlier late pending t) : t.takeRequest = none := by
  cases hrunning : t.running with
  | false => simp [takeRequest, hrunning]
  | true => exact Session.takeRequest_eq_none (h.requests hrunning)

theorem next (h : Closing s base earlier late pending t)
    (hwaits : ∀ c ∈ s.connections, c.Waits s.permits) {e : Event} (he : ∀ st, e ≠ .outside st)
    (hnext : e.next t = some t') : ∃ late' pending', Closing s base earlier late' pending' t' := by
  cases e with
  | outside st => exact absurd rfl (he st)
  | stopLoop => exact ⟨late, pending, h.stopLoop hnext⟩
  | takeRequest => simp [Event.next, h.takeRequest_eq_none] at hnext
  | takeDeparture => exact ⟨late, h.takeDeparture hnext⟩
  | reader i => simp [Event.next, h.readerStep_eq_none hwaits i] at hnext
  | quit i => exact ⟨late, pending, h.quit hnext⟩
  | task k => exact h.task hnext

theorem course (h : Closing s base earlier late pending t)
    (hwaits : ∀ c ∈ s.connections, c.Waits s.permits) {own : List Event} (hown : script own = []) :
    ∃ late' pending', Closing s base earlier late' pending' (Session.course own t).2 := by
  induction own generalizing late pending t with
  | nil => exact ⟨late, pending, h⟩
  | cons e own ih =>
      obtain ⟨he, hown⟩ := script_cons_eq_nil hown
      cases hnext : e.next t with
      | none =>
          simp only [Session.course, hnext]
          exact ih h hown
      | some t' =>
          obtain ⟨late', pending', h'⟩ := h.next hwaits he hnext
          simp only [Session.course, hnext]
          exact ih h' hown

/-! ## From the signal to the end -/

theorem peers_eq (h : Closing s base earlier late pending t) : t.peers = s.peers := by
  apply List.ext_getElem?
  intro i
  rw [peers, peers, List.getElem?_map, List.getElem?_map]
  rcases h.connections i with hsame | ⟨c, hc, -, hc'⟩
  · rw [hsame]
  · rw [hc, hc']
    rfl

/-- Everyone has ended once no one can go on. -/
theorem down (h : Closing s base earlier late pending t)
    (hwaits : ∀ c ∈ s.connections, c.Waits s.permits) (hidle : t.isIdle = true) :
    t.Down ∧ pending = [] := by
  obtain ⟨hstop, -, -, htasks, hreaders⟩ := isIdle_iff.mp hidle
  have hrunning : t.running = false := by
    cases hrunning : t.running with
    | false => rfl
    | true => simp [Session.stopLoop, hrunning, h.stopped] at hstop
  refine ⟨⟨hrunning, htasks, fun c hc ↦ ?_, h.still⟩, ?_⟩
  · cases hclosed : c.isClosed with
    | true => rfl
    | false =>
        -- its reader would notice the shutdown
        obtain ⟨i, hi⟩ := List.mem_iff_getElem?.mp hc
        have hwait : c.Waits t.permits := by
          rw [h.permits]
          exact hwaits c (List.mem_of_getElem? (h.connection_of_open hi hclosed))
        have hquit := connectionQuit_of_waits h.stopped hwait hclosed
        simp [(hreaders c hc).2] at hquit
  · have hnone := h.tasks
    rw [htasks] at hnone
    exact List.map_eq_nil_iff.mp hnone.symm

end Closing

variable {s t : Session (Recorded σ)} {sig : Signal}

theorem stopped_signal (hsig : sig.Stops) (data : TimedStore (Recorded σ)) :
    (data.signal sig).channel.stopped = true ∧ (data.signal sig).store = data.store ∧
      (data.signal sig).Still := by
  have hstop : (data.channel.after sig).stopped = true := by
    obtain rfl | rfl := hsig <;>
      cases hvalue : data.channel.value <;> cases hattached : data.channel.attached <;>
        simp [Channel.after, Channel.stopped, hvalue, hattached]
  rw [TimedStore.signal, TimedStore.settle_channel, TimedStore.settle_of_stopped hstop]
  exact ⟨hstop, rfl, TimedStore.still_endTimers _⟩

/-- A session at rest when it is told to stop. -/
theorem closing_signal (hs : s.Numbered) (hidle : s.isIdle = true) (hsig : sig.Stops) :
    Closing s s.data.store [] [] [] (s.act (.signal sig)).2 := by
  obtain ⟨-, hrequest, hdeparture, htasks, -⟩ := isIdle_iff.mp hidle
  obtain ⟨hstop, hstore, hstill⟩ := stopped_signal hsig s.data
  constructor
  case numbered => exact hs
  case stopped => exact hstop
  case still => exact hstill
  case requests => exact fun hrunning ↦ requests_eq_nil (s := s) hrunning hrequest
  case departures =>
    intro hrunning c hc
    have hnone : s.departures = [] := departures_eq_nil hrunning hdeparture
    have hc' : c ∈ s.departures := hc
    simp [hnone] at hc'
  case connections => exact fun i ↦ .inl rfl
  case tasks => exact htasks
  case store => exact hstore
  case revocable => exact .nil
  case options | permits => rfl
  case running => exact id
  case registry => exact fun _ ↦ id
  case unregistered => simp

/-! ## It comes to an end -/

/-- How many of some events can happen. -/
def happening : List Event → Session (Recorded σ) → Nat
  | [], _ => 0
  | e :: es, s =>
      match e.next s with
      | none => happening es s
      | some s' => happening es s' + 1

/-- Whatever a session does by itself lowers its work. -/
theorem happening_add_work_le (hs : s.Numbered) {own : List Event} (hown : script own = []) :
    happening own s + (course own s).2.work ≤ s.work := by
  induction own generalizing s with
  | nil => simp [happening, course]
  | cons e own ih =>
      obtain ⟨he, hown⟩ := script_cons_eq_nil hown
      cases hnext : e.next s with
      | none => simpa only [happening, course, hnext] using ih hs hown
      | some s' =>
          have hlt : s'.work < s.work := by
            rcases move_or_task_of_next he hnext with hmove | ⟨k, htask⟩
            · exact hmove.work_lt hs
            · exact work_taskStep_lt htask
          have hrest := ih (numbered_next hs hnext) hown
          simp only [happening, course, hnext]
          omega

/-- No order is endless, and every one can be gone on with to its end. -/
def Ends (s : Session (Recorded σ)) : Prop :=
  ∀ own, script own = [] →
    happening own s ≤ s.work ∧ ∃ more, script more = [] ∧ (course (own ++ more) s).2.isIdle = true

theorem Numbered.ends (hs : s.Numbered) : s.Ends := by
  intro own hown
  have hwork := happening_add_work_le hs hown
  obtain ⟨more, hmore, hsettle⟩ := exists_course_settle (course own s).2
  refine ⟨by omega, more, hmore, ?_⟩
  rw [course_append]
  dsimp only
  rw [hsettle]
  exact isIdle_settle (numbered_course hs own)

/-! ## Any clients that are connected -/

/-- A session that has been told to stop, with nothing under way. -/
structure Poised (s : Session (Recorded σ)) : Prop where
  numbered : s.Numbered
  stopped : s.stopped = true
  waits : ∀ c ∈ s.connections, c.Waits s.permits
  departures : s.running = true → s.departures = []
  tasks : s.tasks = []

/-- The reader of a client may be the first to notice the shutdown, the event loop takes the
departure, and the task that it makes runs. -/
theorem Poised.revoke {client : Client} {rest : List Client} (hs : s.Poised)
    (h : s.Revocable (client :: rest)) :
    let t := (course [.quit client.id, .takeDeparture, .task 0] s).2
    t.Poised ∧ t.Revocable rest ∧
      t.data.store = (Store.call (.delete client.identity) s.data.store).2 := by
  obtain ⟨c, hc, rfl, hopen⟩ := h.attached client List.mem_cons_self
  obtain ⟨hrunning, hrevoke, hsecret⟩ := h.revokes (by simp)
  have hmember := h.registered c.client List.mem_cons_self
  have hquit : s.readerQuit c.client.id =
      some { s.update c.client.id fun c ↦ { c with phase := .left .shutdown } with
        departures := [c.client] } := by
    rw [readerQuit, hc, Option.bind_some,
      connectionQuit_of_waits hs.stopped (hs.waits c (List.mem_of_getElem? hc)) hopen, leave]
    simp [update, hrunning, hs.departures hrunning]
  intro t
  have ht : t =
      { s.update c.client.id fun c ↦ { c with phase := .left .shutdown } with
        departures := []
        registry := (s.registry.remove c.client.id).2
        data := Dispatch.revoke s.options.secret c.client.identity s.data
        tasks := [] } := by
    have hremoved : (s.registry.remove c.client.id).1.isSome = true := by
      rwa [Registry.remove_fst, Std.ExtTreeMap.isSome_getElem?_iff_mem]
    simp [t, course, Event.next, hquit, takeDeparture, update, hrunning, unregister_eq, hremoved,
      hrevoke, hsecret, hs.tasks, taskStep]
  have hother : ∀ d ∈ rest, c.client.id ≠ d.id := by
    intro d hd hid
    have hattached := h.attached d (List.mem_cons_of_mem _ hd)
    have hsame := (h.attached c.client List.mem_cons_self).id_inj hattached hid
    exact (List.nodup_cons.mp h.nodup).1 (hsame ▸ hd)
  rw [ht]
  refine ⟨⟨hs.numbered.update fun _ ↦ rfl, ?_, ?_, fun _ ↦ rfl, rfl⟩, ⟨h.nodup.of_cons, ?_, ?_,
    fun _ ↦ ⟨hrunning, hrevoke, hsecret⟩⟩, Dispatch.revoke_store hsecret⟩
  · exact (congrArg Channel.stopped Dispatch.revoke_channel).trans hs.stopped
  · intro d hd
    rcases exists_of_mem_modify hd with hd | ⟨e, -, rfl⟩
    · exact hs.waits d hd
    · exact .inl (.inl rfl)
  · intro d hd
    obtain ⟨e, he, hclient, hopen'⟩ := h.attached d (List.mem_cons_of_mem _ hd)
    exact ⟨e, by simp [update, hother d hd, he], hclient, hopen'⟩
  · intro d hd
    exact Registry.mem_remove.mpr ⟨hother d hd, h.registered d (List.mem_cons_of_mem _ hd)⟩

theorem Poised.revokeAll {clients : List Client} (hs : s.Poised) (h : s.Revocable clients) :
    ∃ own, script own = [] ∧ (course own s).2.Poised ∧
      (course own s).2.data.store = Session.revokeAll clients s.data.store := by
  induction clients generalizing s with
  | nil => exact ⟨[], rfl, hs, rfl⟩
  | cons client rest ih =>
      obtain ⟨hpoised, hrest, hstore⟩ := hs.revoke h
      obtain ⟨own, hown, hlast, hall⟩ := ih hpoised hrest
      refine ⟨[.quit client.id, .takeDeparture, .task 0] ++ own, hown, ?_⟩
      rw [course_append]
      refine ⟨hlast, ?_⟩
      rw [hall, hstore]
      rfl

/-- Without the event loop and its tasks, nobody touches the store. -/
theorem store_of_halted (hrunning : s.running = false) (htasks : s.tasks = []) {own : List Event}
    (hown : script own = []) : (course own s).2.data.store = s.data.store := by
  induction own generalizing s with
  | nil => rfl
  | cons e own ih =>
      obtain ⟨he, hown⟩ := script_cons_eq_nil hown
      cases hnext : e.next s with
      | none => simpa only [course, hnext] using ih hrunning htasks hown
      | some s' =>
          have hsame : s'.running = false ∧ s'.tasks = [] ∧ s'.data = s.data := by
            cases e with
            | outside st => exact absurd rfl (he st)
            | stopLoop => simp [Event.next, stopLoop, hrunning] at hnext
            | takeRequest => simp [Event.next, takeRequest, hrunning] at hnext
            | takeDeparture => simp [Event.next, takeDeparture, hrunning] at hnext
            | reader i =>
                obtain ⟨c, -, hmove⟩ := readerStep_eq_some hnext
                cases hmove with
                | leave | hold | permit | enqueue | detach => exact ⟨hrunning, htasks, rfl⟩
            | quit i =>
                obtain ⟨c, -, -, -, rfl⟩ := readerQuit_eq_some hnext
                exact ⟨hrunning, htasks, rfl⟩
            | task k => simp [Event.next, taskStep, htasks] at hnext
          simp only [course, hnext]
          rw [ih hsame.1 hsame.2.1 hown, hsame.2.2]

theorem Poised.stopLoop (hs : s.Poised) :
    let t := (course [.stopLoop] s).2
    t.Numbered ∧ t.running = false ∧ t.tasks = [] ∧ t.data = s.data := by
  cases hrunning : s.running with
  | true =>
      simp only [course, Event.next, Session.stopLoop, hrunning, hs.stopped, Bool.and_self, if_true]
      exact ⟨hs.numbered, trivial, hs.tasks, trivial⟩
  | false =>
      simp only [course, Event.next, Session.stopLoop, hrunning, Bool.false_and]
      exact ⟨hs.numbered, hrunning, hs.tasks, rfl⟩

theorem Poised.exists_course {clients : List Client} (hs : s.Poised) (h : s.Revocable clients) :
    ∃ own, script own = [] ∧ (course own s).2.isIdle = true ∧
      (course own s).2.data.store = Session.revokeAll clients s.data.store := by
  obtain ⟨own, hown, hlast, hstore⟩ := hs.revokeAll h
  obtain ⟨hnumbered, hrunning, htasks, hdata⟩ := hlast.stopLoop
  obtain ⟨-, more, hmore, hidle⟩ := hnumbered.ends [] rfl
  refine ⟨own ++ ([.stopLoop] ++ more), ?_, ?_⟩
  · rw [script_append, script_append, hown, hmore]
    rfl
  · rw [course_append, course_append]
    refine ⟨hidle, ?_⟩
    rw [← hstore, ← hdata]
    exact store_of_halted hrunning htasks hmore

/-- A session at rest that has been told to stop is poised. -/
theorem poised_signal (hs : s.Numbered) (hidle : s.isIdle = true)
    (hwaits : ∀ c ∈ s.connections, c.Waits s.permits) (hsig : sig.Stops) :
    (s.act (.signal sig)).2.Poised := by
  obtain ⟨-, -, hdeparture, htasks, -⟩ := isIdle_iff.mp hidle
  exact ⟨hs, (stopped_signal hsig s.data).1, hwaits,
    fun hrunning ↦ departures_eq_nil (s := s) hrunning hdeparture, htasks⟩

/-- Whatever the order, a session that is told to stop at `s` goes down. -/
structure Closes (s told : Session (Recorded σ)) : Prop where
  ends : told.Ends
  /-- At the end the session is shut down, and the store lacks the marks of some clients. -/
  down : ∀ own, script own = [] → (course own told).2.isIdle = true →
    ∃ gone, s.Revocable gone ∧ ShutDown s (course own told).2 (revokeAll gone s.data.store)
  /-- Any clients that are connected may be among them. -/
  every : ∀ gone, s.Revocable gone → ∃ own, script own = [] ∧
    (course own told).2.isIdle = true ∧ (course own told).2.data.store = revokeAll gone s.data.store

/-- The end of every order. -/
theorem down_of_isIdle (hs : s.Numbered) (hcapacity : 0 < s.options.queueCapacity)
    (hidle : s.isIdle = true) (hsig : sig.Stops) {own : List Event} (hown : script own = [])
    (hlast : (course own (s.act (.signal sig)).2).2.isIdle = true) :
    let t := (course own (s.act (.signal sig)).2).2
    t.Down ∧ t.peers = s.peers ∧
      ∃ gone, s.Revocable gone ∧ t.data.store = revokeAll gone s.data.store := by
  have hwaits := waits_of_isIdle hcapacity hidle
  obtain ⟨late, pending, hclosing⟩ := (closing_signal hs hidle hsig).course hwaits hown
  obtain ⟨hdown, rfl⟩ := hclosing.down hwaits hlast
  exact ⟨hdown, hclosing.peers_eq, late, by simpa using hclosing.revocable, hclosing.store⟩

theorem closes_of_isIdle (hs : s.Numbered) (hcapacity : 0 < s.options.queueCapacity)
    (hidle : s.isIdle = true) (hsig : sig.Stops) : Closes s (s.act (.signal sig)).2 := by
  have hwaits := waits_of_isIdle hcapacity hidle
  have htold : (s.act (.signal sig)).2.Numbered := hs
  have hstore : (s.act (.signal sig)).2.data.store = s.data.store :=
    (stopped_signal hsig s.data).2.1
  constructor
  · exact htold.ends
  · intro own hown hlast
    obtain ⟨hdown, hpeers, gone, hgone, hlost⟩ :=
      down_of_isIdle hs hcapacity hidle hsig hown hlast
    refine ⟨gone, hgone, ?_⟩
    rw [← hlost]
    exact hdown.shutDown hpeers
  · intro gone hgone
    have htaken : (s.act (.signal sig)).2.Revocable gone := { hgone with }
    rw [← hstore]
    exact (poised_signal hs hidle hwaits hsig).exists_course htaken

/-- Over a whole course with a shutdown in it, every peer that is still there at the shutdown sees
the end of its connection once, and no peer sees it twice. -/
theorem endsSeen_of_shutdown {s₀ : Session (Recorded σ)} {es own : List Event}
    (hs₀ : s₀.Numbered) (hnone : s₀.connections = [])
    (hdown : (course own ((course es s₀).2.act (.signal sig)).2).2.Down)
    (hpeers : (course own ((course es s₀).2.act (.signal sig)).2).2.peers = (course es s₀).2.peers)
    (later : List Event) (i : Nat) :
    endsSeen i (es ++ .outside (.signal sig) :: own ++ later) s₀ ≤ 1 ∧
      ((course es s₀).2.connections[i]?.any Connection.present = true →
        endsSeen i (es ++ .outside (.signal sig) :: own ++ later) s₀ = 1) := by
  have hstart : Told i 0 s₀ := ⟨Nat.zero_le _, by simp [hnone]⟩
  have hend := hstart.course hs₀ (es ++ .outside (.signal sig) :: own ++ later)
  rw [Nat.zero_add] at hend
  refine ⟨hend.le_one, fun hpresent ↦ ?_⟩
  have htold := (hstart.course hs₀ (es ++ .outside (.signal sig) :: own)).eq_of_present
  have hlast : (course (es ++ .outside (.signal sig) :: own) s₀).2 =
      (course own ((course es s₀).2.act (.signal sig)).2).2 := by
    rw [course_append]
    rfl
  obtain ⟨c, hc, hthere⟩ := (Option.any_eq_true _ _).mp hpresent
  obtain ⟨c', hc', hpresent'⟩ := exists_connection_of_peers hpeers hc
  rw [hlast, hc', Option.any_some, Option.any_some, hpresent', hthere,
    hdown.closed c' (List.mem_of_getElem? hc'), Nat.zero_add] at htold
  have htold' := htold rfl
  have hle := hend.le_one
  rw [endsSeen_append] at hle ⊢
  simp only [Bool.toNat_true] at htold'
  omega

end Session

end KvServer
