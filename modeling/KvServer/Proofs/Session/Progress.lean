import KvServer.Session.Run
import Mathlib.Data.List.Basic

/-!
# A session goes on until no one can

A move is a step that the event loop, a reader or the first task takes.  `ReaderMove` says what the
move of a reader can be.  Every move lowers `Session.work`, so the turns of `settle` end in a state
in which no one can move (`isIdle_settle`); and what every move keeps, `settle` keeps
(`settle_induction`).
-/

namespace KvServer

open Text

theorem sum_map_modify {α : Type} (f : α → Nat) (g : α → α) {as : List α} {i : Nat} {a : α}
    (h : as[i]? = some a) :
    ((as.modify i g).map f).foldr (· + ·) 0 + f a = (as.map f).foldr (· + ·) 0 + f (g a) := by
  induction as generalizing i with
  | nil => cases h
  | cons b as ih =>
      cases i with
      | zero =>
          cases h
          simp only [List.modify_zero_cons, List.map_cons, List.foldr_cons]
          omega
      | succ i =>
          have hrest := ih h
          simp only [List.modify_succ_cons, List.map_cons, List.foldr_cons]
          omega

theorem sum_map_concat {α : Type} (f : α → Nat) (as : List α) (a : α) :
    ((as ++ [a]).map f).foldr (· + ·) 0 = (as.map f).foldr (· + ·) 0 + f a := by
  induction as with
  | nil => simp
  | cons b as ih =>
      simp only [List.cons_append, List.map_cons, List.foldr_cons, ih]
      omega

theorem sum_map_eraseIdx {α : Type} (f : α → Nat) {as : List α} {k : Nat} {a : α}
    (h : as[k]? = some a) :
    ((as.eraseIdx k).map f).foldr (· + ·) 0 + f a = (as.map f).foldr (· + ·) 0 := by
  induction as generalizing k with
  | nil => cases h
  | cons b as ih =>
      cases k with
      | zero =>
          cases h
          simp only [List.eraseIdx_cons_zero, List.map_cons, List.foldr_cons]
          omega
      | succ k =>
          have hrest := ih h
          simp only [List.eraseIdx_cons_succ, List.map_cons, List.foldr_cons]
          omega

namespace Session

variable {σ : Type} {s s' : Session σ} {c : Connection} {i : Nat}

/-- The number of each client is its place among the connections. -/
def Numbered (s : Session σ) : Prop :=
  ∀ (i : Nat) (c : Connection), s.connections[i]? = some c → c.client.id = i

/-! ## What a move can be -/

theorem stopLoop_eq_some (h : s.stopLoop = some s') :
    s.running = true ∧ s.stopped = true ∧
      s' = { s with
        running := false
        requests := []
        departures := []
        permits := s.permits + s.requests.length } := by
  unfold stopLoop at h
  split at h
  · rename_i hrun
    rw [Bool.and_eq_true] at hrun
    cases h
    exact ⟨hrun.1, hrun.2, rfl⟩
  · cases h

theorem takeRequest_eq_some (h : s.takeRequest = some s') :
    s.running = true ∧ ∃ r rest, s.requests = r :: rest ∧
      s' = { s with requests := rest, tasks := s.tasks ++ [.reply r] } := by
  unfold takeRequest at h
  split at h
  · rename_i r rest hrunning hrequests
    cases h
    exact ⟨hrunning, r, rest, hrequests, rfl⟩
  · cases h

theorem takeDeparture_eq_some (h : s.takeDeparture = some s') :
    s.running = true ∧ ∃ client rest, s.departures = client :: rest ∧
      s' = { s with departures := rest }.unregister client := by
  unfold takeDeparture at h
  split at h
  · rename_i client rest hrunning hdepartures
    cases h
    exact ⟨hrunning, client, rest, hdepartures, rfl⟩
  · cases h

/-- What the reader of a connection can do. -/
inductive ReaderMove (c : Connection) (s : Session σ) : Session σ → Prop
  | leave (e : Ending) (hphase : c.phase = .reading ∨ ∃ frame, c.phase = .holding frame)
      (hwhy : s.stopped = true ∨ (c.phase = .reading ∧ c.inbox.next = .stop e)) :
      ReaderMove c s (s.leave c.client e)
  | hold {bytes : Bytes} {rest : Inbox} (hphase : c.phase = .reading)
      (hnext : c.inbox.next = .frame bytes rest) :
      ReaderMove c s
        (s.update c.client.id fun c ↦ { c with phase := .holding bytes, inbox := rest })
  | permit {frame : Bytes} (hphase : c.phase = .holding frame) (hpermits : s.permits ≠ 0) :
      ReaderMove c s
        ({ s with permits := s.permits - 1 }.update c.client.id
          fun c ↦ { c with phase := .permitted frame })
  | enqueue {frame : Bytes} (hphase : c.phase = .permitted frame) (hrunning : s.running = true) :
      ReaderMove c s
        ((s.enqueue ⟨c.client, frame⟩).update c.client.id fun c ↦ { c with phase := .reading })
  | detach {frame : Bytes} (hphase : c.phase = .permitted frame) (hrunning : s.running = false) :
      ReaderMove c s (s.release.leave c.client .detached)

theorem connectionStep_eq_some (h : s.connectionStep c = some s') : ReaderMove c s s' := by
  unfold connectionStep at h
  split at h
  · rename_i hphase
    split at h
    · rename_i bytes rest hnext
      cases h
      exact .hold hphase hnext
    · rename_i e hnext
      cases h
      exact .leave e (Or.inl hphase) (Or.inr ⟨hphase, hnext⟩)
    · cases h
  · rename_i frame hphase
    split at h
    · cases h
    · rename_i hpermits
      cases h
      exact .permit hphase hpermits
  · rename_i frame hphase
    split at h
    · rename_i hrunning
      cases h
      exact .detach hphase (by simpa using hrunning)
    · rename_i hrunning
      split at h
      · cases h
        exact .enqueue hphase (by simpa using hrunning)
      · cases h
  · cases h

theorem connectionQuit_eq_some (h : s.connectionQuit c = some s') :
    (c.phase = .reading ∨ ∃ frame, c.phase = .holding frame) ∧ s.stopped = true ∧
      s' = s.leave c.client .shutdown := by
  unfold connectionQuit at h
  split at h
  · rename_i hphase
    obtain ⟨hstop, hnext⟩ := Option.ite_none_right_eq_some.mp h
    exact ⟨Or.inl hphase, hstop, (Option.some.inj hnext).symm⟩
  · rename_i frame hphase
    obtain ⟨hstop, hnext⟩ := Option.ite_none_right_eq_some.mp h
    exact ⟨Or.inr ⟨frame, hphase⟩, hstop, (Option.some.inj hnext).symm⟩
  · cases h
  · cases h

theorem readerStep_eq_some (h : s.readerStep i = some s') :
    ∃ c, s.connections[i]? = some c ∧ ReaderMove c s s' := by
  obtain ⟨c, hc, hstep⟩ := Option.bind_eq_some_iff.mp h
  exact ⟨c, hc, connectionStep_eq_some hstep⟩

theorem readerQuit_eq_some (h : s.readerQuit i = some s') :
    ∃ c, s.connections[i]? = some c ∧ (c.phase = .reading ∨ ∃ frame, c.phase = .holding frame) ∧
      s.stopped = true ∧ s' = s.leave c.client .shutdown := by
  obtain ⟨c, hc, hquit⟩ := Option.bind_eq_some_iff.mp h
  exact ⟨c, hc, connectionQuit_eq_some hquit⟩

/-- A reader goes on with what lies before it, or it notices the shutdown. -/
theorem reader_eq_some (h : s.readerStep i = some s' ∨ s.readerQuit i = some s') :
    ∃ c, s.connections[i]? = some c ∧ ReaderMove c s s' := by
  rcases h with h | h
  · exact readerStep_eq_some h
  · obtain ⟨c, hc, hphase, hstop, rfl⟩ := readerQuit_eq_some h
    exact ⟨c, hc, .leave _ hphase (Or.inl hstop)⟩

variable [Store σ]

inductive TaskMove (s : Session σ) : Session σ → Prop
  | reply {r : Request} {rest : List Task} (htasks : s.tasks = .reply r :: rest) :
      TaskMove s { s.answer r with tasks := .finish r :: rest }
  | finish {r : Request} {rest : List Task} (htasks : s.tasks = .finish r :: rest) :
      TaskMove s { s.release with tasks := rest }
  | revoke {identity : String} {rest : List Task} (htasks : s.tasks = .revoke identity :: rest) :
      TaskMove s { s with
        data := Dispatch.revoke s.options.secret identity s.data
        tasks := rest }

theorem taskStep_zero_eq_some (h : s.taskStep 0 = some s') : TaskMove s s' := by
  unfold taskStep at h
  cases htasks : s.tasks with
  | nil => simp [htasks] at h
  | cons t rest =>
      rw [htasks] at h
      cases t with
      | reply r =>
          cases h
          exact .reply htasks
      | finish r =>
          cases h
          exact .finish htasks
      | revoke identity =>
          cases h
          exact .revoke htasks

/-- A step of the event loop, of a reader or of the first task. -/
inductive Move (s s' : Session σ) : Prop
  | stopLoop (h : s.stopLoop = some s')
  | takeRequest (h : s.takeRequest = some s')
  | takeDeparture (h : s.takeDeparture = some s')
  | reader (i : Nat) (h : s.readerStep i = some s' ∨ s.readerQuit i = some s')
  | task (h : s.taskStep 0 = some s')

/-! ## Moves keep the numbers of the clients -/

section Updates

omit [Store σ]

theorem Numbered.update (hs : s.Numbered) {f : Connection → Connection}
    (hf : ∀ c, (f c).client = c.client) : (s.update i f).Numbered := by
  intro j c hc
  simp only [Session.update, List.getElem?_modify, Option.map_eq_map, Option.map_eq_some_iff] at hc
  obtain ⟨d, hd, rfl⟩ := hc
  split
  · rw [hf]
    exact hs j d hd
  · exact hs j d hd

theorem Numbered.leave (hs : s.Numbered) (client : Client) (e : Ending) :
    (s.leave client e).Numbered := hs.update fun _ ↦ rfl

theorem Numbered.readerMove (hs : s.Numbered) (h : ReaderMove c s s') : s'.Numbered := by
  cases h with
  | leave e => exact hs.leave c.client e
  | hold | permit | enqueue => exact Numbered.update hs fun _ ↦ rfl
  | detach => exact Numbered.leave hs c.client _

theorem unregister_connections (client : Client) (s : Session σ) :
    (s.unregister client).connections = s.connections := by
  unfold unregister
  split
  · rfl
  · split <;> rfl

theorem client_deliver (r : Reply) (c : Connection) : (c.deliver r).client = c.client := by
  unfold Connection.deliver
  split <;> rfl

end Updates

theorem Move.numbered (hs : s.Numbered) (h : Move s s') : s'.Numbered := by
  cases h with
  | stopLoop h =>
      obtain ⟨-, -, rfl⟩ := stopLoop_eq_some h
      exact hs
  | takeRequest h =>
      obtain ⟨-, r, rest, -, rfl⟩ := takeRequest_eq_some h
      exact hs
  | takeDeparture h =>
      obtain ⟨-, client, rest, -, rfl⟩ := takeDeparture_eq_some h
      unfold Numbered
      rw [unregister_connections]
      exact hs
  | reader i h =>
      obtain ⟨c, -, hmove⟩ := reader_eq_some h
      exact hs.readerMove hmove
  | task h =>
      cases taskStep_zero_eq_some h with
      | reply => exact Numbered.update hs (client_deliver _)
      | finish | revoke => exact hs

/-! ## Moves lower the work -/

section Updates

omit [Store σ]

theorem work_update (hc : s.connections[i]? = some c) (f : Connection → Connection) :
    (s.update i f).work + c.work = s.work + (f c).work := by
  have hsum := sum_map_modify Connection.work f hc
  simp only [work, update]
  omega

theorem work_leave (hc : s.connections[c.client.id]? = some c) (e : Ending) :
    (s.leave c.client e).work + c.work ≤ s.work + 2 := by
  have hupdate := work_update hc fun c ↦ { c with phase := .left e }
  have hdepartures : (s.leave c.client e).departures.length ≤ s.departures.length + 1 := by
    simp only [leave]
    split <;> simp [update]
  have hzero : ({ c with phase := .left e } : Connection).work = 0 := rfl
  simp only [work, leave, update] at hupdate hdepartures ⊢
  omega

theorem three_le_work (hphase : c.phase = .reading ∨ ∃ frame, c.phase = .holding frame) :
    3 ≤ c.work := by
  rcases hphase with h | ⟨frame, h⟩
  · simp only [Connection.work, h]
    omega
  · simp only [Connection.work, h]
    omega

theorem ReaderMove.work_lt (hc : s.connections[c.client.id]? = some c) (h : ReaderMove c s s') :
    s'.work < s.work := by
  cases h with
  | leave e hphase hwhy =>
      have hleave := work_leave hc e
      have hthree := three_le_work hphase
      omega
  | @hold bytes rest hphase hnext =>
      have hupdate := work_update hc fun c ↦ { c with phase := .holding bytes, inbox := rest }
      have hshorter := Inbox.next_frame_length hnext
      simp only [Connection.work, hphase] at hupdate
      omega
  | @permit frame hphase hpermits =>
      have hupdate := work_update hc fun c ↦ { c with phase := .permitted frame }
      simp only [Connection.work, hphase] at hupdate
      simp only [work, update] at hupdate ⊢
      omega
  | @enqueue frame hphase hrunning =>
      have hupdate := work_update hc fun c ↦ { c with phase := .reading }
      simp only [Connection.work, hphase] at hupdate
      simp only [work, update, Session.enqueue, List.length_append,
        List.length_singleton] at hupdate ⊢
      omega
  | @detach frame hphase hrunning =>
      have hleave := work_leave (s := s.release) hc .detached
      simp only [Connection.work, hphase] at hleave
      have hsame : s.release.work = s.work := rfl
      omega

theorem work_unregister (client : Client) (s : Session σ) :
    (s.unregister client).work ≤ s.work + 1 := by
  unfold unregister
  split
  · omega
  · split
    · simp only [work, sum_map_concat, Task.work]
      omega
    · simp [work]

end Updates

omit [Store σ] in
theorem work_deliver (i : Nat) (r : Reply) (s : Session σ) :
    (s.update i (·.deliver r)).work = s.work := by
  have hsame : ∀ c : Connection, (c.deliver r).work = c.work := by
    intro c
    unfold Connection.deliver
    split <;> rfl
  cases hc : s.connections[i]? with
  | none =>
      have hlen : s.connections.length ≤ i := List.getElem?_eq_none_iff.mp hc
      rw [update, List.modify_eq_self hlen]
  | some c =>
      have hupdate := work_update hc (·.deliver r)
      rw [hsame] at hupdate
      omega

theorem work_taskStep_lt {k : Nat} (h : s.taskStep k = some s') : s'.work < s.work := by
  unfold taskStep at h
  split at h
  · rename_i r htask
    cases h
    have hdeliver := work_deliver r.client.id
      (Dispatch.execute s.options.secret r.client.identity r.payload s.data).1 s
    have htasks := sum_map_modify Task.work (fun _ ↦ .finish r) htask
    rw [← List.set_eq_modify] at htasks
    simp only [work, answer, update, Task.work] at hdeliver htasks ⊢
    omega
  · rename_i r htask
    cases h
    have htasks := sum_map_eraseIdx Task.work htask
    simp only [work, release, Task.work] at htasks ⊢
    omega
  · rename_i identity htask
    cases h
    have htasks := sum_map_eraseIdx Task.work htask
    simp only [work, Task.work] at htasks ⊢
    omega
  · cases h

theorem Move.work_lt (hs : s.Numbered) (h : Move s s') : s'.work < s.work := by
  cases h with
  | stopLoop h =>
      obtain ⟨hrunning, -, rfl⟩ := stopLoop_eq_some h
      simp only [work, hrunning, List.length_nil, Bool.toNat_true, Bool.toNat_false]
      omega
  | takeRequest h =>
      obtain ⟨-, r, rest, hrequests, rfl⟩ := takeRequest_eq_some h
      simp only [work, hrequests, List.length_cons, sum_map_concat, Task.work]
      omega
  | takeDeparture h =>
      obtain ⟨-, client, rest, hdepartures, rfl⟩ := takeDeparture_eq_some h
      have hunregister := work_unregister client { s with departures := rest }
      simp only [work, hdepartures, List.length_cons] at hunregister ⊢
      omega
  | reader i h =>
      obtain ⟨c, hc, hmove⟩ := reader_eq_some h
      obtain rfl := hs i c hc
      exact hmove.work_lt hc
  | task h => exact work_taskStep_lt h

/-! ## Turns -/

/-- A part of a turn keeps the numbers of the clients, and it is blocked or lowers the work. -/
def Lowers (turn : Session σ → Session σ) (blocked : Session σ → Prop) : Prop :=
  ∀ s, s.Numbered →
    (turn s).Numbered ∧ ((turn s = s ∧ blocked s) ∨ (turn s).work < s.work)

omit [Store σ] in
theorem Lowers.comp {turn next : Session σ → Session σ} {blocked stuck : Session σ → Prop}
    (hturn : Lowers turn blocked) (hnext : Lowers next stuck) :
    Lowers (next ∘ turn) fun s ↦ blocked s ∧ stuck s := by
  intro s hs
  obtain ⟨hmiddle, hfirst⟩ := hturn s hs
  obtain ⟨hlast, hsecond⟩ := hnext (turn s) hmiddle
  refine ⟨hlast, ?_⟩
  rw [Function.comp_apply]
  rcases hfirst with ⟨hsame, hblocked⟩ | hlt
  · rw [hsame] at hsecond ⊢
    rcases hsecond with ⟨hsame, hstuck⟩ | hlt
    · exact Or.inl ⟨hsame, hblocked, hstuck⟩
    · exact Or.inr hlt
  · rcases hsecond with ⟨hsame, -⟩ | hlt'
    · rw [hsame]
      exact Or.inr hlt
    · exact Or.inr (Nat.lt_trans hlt' hlt)

section Exhaust

variable {step : Session σ → Option (Session σ)} (hmove : ∀ s s', step s = some s' → Move s s')

include hmove

/-- What each move keeps, its repetition keeps. -/
theorem exhaust_induction {P : Session σ → Prop} (hkeep : ∀ s s', P s → Move s s' → P s')
    (fuel : Nat) (hs : P s) : P (exhaust step fuel s) := by
  induction fuel generalizing s with
  | zero => exact hs
  | succ fuel ih =>
      unfold exhaust
      split
      · rename_i s' hstep
        exact ih (hkeep s s' hs (hmove s s' hstep))
      · exact hs

theorem exhaust_work_le (fuel : Nat) (hs : s.Numbered) :
    (exhaust step fuel s).Numbered ∧ (exhaust step fuel s).work ≤ s.work := by
  refine exhaust_induction hmove (P := fun t ↦ t.Numbered ∧ t.work ≤ s.work) ?_ fuel
    ⟨hs, Nat.le_refl _⟩
  rintro t t' ⟨ht, hle⟩ h
  exact ⟨h.numbered ht, Nat.le_trans (Nat.le_of_lt (h.work_lt ht)) hle⟩

theorem lowers_exhaust (fuel : Nat) :
    Lowers (exhaust step (fuel + 1)) fun s ↦ step s = none := by
  intro s hs
  refine ⟨(exhaust_work_le hmove (fuel + 1) hs).1, ?_⟩
  unfold exhaust
  split
  · rename_i s' hstep
    have hfirst := hmove s s' hstep
    have hrest := (exhaust_work_le hmove fuel (hfirst.numbered hs)).2
    exact Or.inr (Nat.lt_of_le_of_lt hrest (hfirst.work_lt hs))
  · rename_i hstep
    exact Or.inl ⟨rfl, hstep⟩

end Exhaust

def readersTurn (fuel : Nat) (is : List Nat) (s : Session σ) : Session σ :=
  is.foldl (fun s i ↦ exhaust (readerStep i) fuel (exhaust (readerQuit i) fuel s)) s

theorem readersTurn_induction {P : Session σ → Prop} (hkeep : ∀ s s', P s → Move s s' → P s')
    (fuel : Nat) (is : List Nat) (hs : P s) : P (readersTurn fuel is s) := by
  induction is generalizing s with
  | nil => exact hs
  | cons i is ih =>
      have hquit := exhaust_induction (fun _ _ h ↦ .reader i (Or.inr h)) hkeep fuel hs
      exact ih (exhaust_induction (fun _ _ h ↦ .reader i (Or.inl h)) hkeep fuel hquit)

theorem lowers_readersTurn (fuel : Nat) (is : List Nat) :
    Lowers (readersTurn (fuel + 1) is) fun s : Session σ ↦
      ∀ i ∈ is, s.readerStep i = none ∧ s.readerQuit i = none := by
  induction is with
  | nil =>
      intro s hs
      exact ⟨hs, Or.inl ⟨rfl, by simp⟩⟩
  | cons i is ih =>
      intro s hs
      have hquit : Lowers (exhaust (readerQuit (σ := σ) i) (fuel + 1)) fun s ↦
          s.readerQuit i = none :=
        lowers_exhaust (fun _ _ h ↦ .reader i (Or.inr h)) fuel
      have hstep : Lowers (exhaust (readerStep (σ := σ) i) (fuel + 1)) fun s ↦
          s.readerStep i = none :=
        lowers_exhaust (fun _ _ h ↦ .reader i (Or.inl h)) fuel
      obtain ⟨hnumbered, hcases⟩ := (hquit.comp hstep).comp ih s hs
      refine ⟨hnumbered, hcases.imp_left ?_⟩
      rintro ⟨hsame, ⟨hstays, hblocked⟩, hstuck⟩
      refine ⟨hsame, fun j hj ↦ ?_⟩
      rcases List.mem_cons.mp hj with rfl | hj
      · exact ⟨hblocked, hstays⟩
      · exact hstuck j hj

omit [Store σ] in
theorem isIdle_iff :
    s.isIdle = true ↔ s.stopLoop = none ∧ s.takeRequest = none ∧ s.takeDeparture = none ∧
      s.tasks = [] ∧ ∀ c ∈ s.connections, s.connectionStep c = none ∧ s.connectionQuit c = none := by
  simp [isIdle, and_assoc]

theorem tasks_eq_nil (h : s.taskStep 0 = none) : s.tasks = [] := by
  unfold taskStep at h
  cases htasks : s.tasks with
  | nil => rfl
  | cons t rest =>
      rw [htasks] at h
      cases t <;> cases h

theorem lowers_loopTurn (fuel : Nat) :
    Lowers (loopTurn (fuel + 1)) fun s : Session σ ↦
      s.stopLoop = none ∧ s.takeRequest = none ∧ s.takeDeparture = none := by
  have hstop : Lowers (exhaust (stopLoop (σ := σ)) (fuel + 1)) fun s ↦ s.stopLoop = none :=
    lowers_exhaust (fun _ _ ↦ .stopLoop) fuel
  have hrequest : Lowers (exhaust (takeRequest (σ := σ)) (fuel + 1)) fun s ↦ s.takeRequest = none :=
    lowers_exhaust (fun _ _ ↦ .takeRequest) fuel
  have hdeparture : Lowers (exhaust (takeDeparture (σ := σ)) (fuel + 1)) fun s ↦
      s.takeDeparture = none := lowers_exhaust (fun _ _ ↦ .takeDeparture) fuel
  intro s hs
  obtain ⟨hnumbered, hcases⟩ := ((hrequest.comp hdeparture).comp hstop) s hs
  refine ⟨hnumbered, hcases.imp_left ?_⟩
  rintro ⟨hsame, ⟨hrequest, hdeparture⟩, hstop⟩
  exact ⟨hsame, hstop, hrequest, hdeparture⟩

theorem lowers_readerTurn (fuel : Nat) :
    Lowers (readerTurn (fuel + 1)) fun s : Session σ ↦
      ∀ c ∈ s.connections, s.connectionStep c = none ∧ s.connectionQuit c = none := by
  intro s hs
  obtain ⟨hnumbered, hcases⟩ :=
    lowers_readersTurn fuel (List.range s.connections.length) s hs
  refine ⟨hnumbered, hcases.imp_left ?_⟩
  rintro ⟨hsame, hblocked⟩
  refine ⟨hsame, fun c hc ↦ ?_⟩
  obtain ⟨i, hi, rfl⟩ := List.mem_iff_getElem.mp hc
  have hreader := hblocked i (List.mem_range.mpr hi)
  rwa [readerStep, readerQuit, List.getElem?_eq_getElem hi] at hreader

def turn (fuel : Nat) (s : Session σ) : Session σ :=
  taskTurn fuel (loopTurn fuel (readerTurn fuel s))

theorem lowers_turn (fuel : Nat) : Lowers (turn (fuel + 1)) fun s : Session σ ↦ s.isIdle = true := by
  have htask : Lowers (taskTurn (fuel + 1)) fun s : Session σ ↦ s.taskStep 0 = none :=
    lowers_exhaust (fun _ _ ↦ .task) fuel
  intro s hs
  obtain ⟨hnumbered, hcases⟩ :=
    (((lowers_readerTurn fuel).comp (lowers_loopTurn fuel)).comp htask) s hs
  refine ⟨hnumbered, hcases.imp_left ?_⟩
  rintro ⟨hsame, ⟨hreaders, hstop, hrequest, hdeparture⟩, htasks⟩
  exact ⟨hsame, isIdle_iff.mpr ⟨hstop, hrequest, hdeparture, tasks_eq_nil htasks, hreaders⟩⟩

theorem turns_succ (fuel : Nat) (s : Session σ) :
    turns (fuel + 1) s = if s.isIdle then s else turns fuel (turn (fuel + 1) s) := rfl

/-- Enough turns leave no one who can move. -/
theorem isIdle_turns {fuel : Nat} (hs : s.Numbered) (hfuel : s.work ≤ fuel) :
    (turns fuel s).isIdle = true := by
  induction fuel generalizing s with
  | zero =>
      -- without work no turn could lower it
      obtain ⟨-, ⟨-, hidle⟩ | hlt⟩ := lowers_turn 0 s hs
      · exact hidle
      · omega
  | succ fuel ih =>
      rw [turns_succ]
      split
      · assumption
      · rename_i hidle
        obtain ⟨hnumbered, ⟨-, hidle'⟩ | hlt⟩ := lowers_turn fuel s hs
        · exact absurd hidle' hidle
        · exact ih hnumbered (by omega)

theorem isIdle_settle (hs : s.Numbered) : s.settle.isIdle = true := isIdle_turns hs (Nat.le_refl _)

theorem turn_induction {P : Session σ → Prop} (hkeep : ∀ s s', P s → Move s s' → P s')
    (fuel : Nat) (hs : P s) : P (turn fuel s) := by
  refine exhaust_induction (fun _ _ ↦ .task) hkeep fuel ?_
  refine exhaust_induction (fun _ _ ↦ .stopLoop) hkeep fuel ?_
  refine exhaust_induction (fun _ _ ↦ .takeDeparture) hkeep fuel ?_
  refine exhaust_induction (fun _ _ ↦ .takeRequest) hkeep fuel ?_
  exact readersTurn_induction hkeep fuel _ hs

/-- What every move keeps, a session keeps until no one can go on. -/
theorem settle_induction {P : Session σ → Prop} (hkeep : ∀ s s', P s → Move s s' → P s')
    (hs : P s) : P s.settle := by
  unfold settle
  generalize s.work = fuel
  induction fuel generalizing s with
  | zero => exact hs
  | succ fuel ih =>
      rw [turns_succ]
      split
      · exact hs
      · exact ih (turn_induction hkeep (fuel + 1) hs)

theorem settle_of_isIdle (h : s.isIdle = true) : s.settle = s := by
  unfold settle
  cases s.work with
  | zero => rfl
  | succ fuel => rw [turns_succ, if_pos h]

end Session

end KvServer
