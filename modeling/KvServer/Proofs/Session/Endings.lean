import KvServer.Proofs.Session.Course

/-!
# How often a peer sees the end

A reader that has ended stays so, and a peer that has gone does not come back (`Ages`).  So a course
shows a peer the end of its connection at most once, and it has shown it to every peer that is still
there when its connection is closed (`Told.course`).
-/

namespace KvServer

/-- A connection and what may have become of it. -/
structure Connection.Older (c c' : Connection) : Prop where
  closed : c.isClosed = true → c'.isClosed = true
  present : c'.present = true → c.present = true

theorem Connection.Older.of_phase {c c' : Connection} (hphase : c'.phase = c.phase)
    (hpresent : c'.present = true → c.present = true) : c.Older c' where
  closed := by
    intro hclosed
    rwa [isClosed, hphase, ← isClosed]
  present := hpresent

theorem Connection.Older.of_open {c c' : Connection} (hopen : c.isClosed = false)
    (hpresent : c'.present = c.present) : c.Older c' where
  closed := by simp [hopen]
  present := by simp [hpresent]

theorem Connection.older_deliver (r : Reply) (c : Connection) : c.Older (c.deliver r) := by
  unfold deliver
  split <;> exact ⟨id, id⟩

namespace Session

section Connections

variable {σ : Type} {s s' t : Session σ} {c : Connection} {i : Nat}

/-- Connections stay, and each grows older. -/
def Ages (s s' : Session σ) : Prop :=
  ∀ (i : Nat) (c : Connection), s.connections[i]? = some c →
    ∃ c', s'.connections[i]? = some c' ∧ c.Older c'

theorem Ages.refl (s : Session σ) : Ages s s := fun _ c hc ↦ ⟨c, hc, id, id⟩

theorem Ages.of_connections (h : s'.connections = s.connections) : Ages s s' := by
  intro i c hc
  exact ⟨c, by rw [h, hc], id, id⟩

theorem Ages.of_update {f : Connection → Connection}
    (h : s'.connections = s.connections.modify i f)
    (hf : ∀ c, s.connections[i]? = some c → c.Older (f c)) : Ages s s' := by
  intro j c hc
  by_cases hj : i = j
  · subst hj
    exact ⟨f c, by simp [h, hc], hf c hc⟩
  · exact ⟨c, by simp [h, hc, hj], id, id⟩

theorem Ages.of_open {f : Connection → Connection} (hc : s.connections[i]? = some c)
    (hopen : c.isClosed = false) (h : s'.connections = s.connections.modify i f)
    (hf : ∀ d, (f d).present = d.present) : Ages s s' := by
  apply Ages.of_update h
  intro d hd
  obtain rfl := Option.some.inj (hc.symm.trans hd)
  exact .of_open hopen (hf c)

theorem Ages.leave (client : Client) (e : Ending) : Ages s (s.leave client e) :=
  .of_update (i := client.id) rfl fun _ _ ↦ ⟨fun _ ↦ rfl, id⟩

theorem Ages.readerMove (hc : s.connections[c.client.id]? = some c) (h : ReaderMove c s s') :
    Ages s s' := by
  cases h with
  | leave e => exact .leave c.client e
  | hold hphase => exact .of_open hc (by simp [Connection.isClosed, hphase]) rfl fun _ ↦ rfl
  | permit hphase => exact .of_open hc (by simp [Connection.isClosed, hphase]) rfl fun _ ↦ rfl
  | enqueue hphase => exact .of_open hc (by simp [Connection.isClosed, hphase]) rfl fun _ ↦ rfl
  | detach => exact Ages.leave (s := s.release) c.client .detached

theorem Ages.task [Store σ] {k : Nat} (h : s.taskStep k = some s') : Ages s s' := by
  unfold taskStep at h
  split at h
  · rename_i r htask
    cases h
    exact Ages.of_update (i := r.client.id) rfl fun d _ ↦ Connection.older_deliver _ d
  · cases h
    exact .of_connections rfl
  · cases h
    exact .of_connections rfl
  · cases h

theorem Ages.move [Store σ] (hs : s.Numbered) (h : Move s s') : Ages s s' := by
  cases h with
  | stopLoop h =>
      obtain ⟨-, -, rfl⟩ := stopLoop_eq_some h
      exact .of_connections rfl
  | takeRequest h =>
      obtain ⟨-, r, rest, -, rfl⟩ := takeRequest_eq_some h
      exact .of_connections rfl
  | takeDeparture h =>
      obtain ⟨-, client, rest, -, rfl⟩ := takeDeparture_eq_some h
      exact .of_connections (unregister_connections client _)
  | reader i h =>
      obtain ⟨c, hc, hmove⟩ := reader_eq_some h
      obtain rfl := hs i c hc
      exact .readerMove hc hmove
  | task h => exact .task h

theorem numbered_settle [Store σ] (hs : s.Numbered) : s.settle.Numbered :=
  settle_induction (P := Numbered) (fun _ _ h hmove ↦ hmove.numbered h) hs

end Connections

variable {σ : Type} [Store σ] {s s' : Session (Recorded σ)} {i n : Nat}

omit [Store σ] in
theorem reportDeparture_connections (i : Nat) (s : Session (Recorded σ)) :
    (s.reportDeparture i).2.connections = s.connections := by
  unfold reportDeparture
  split <;> rfl

omit [Store σ] in
theorem connect_of_running (hrunning : s.running = true) (identity : String) (m : Medium) :
    (s.connect identity m).2.connections =
      s.connections ++ [newConnection ⟨s.connections.length, identity⟩ m] := by
  simp [Session.connect, hrunning]

omit [Store σ] in
theorem connect_of_not_running (hrunning : s.running = false) (identity : String) (m : Medium) :
    s.connect identity m = (.error .loopClosed, s) := by
  simp [Session.connect, hrunning]

theorem numbered_act (hs : s.Numbered) (st : Step) : (s.act st).2.Numbered := by
  cases st with
  | connect identity m =>
      change (s.connect identity m).2.Numbered
      cases hrunning : s.running with
      | true => exact hs.connect (by rw [client_newConnection]) (connect_of_running hrunning _ _)
      | false => rwa [connect_of_not_running hrunning]
  | send i bytes =>
      rw [act]
      split
      · exact hs.update fun _ ↦ rfl
      · exact hs
  | finish i => exact hs.update fun _ ↦ rfl
  | vanish i bytes => exact hs.update fun _ ↦ rfl
  | unregister i =>
      change (s.reportDeparture i).2.Numbered
      rwa [Numbered, reportDeparture_connections]
  | advance | wait | signal | fault | direct => exact hs

theorem numbered_step (hs : s.Numbered) (st : Step) : (s.step st).2.Numbered :=
  numbered_settle (numbered_act hs st)

theorem ages_act (s : Session (Recorded σ)) (st : Step) : Ages s (s.act st).2 := by
  cases st with
  | connect identity m =>
      change Ages s (s.connect identity m).2
      cases hrunning : s.running with
      | true =>
          intro i c hc
          refine ⟨c, ?_, id, id⟩
          rw [connect_of_running hrunning, ← hc]
          exact List.getElem?_append_left (List.getElem?_eq_some_iff.mp hc).1
      | false =>
          rw [connect_of_not_running hrunning]
          exact .refl s
  | send i bytes =>
      rw [act]
      split
      · exact .of_update (i := i) rfl fun c _ ↦ .of_phase rfl id
      · exact .refl s
  | finish i => exact .of_update (i := i) rfl fun c _ ↦ .of_phase rfl id
  | vanish i bytes => exact .of_update (i := i) rfl fun c _ ↦ .of_phase rfl (by simp)
  | unregister i => exact .of_connections (reportDeparture_connections i s)
  | advance | wait | signal | fault | direct => exact .of_connections rfl

/-- Everyone has gone as far as he can after every line of a script. -/
theorem isIdle_runSteps {sts : List Step} (hs : s.Numbered) (hidle : s.isIdle = true) :
    (runSteps sts s).2.isIdle = true := by
  induction sts generalizing s with
  | nil => exact hidle
  | cons st sts ih => exact ih (numbered_step hs st) (isIdle_settle (numbered_act hs st))

/-- What a session does by itself is a move, or a step of some task. -/
theorem move_or_task_of_next {e : Event} (he : ∀ st, e ≠ .outside st) (h : e.next s = some s') :
    Move s s' ∨ ∃ k, s.taskStep k = some s' := by
  cases e with
  | outside st => exact absurd rfl (he st)
  | stopLoop => exact Or.inl (.stopLoop h)
  | takeRequest => exact Or.inl (.takeRequest h)
  | takeDeparture => exact Or.inl (.takeDeparture h)
  | reader i => exact Or.inl (.reader i (Or.inl h))
  | quit i => exact Or.inl (.reader i (Or.inr h))
  | task k => exact Or.inr ⟨k, h⟩

theorem numbered_next {e : Event} (hs : s.Numbered) (h : e.next s = some s') : s'.Numbered := by
  by_cases he : ∀ st, e ≠ .outside st
  · rcases move_or_task_of_next he h with hmove | ⟨k, htask⟩
    · exact hmove.numbered hs
    · exact (change_of_task htask).numbered hs
  · obtain ⟨st, rfl⟩ : ∃ st, e = .outside st := by simpa using he
    cases h
    exact numbered_act hs st

theorem ages_next {e : Event} (hs : s.Numbered) (h : e.next s = some s') : Ages s s' := by
  by_cases he : ∀ st, e ≠ .outside st
  · rcases move_or_task_of_next he h with hmove | ⟨k, htask⟩
    · exact .move hs hmove
    · exact .task htask
  · obtain ⟨st, rfl⟩ : ∃ st, e = .outside st := by simpa using he
    cases h
    exact ages_act s st

theorem numbered_course (hs : s.Numbered) (es : List Event) : (course es s).2.Numbered := by
  induction es generalizing s with
  | nil => exact hs
  | cons e es ih =>
      cases hnext : e.next s with
      | none =>
          simp only [course, hnext]
          exact ih hs
      | some s' =>
          simp only [course, hnext]
          exact ih (numbered_next hs hnext)

/-! ## Ends that are seen -/

/-- How often a course shows a peer the end of its connection. -/
def endsSeen (i : Nat) : List Event → Session (Recorded σ) → Nat
  | [], _ => 0
  | e :: es, s =>
      match e.next s with
      | none => endsSeen i es s
      | some s' => (closedSince s' s i).toNat + endsSeen i es s'

/-- A peer that has seen the end of its connection `n` times so far. -/
structure Told (i n : Nat) (s : Session σ) : Prop where
  le : n ≤ (s.connections[i]?.any Connection.isClosed).toNat
  eq_of_present : s.connections[i]?.any Connection.present = true →
    n = (s.connections[i]?.any Connection.isClosed).toNat

omit [Store σ] in
theorem Told.le_one {s : Session σ} (h : Told i n s) : n ≤ 1 :=
  Nat.le_trans h.le (Bool.toNat_le _)

omit [Store σ] in
theorem Told.ages {s s' : Session σ} (h : Told i n s) (hages : Ages s s') :
    Told i (n + (closedSince s' s i).toNat) s' := by
  obtain ⟨hle, heq⟩ := h
  cases hc : s.connections[i]? with
  | none =>
      -- the connection is new, or there is none yet
      obtain rfl : n = 0 := by simpa [hc] using hle
      cases hc' : s'.connections[i]? with
      | none => constructor <;> simp [closedSince, hc']
      | some c' =>
          cases hclosed : c'.isClosed <;> cases hpresent : c'.present <;>
            constructor <;> simp [closedSince, Connection.seesEnd, hc, hc', hclosed, hpresent]
  | some c =>
      obtain ⟨c', hc', hclosed, hpresent⟩ := hages i c hc
      rw [hc] at hle heq
      cases hold : c.isClosed with
      | true =>
          have hnew := hclosed hold
          constructor
          · simpa [closedSince, hc, hc', hold, hnew] using hle
          · intro hthere
            have hn := heq (by simpa using hpresent (by simpa [hc'] using hthere))
            simpa [closedSince, hc, hc', hold, hnew] using hn
      | false =>
          obtain rfl : n = 0 := by simpa [hold] using hle
          cases hnew : c'.isClosed <;> cases hthere : c'.present <;>
            constructor <;> simp [closedSince, Connection.seesEnd, hc, hc', hold, hnew, hthere]

theorem Told.course (h : Told i n s) (hs : s.Numbered) (es : List Event) :
    Told i (n + endsSeen i es s) (Session.course es s).2 := by
  induction es generalizing n s with
  | nil => exact h
  | cons e es ih =>
      cases hnext : e.next s with
      | none =>
          simp only [endsSeen, Session.course, hnext]
          exact ih h hs
      | some s' =>
          simp only [endsSeen, Session.course, hnext, ← Nat.add_assoc]
          exact ih (h.ages (ages_next hs hnext)) (numbered_next hs hnext)

theorem endsSeen_append (i : Nat) (es later : List Event) (s : Session (Recorded σ)) :
    endsSeen i (es ++ later) s = endsSeen i es s + endsSeen i later (course es s).2 := by
  induction es generalizing s with
  | nil => exact (Nat.zero_add _).symm
  | cons e es ih =>
      cases hnext : e.next s with
      | none => simpa only [List.cons_append, endsSeen, course, hnext] using ih s
      | some s' => simp only [List.cons_append, endsSeen, course, hnext, ih s', Nat.add_assoc]

end Session

end KvServer
