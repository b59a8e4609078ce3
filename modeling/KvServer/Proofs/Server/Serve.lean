import KvServer.Proofs.Session.Closing
import KvServer.Proofs.Store.Contents
import KvServer.Server.Serve

/-!
# The end of a server

While a server runs it never flushes its store (`Unflushed`).  Its accept loop ends at the first
event that ends it (`Session.Accepts`).  Then the session closes down, and once the event loop has
stopped the store is flushed, once.  Nobody waits for the tasks of the event loop, though, so the
marks of clients that were connected may go before the flush or after it
(`only_revocations_outlast_shutdown`).
-/

namespace KvServer

variable {σ : Type}

/-- The record of `b` goes on from that of `a`, without a flush. -/
def Recorded.Unflushed (a b : Recorded σ) : Prop :=
  ∃ new, b.notes = new ++ a.notes ∧ ∀ n ∈ new, n.call ≠ .flush

namespace Recorded.Unflushed

variable {a b c : Recorded σ}

theorem refl (a : Recorded σ) : Unflushed a a := ⟨[], rfl, by simp⟩

theorem of_notes (h : Unflushed a b) (hnotes : c.notes = b.notes) : Unflushed a c := by
  rwa [Unflushed, hnotes]

theorem call [Store σ] (h : Unflushed a b) {call : Call} (hcall : call ≠ .flush) :
    Unflushed a (Store.call call b).2 := by
  obtain ⟨new, hnotes, hnew⟩ := h
  refine ⟨⟨call, (Store.call call b).1.error?⟩ :: new, ?_, ?_⟩
  · rw [Recorded.notes_call, hnotes]
    rfl
  · intro n hn
    rcases List.mem_cons.mp hn with rfl | hn
    · exact hcall
    · exact hnew n hn

variable [Store σ] {s : TimedStore (Recorded σ)} {secret : Option String} {identity : String}

theorem execute (h : Unflushed a s.store) (frame : Text.Bytes) :
    Unflushed a (Dispatch.execute secret identity frame s).2.store := by
  apply Dispatch.execute_call_induction (P := fun s ↦ Unflushed a s.store) frame h
  · exact fun s key h ↦ h.call (by simp)
  · exact fun s identity secret h ↦ h.call (by simp)
  · intro s key value ttl _ h
    have hset : Call.set key value ≠ .flush := by simp
    rw [TimedStore.write_store]
    exact h.call hset
  · intro s key h
    have hdelete : Call.delete key ≠ .flush := by simp
    rw [TimedStore.write_store]
    exact h.call hdelete

theorem revoke (h : Unflushed a s.store) :
    Unflushed a (Dispatch.revoke secret identity s).store := by
  unfold Dispatch.revoke
  split
  · exact h.call (by simp)
  · exact h

theorem fire (h : Unflushed a s.store) (token : Nat) : Unflushed a (s.fire token).store := by
  unfold TimedStore.fire TimedStore.expire
  split
  · split
    · exact h.call (by simp)
    · exact h
  · exact h

theorem settle (h : Unflushed a s.store) : Unflushed a s.settle.store :=
  TimedStore.settle_induction (P := fun s ↦ Unflushed a s.store) h h fun _ token h ↦ h.fire token

end Recorded.Unflushed

namespace Session

variable [Store σ] {s s' : Session (Recorded σ)} {a : Recorded σ}

/-- Nothing that happens to a session flushes its store. -/
theorem unflushed_dataChange (h : a.Unflushed s.data.store) {e : Event} {ds : List Deed}
    {data : TimedStore (Recorded σ)} (hchange : DataChange s e ds data) :
    a.Unflushed data.store := by
  cases hchange with
  | rest => exact h
  | clock now channel => exact Recorded.Unflushed.settle (s := { s.data with now, channel }) h
  | fault | direct => exact h.of_notes rfl
  | reply r => exact h.execute r.payload
  | revoke => exact h.revoke

theorem unflushed_course (h : a.Unflushed s.data.store) (es : List Event) :
    a.Unflushed (course es s).2.data.store := by
  induction es generalizing s with
  | nil => exact h
  | cons e es ih =>
      cases hnext : e.next s with
      | none => simpa only [course, hnext] using ih h
      | some s' =>
          simp only [course, hnext]
          exact ih (unflushed_dataChange h (dataChange_of_next hnext).2)

/-! ## The accept loop -/

/-- What ends an accept loop, by the events that it leaves: the answers that there still are, and
the result. -/
inductive AcceptEnd (running : Bool) :
    List ServerEvent → List Answer → Except AcceptError Unit → Prop
  | exhausted : AcceptEnd running [] [] (.ok ())
  | stop (rest : List ServerEvent) : AcceptEnd running (.stop :: rest) [] (.ok ())
  | fails (message : String) (rest : List ServerEvent) :
      AcceptEnd running (.acceptFails message :: rest) [] (.error (.notAccepted message))
  /-- The event loop has stopped, and does not take a new connection. -/
  | refused (identity : String) (m : Medium) (rest : List ServerEvent) (h : running = false) :
      AcceptEnd running (.step (.connect identity m) :: rest) [.event (.error .loopClosed)]
        (.error .loopStopped)

/-- An accept loop takes the steps `sts`, and then something ends it. -/
structure Accepts (s : Session (Recorded σ)) (events : List ServerEvent) (sts : List Step)
    (a : Accepted σ) : Prop where
  ended : ∃ rest last, events = sts.map .step ++ rest ∧
    a.answers = (Session.runSteps sts s).1 ++ last ∧
    AcceptEnd (Session.runSteps sts s).2.running rest last a.result
  session : a.session = (Session.runSteps sts s).2
  taken : ∀ earlier identity m later, sts = earlier ++ .connect identity m :: later →
    (Session.runSteps earlier s).2.running = true

theorem refuses_iff {st : Step} :
    (s.step st).1.refuses st = true ↔
      s.running = false ∧ ∃ identity m, st = .connect identity m := by
  cases st with
  | connect identity m =>
      cases hrunning : s.running <;>
        simp [Session.step, act, Session.connect, Answer.refuses, hrunning]
  | send | finish | vanish | unregister | advance | wait | signal | fault | direct =>
      simp [Answer.refuses]

/-- A connection that is refused changes nothing. -/
theorem step_connect_of_not_running (hidle : s.isIdle = true) (hrunning : s.running = false)
    (identity : String) (m : Medium) :
    s.step (.connect identity m) = (.event (.error .loopClosed), s) := by
  rw [Session.step, act, connect_of_not_running hrunning]
  exact congrArg (Prod.mk _) (settle_of_isIdle hidle)

theorem Accepts.cons {st : Step} {events : List ServerEvent} {sts : List Step} {a : Accepted σ}
    (h : (s.step st).2.Accepts events sts a) (htaken : ¬ (s.step st).1.refuses st = true) :
    s.Accepts (.step st :: events) (st :: sts) { a with answers := (s.step st).1 :: a.answers } := by
  obtain ⟨⟨rest, last, hevents, hanswers, hend⟩, hsession, hmore⟩ := h
  refine ⟨⟨rest, last, by rw [hevents]; rfl, by rw [hanswers]; rfl, hend⟩, hsession, ?_⟩
  intro earlier identity m later hsts
  cases earlier with
  | nil =>
      obtain ⟨rfl, -⟩ := List.cons.inj hsts
      cases hrunning : s.running with
      | true => exact hrunning
      | false => exact absurd (refuses_iff.mpr ⟨hrunning, identity, m, rfl⟩) htaken
  | cons st' earlier =>
      rw [List.cons_append, List.cons.injEq] at hsts
      obtain ⟨rfl, hsts⟩ := hsts
      exact hmore earlier identity m later hsts

theorem exists_accepts (hs : s.Numbered) (hidle : s.isIdle = true) (events : List ServerEvent) :
    ∃ sts, s.Accepts events sts (s.accept events) := by
  induction events generalizing s with
  | nil => exact ⟨[], ⟨[], [], rfl, rfl, .exhausted⟩, rfl, by simp⟩
  | cons event events ih =>
      cases event with
      | stop => exact ⟨[], ⟨_, [], rfl, rfl, .stop events⟩, rfl, by simp⟩
      | acceptFails message => exact ⟨[], ⟨_, [], rfl, rfl, .fails message events⟩, rfl, by simp⟩
      | step st =>
          by_cases hrefuses : (s.step st).1.refuses st = true
          · have haccept : s.accept (.step st :: events) =
                ⟨[(s.step st).1], (s.step st).2, .error .loopStopped⟩ := by
              simp only [accept, hrefuses, if_true]
            obtain ⟨hrunning, identity, m, rfl⟩ := refuses_iff.mp hrefuses
            rw [haccept, step_connect_of_not_running hidle hrunning]
            exact ⟨[], ⟨_, _, rfl, rfl, .refused identity m events hrunning⟩, rfl, by simp⟩
          · obtain ⟨sts, haccepts⟩ := ih (numbered_step hs st) (isIdle_settle (numbered_act hs st))
            refine ⟨st :: sts, ?_⟩
            simp only [accept, hrefuses]
            exact haccepts.cons hrefuses

/-! ## The flush -/

theorem Closing.flush {t : Session (Recorded σ)} {base : Recorded σ}
    {earlier late pending : List Client} (h : Closing s base earlier late pending t) :
    Closing s t.flush.data.store (earlier ++ late) [] pending t.flush :=
  { h with
    store := rfl
    revocable := by
      rw [List.append_nil]
      exact h.revocable
    unregistered := by
      rw [List.append_nil]
      exact h.unregistered }

/-- A server whose store was `store` at its start tells its session to stop at `s`, and flushes the
store when the event loop has stopped. -/
structure Flushes (store : Recorded σ) (s told : Session (Recorded σ)) : Prop where
  /-- The event loop stops, in whatever order things happen. -/
  stops : ∀ before, script before = [] →
    ∃ more, script more = [] ∧ (course (before ++ more) told).2.running = false
  /-- There is one flush.  Before and after it the marks of some clients may go. -/
  once : ∀ before after, script before = [] → script after = [] →
    (course before told).2.running = false →
      let flushed := (course before told).2.flush
      let t := (course after flushed).2
      flushed.Ends ∧ ∃ gone late, s.Revocable (gone ++ late) ∧
        store.Unflushed (revokeAll gone s.data.store) ∧
        flushed.data.store = (Store.call .flush (revokeAll gone s.data.store)).2 ∧
        t.data.store = revokeAll late flushed.data.store ∧
        (t.isIdle = true → ShutDown s t t.data.store)

theorem unflushed_revokeAll {store : Recorded σ} (h : a.Unflushed store) (clients : List Client) :
    a.Unflushed (revokeAll clients store) := by
  induction clients generalizing store with
  | nil => exact h
  | cons c clients ih => exact ih (h.call (by simp))

theorem flushes_of_isIdle (hs : s.Numbered) (hcapacity : 0 < s.options.queueCapacity)
    (hidle : s.isIdle = true) {sig : Signal} (hsig : sig.Stops) (h : a.Unflushed s.data.store) :
    Flushes a s (s.act (.signal sig)).2 := by
  have hwaits := waits_of_isIdle hcapacity hidle
  have hclosing := closing_signal hs hidle hsig
  constructor
  · intro before hbefore
    obtain ⟨-, more, hmore, hlast⟩ := hclosing.numbered.ends before hbefore
    refine ⟨more, hmore, ?_⟩
    have hown : script (before ++ more) = [] := by rw [script_append, hbefore, hmore]; rfl
    exact (down_of_isIdle hs hcapacity hidle hsig hown hlast).1.running
  · intro before after hbefore hafter hrunning flushed t
    obtain ⟨gone, pending, hgone⟩ := hclosing.course hwaits hbefore
    obtain ⟨late, pending', hlate⟩ := hgone.flush.course hwaits hafter
    refine ⟨hgone.flush.numbered.ends, gone, late, hlate.revocable.of_append,
      unflushed_revokeAll h gone, ?_, hlate.store,
      fun hlast ↦ (hlate.down hwaits hlast).1.shutDown hlate.peers_eq⟩
    exact congrArg (fun store ↦ (Store.call .flush store).2) hgone.store

omit [Store σ] in
theorem start_eq_ok {o : SessionOptions} {store : Recorded σ} {s : Session (Recorded σ)}
    (h : start o store = .ok s) :
    0 < o.queueCapacity ∧
      s = { options := o, data := { store }, permits := o.maxInflight } := by
  unfold start at h
  split at h
  · cases h
  · rename_i hcapacity
    split at h
    · cases h
    · exact ⟨by omega, (Except.ok.inj h).symm⟩

/-- What outlasts a shutdown.  Let a session at rest be told to stop, by a signal or by the loss of
its sender, after any course.  Whatever the order in which things then happen, the session is shut
down at the end, but the marks of some clients may have gone: exactly those that the departures of
connected clients can take away when the event loop is to revoke marks (`Closes`).  Every peer that
is still there sees the end of its connection once in the whole course, no peer more often.  A
server comes to this end however its accept loop ends; it flushes the store once, when the event
loop has stopped, and marks may go before the flush or after it (`Flushes`).  Its result is that of
the accept loop, whatever the flush answers. -/
theorem only_revocations_outlast_shutdown (o : SessionOptions) (store : Recorded σ)
    (s₀ : Session (Recorded σ)) (hstart : start o store = .ok s₀) :
    (∀ (es : List Event) (sig : Signal), sig.Stops → (course es s₀).2.isIdle = true →
      let s := (course es s₀).2
      let told := (s.act (.signal sig)).2
      Closes s told ∧ Flushes store s told ∧
        ∀ (own later : List Event) (i : Nat), script own = [] → (course own told).2.isIdle = true →
          endsSeen i (es ++ .outside (.signal sig) :: own ++ later) s₀ ≤ 1 ∧
            (s.connections[i]?.any Connection.present = true →
              endsSeen i (es ++ .outside (.signal sig) :: own ++ later) s₀ = 1)) ∧
    ∀ (settings : Settings) (events : List ServerEvent), settings.sessionOptions = o →
      let a := s₀.accept events
      serve settings store events = .ok a.shutdown ∧ a.shutdown.result = a.result ∧
        a.shutdown.store = a.shutdown.session.flush.data.store ∧
        ∃ sts es own, s₀.Accepts events sts a ∧
          script es = sts ∧ (course es s₀).2 = a.session ∧ a.session.isIdle = true ∧
          script own = [] ∧ a.shutdown.session.running = false ∧
          (course own (a.session.act (.signal .stop)).2).2 = a.shutdown.session := by
  obtain ⟨hcapacity, hs⟩ := start_eq_ok hstart
  have hnone : s₀.connections = [] := by rw [hs]
  have hnumbered : s₀.Numbered := by
    intro i c hc
    simp [hnone] at hc
  have hunflushed : store.Unflushed s₀.data.store := by
    rw [hs]
    exact .refl store
  have hroom : ∀ es, 0 < (course es s₀).2.options.queueCapacity := by
    intro es
    rw [options_course, hs]
    exact hcapacity
  constructor
  · intro es sig hsig hidle s told
    have hs' : s.Numbered := numbered_course hnumbered es
    refine ⟨closes_of_isIdle hs' (hroom es) hidle hsig,
      flushes_of_isIdle hs' (hroom es) hidle hsig (unflushed_course hunflushed es), ?_⟩
    intro own later i hown hlast
    obtain ⟨hdown, hpeers, -⟩ := down_of_isIdle hs' (hroom es) hidle hsig hown hlast
    exact endsSeen_of_shutdown hnumbered hnone hdown hpeers later i
  · intro settings events ho a
    have hidle₀ : s₀.isIdle = true := by
      rw [hs]
      rfl
    obtain ⟨sts, haccepts⟩ := exists_accepts hnumbered hidle₀ events
    obtain ⟨es, hes, hsession⟩ := exists_course sts s₀
    obtain ⟨own, hown, hsettle⟩ := exists_course_settle (a.session.act (.signal .stop)).2
    have hsame : (course es s₀).2 = a.session := hsession.trans haccepts.session.symm
    have hidle : a.session.isIdle = true := by
      rw [haccepts.session]
      exact isIdle_runSteps hnumbered hidle₀
    refine ⟨?_, rfl, rfl, sts, es, own, haccepts, hes, hsame, hidle, hown, ?_, hsettle⟩
    · rw [serve, ho, hstart]
      rfl
    · have hs' : a.session.Numbered := by
        rw [← hsame]
        exact numbered_course hnumbered es
      have hlast : (course own (a.session.act (.signal .stop)).2).2.isIdle = true := by
        rw [hsettle]
        exact isIdle_settle hs'
      have hdown := down_of_isIdle hs' (hsame ▸ hroom es) hidle (Or.inl rfl) hown hlast
      have hrunning := hdown.1.running
      rwa [hsettle] at hrunning

/-- A peer whose frame waits for a permit, and another whose client is no longer registered, both
see the end once; what is sent afterwards changes nothing. -/
theorem waiting_reader_sees_end :
    let o : SessionOptions := { maxInflight := 0 }
    let s₀ : Session (Recorded Memory) :=
      { options := o, data := { store := { store := {} } }, permits := 0 }
    let es : List Event := [.outside (.connect "P" .sound),
      .outside (.send 0 (Text.bytesOf "SET k 1\n")), .reader 0, .outside (.connect "Q" .sound),
      .outside (.unregister 1), .takeDeparture]
    let own : List Event := [.quit 1, .stopLoop, .quit 0]
    let later : List Event := [.outside (.send 0 (Text.bytesOf "SET k 2\n")), .reader 0,
      .outside (.connect "R" .sound), .outside (.signal .resume), .outside (.advance 1000)]
    let down := (course own ((course es s₀).2.act (.signal .detach)).2).2
    let last := (course later down).2
    start o { store := ({} : Memory) } = .ok s₀ ∧ (course es s₀).2.isIdle = true ∧
      script own = [] ∧ down.isIdle = true ∧
      endsSeen 0 (es ++ .outside (.signal .detach) :: own ++ later) s₀ = 1 ∧
      endsSeen 1 (es ++ .outside (.signal .detach) :: own ++ later) s₀ = 1 ∧
      last.clientCount = .error .loopClosed ∧ last.data.store.notes = [] := by
  intro o s₀ es own later down last
  have hstart : start o { store := ({} : Memory) } = .ok s₀ := rfl
  have hidle : (course es s₀).2.isIdle = true := by decide +kernel
  have hdown : down.isIdle = true := by decide +kernel
  obtain ⟨hcloses, -, hends⟩ :=
    (only_revocations_outlast_shutdown o _ s₀ hstart).1 es .detach (Or.inr rfl) hidle
  obtain ⟨gone, hgone, hshut⟩ := hcloses.down own rfl hdown
  have hnone : gone = [] := by
    by_contra hne
    have hrevoke := (hgone.revokes hne).2.1
    rw [options_course] at hrevoke
    cases hrevoke
  refine ⟨hstart, hidle, rfl, hdown, (hends own later 0 rfl hdown).2 (by decide +kernel),
    (hends own later 1 rfl hdown).2 (by decide +kernel), (hshut.refused later "" .sound 0).2.2, ?_⟩
  rw [hshut.untouched later, hnone]
  decide +kernel

/-- The mark of `P` goes when the session is told to stop.  In another order it goes after the
flush. -/
theorem mark_lost_after_flush :
    let o : SessionOptions := { secret := some "s", revokeOnDisconnect := true }
    let s₀ : Session (Recorded Memory) :=
      { options := o, data := { store := { store := {} } }, permits := 1024 }
    let s := (Session.runSteps [.connect "P" .sound, .send 0 (Text.bytesOf "AUTH s\n")] s₀).2
    let stopped := (course [.quit 0, .takeDeparture, .stopLoop] (s.act (.signal .stop)).2).2
    start o { store := ({} : Memory) } = .ok s₀ ∧ s.isIdle = true ∧
      s.data.store.store.contents "P" = some "s" ∧
      (s.step (.signal .stop)).2.data.store.store.contents "P" = none ∧
      stopped.running = false ∧
      (course [.task 0] stopped.flush).2.data.store.calls.map Note.call =
        [.auth "P" "s", .flush, .delete "P"] := by
  refine ⟨rfl, ?_⟩
  decide +kernel

end Session

end KvServer
