import KvServer.Proofs.Dispatch.Written
import KvServer.Proofs.Session.Headcount
import KvServer.Proofs.Session.Revocation

/-!
# What a revocation takes

The mark of a client stands under its address, as the value of this key, and a revocation takes what
it finds there: the mark, or a value that someone has set (`departure_takes_set_value`).  It keeps
to this key, and what it takes is what the last write of the key has put
(`revocation_takes_last_write`).
-/

namespace KvServer

open Function Text

theorem Call.contentsAfter_of_ne {c : Call} {key : String} (h : c.key? ≠ some key)
    (v : String → Option String) : c.contentsAfter v key = v key := by
  cases c with
  | get | flush => rfl
  | set other | delete other | auth other => exact update_of_ne (fun heq ↦ h (by rw [heq]; rfl)) _ _

namespace Dispatch

theorem contents_direct_of_ne {σ : Type} [Store σ] [MapStore σ] {c : Call} {key : String}
    (h : c.key? ≠ some key) (s : TimedStore (Recorded σ)) :
    (direct c s).2.contents key = s.contents key := by
  have hcases := MapStore.call_cases c s.store.store
  change MapStore.contents (Store.call c s.store.store).2 key = MapStore.contents s.store.store key
  rcases hcases with ⟨e, -, hv⟩ | ⟨-, hv⟩
  · rw [hv]
  · rw [hv, c.contentsAfter_of_ne h]

/-- A revocation takes the entry of an address, unless its call meets a fault. -/
theorem contents_revoke (secret identity : String) (s : TimedStore (Recorded Memory)) :
    (revoke (some secret) identity s).contents =
      if (s.store.faults .delete).isSome then s.contents else Function.update s.contents identity none := by
  change MapStore.contents (Store.call (.delete identity) s.store).2.store = _
  cases hfault : s.store.faults .delete with
  | some e =>
      rw [Recorded.call_of_fault hfault]
      rfl
  | none =>
      rw [Recorded.call_of_no_fault hfault]
      exact s.store.store.contents_delete identity

end Dispatch

namespace Session

open Deed

/-! ## Writes -/

namespace Deed

/-- A request that names a key is answered `OK`, so it has written the entry of the key. -/
def Writes (key : String) (d : Deed) : Prop :=
  ∃ r c, d = .reply r .ok ∧ Command.parse r.payload = .ok c ∧ c.subject r.client.identity = key

/-- A request that is answered `OK` puts a value under a key: it is the mark of its client, or a
`SET`. -/
def Puts (secret key value : String) (d : Deed) : Prop :=
  (value = secret ∧ ∃ client, d.Grants secret key client) ∨
    ∃ r ttl, d = .reply r .ok ∧ Command.parse r.payload = .ok (.set key value ttl)

theorem Puts.grants_or_sets {secret key value : String} {d : Deed} (h : d.Puts secret key value) :
    (∃ client, d.Grants secret key client) ∨ d.Sets key := by
  rcases h with ⟨-, hgrants⟩ | ⟨r, ttl, hd, hset⟩
  · exact .inl hgrants
  · exact .inr ⟨r, value, ttl, hd, hset⟩

end Deed

/-- Where the value of a key comes from: it was there before the deeds `ds` and none of them has
written the key, or one of them has put it and none after that has written the key. -/
def Origin (secret key : String) (initial : Option String) (ds : List Deed) (value : String) :
    Prop :=
  (initial = some value ∧ ∀ d ∈ ds, ¬ d.Writes key) ∨
    ∃ early d late, ds = early ++ d :: late ∧ d.Puts secret key value ∧
      ∀ d ∈ late, ¬ d.Writes key

variable {secret key value : String} {initial : Option String} {ds new : List Deed} {d : Deed}

theorem Origin.append (h : Origin secret key initial ds value) (hnew : ∀ d ∈ new, ¬ d.Writes key) :
    Origin secret key initial (ds ++ new) value := by
  rcases h with ⟨hinitial, hds⟩ | ⟨early, d, late, rfl, hputs, hlate⟩
  · exact .inl ⟨hinitial, List.forall_mem_append.mpr ⟨hds, hnew⟩⟩
  · exact .inr ⟨early, d, late ++ new, by simp, hputs, List.forall_mem_append.mpr ⟨hlate, hnew⟩⟩

theorem Origin.concat (h : d.Puts secret key value) :
    Origin secret key initial (ds ++ [d]) value :=
  .inr ⟨ds, d, [], rfl, h, by simp⟩

/-- A value that was not there before has been put by an `AUTH` or a `SET`. -/
theorem Origin.grants_or_sets (h : Origin secret key none ds value) :
    ∃ d ∈ ds, (∃ client, d.Grants secret key client) ∨ d.Sets key := by
  rcases h with ⟨hnone, -⟩ | ⟨early, d, late, rfl, hputs, -⟩
  · cases hnone
  · exact ⟨d, by simp, hputs.grants_or_sets⟩

/-! ## What an event does to the store -/

/-- What an event can do to the data of a session, with the deeds noted, also in a shutdown. -/
inductive DataChange {σ : Type} [Store σ] (s : Session (Recorded σ)) :
    Event → List Deed → TimedStore (Recorded σ) → Prop
  | rest {e : Event} {ds : List Deed} (hds : ∀ r a, .reply r a ∉ ds) : DataChange s e ds s.data
  | clock {e : Event} (now : Nat) (channel : Channel) :
      DataChange s e [] (TimedStore.settle { s.data with now, channel })
  | fault {e : Event} (kind : CallKind) (error? : Option StoreError) :
      DataChange s e [] (Dispatch.setFault kind error? s.data)
  | direct (c : Call) : DataChange s (.outside (.direct c)) [] (Dispatch.direct c s.data).2
  | reply {e : Event} (r : Request) :
      DataChange s e
        [.reply r (Dispatch.execute s.options.secret r.client.identity r.payload s.data).1]
        (Dispatch.execute s.options.secret r.client.identity r.payload s.data).2
  | revoke {e : Event} (identity : String) :
      DataChange s e [.revoke identity] (Dispatch.revoke s.options.secret identity s.data)

section

variable {σ : Type} [Store σ] {s s' : Session (Recorded σ)} {e : Event}

theorem dataChange_of_act (st : Step) :
    (s.act st).2.options = s.options ∧
      DataChange s (.outside st) (st.arrivals s) (s.act st).2.data := by
  have harrivals : ∀ r a, .reply r a ∉ st.arrivals s := by
    intro r a h
    obtain ⟨i, bytes, heq⟩ := Step.eq_arrive_of_mem_arrivals h
    cases heq
  cases st with
  | connect identity m =>
      have hconnect : (s.connect identity m).2.options = s.options ∧
          (s.connect identity m).2.data = s.data := by
        unfold connect
        split <;> exact ⟨rfl, rfl⟩
      rw [act, hconnect.2]
      exact ⟨hconnect.1, .rest harrivals⟩
  | send i bytes =>
      rw [act]
      split <;> exact ⟨rfl, .rest harrivals⟩
  | finish i | vanish i bytes | wait => exact ⟨rfl, .rest harrivals⟩
  | unregister i =>
      have hreport : (s.reportDeparture i).2.options = s.options ∧
          (s.reportDeparture i).2.data = s.data := by
        unfold reportDeparture
        split <;> exact ⟨rfl, rfl⟩
      rw [act, hreport.2]
      exact ⟨hreport.1, .rest harrivals⟩
  | advance ms => exact ⟨rfl, .clock _ _⟩
  | signal sig => exact ⟨rfl, .clock _ _⟩
  | fault kind error? => exact ⟨rfl, .fault kind error?⟩
  | direct c => exact ⟨rfl, .direct c⟩

/-- All that an event can do to the data. -/
theorem dataChange_of_next (h : e.next s = some s') :
    s'.options = s.options ∧ DataChange s e (e.deeds s s') s'.data := by
  cases e with
  | outside st =>
      cases h
      exact dataChange_of_act st
  | stopLoop =>
      obtain ⟨-, -, rfl⟩ := stopLoop_eq_some h
      exact ⟨rfl, .rest (by simp [Event.deeds])⟩
  | takeRequest =>
      obtain ⟨-, r, rest, -, rfl⟩ := takeRequest_eq_some h
      refine ⟨rfl, .rest fun r a hmem ↦ ?_⟩
      obtain ⟨_, -, heq⟩ := List.mem_map.mp hmem
      cases heq
  | takeDeparture =>
      obtain ⟨-, client, rest, -, rfl⟩ := takeDeparture_eq_some h
      rw [unregister_eq_revocations]
      refine ⟨rfl, .rest fun r a hmem ↦ ?_⟩
      obtain ⟨_, -, heq⟩ := List.mem_map.mp hmem
      cases heq
  | reader i =>
      have hds : ∀ r a, .reply r a ∉ readerDeeds i s s' := by
        intro r a hmem
        obtain ⟨r', heq | heq⟩ := mem_readerDeeds hmem <;> cases heq
      obtain ⟨c, -, hmove⟩ := readerStep_eq_some h
      cases hmove with
      | leave | hold | permit | enqueue | detach => exact ⟨rfl, .rest hds⟩
  | quit i =>
      obtain ⟨c, -, -, -, rfl⟩ := readerQuit_eq_some h
      exact ⟨rfl, .rest (by simp [Event.deeds])⟩
  | task k =>
      cases htask : s.tasks[k]? with
      | none => simp [Event.next, taskStep, htask] at h
      | some t =>
          cases t with
          | reply r =>
              simp only [Event.next, taskStep, htask, Option.some.injEq] at h
              subst h
              refine ⟨rfl, ?_⟩
              simp only [Event.deeds, htask]
              exact .reply r
          | finish r =>
              simp only [Event.next, taskStep, htask, Option.some.injEq] at h
              subst h
              refine ⟨rfl, ?_⟩
              simp only [Event.deeds, htask]
              exact .rest (by simp)
          | revoke identity =>
              simp only [Event.next, taskStep, htask, Option.some.injEq] at h
              subst h
              refine ⟨rfl, ?_⟩
              simp only [Event.deeds, htask]
              exact .revoke identity

theorem options_course (es : List Event) (s : Session (Recorded σ)) :
    (course es s).2.options = s.options := by
  induction es generalizing s with
  | nil => rfl
  | cons e es ih =>
      cases hnext : e.next s with
      | none => simpa only [course, hnext] using ih s
      | some s' =>
          simp only [course, hnext]
          rw [ih s', (dataChange_of_next hnext).1]

end

/-! ## Where a value comes from -/

variable {s s' : Session (Recorded Memory)} {e : Event} {es : List Event}
  {data : TimedStore (Recorded Memory)}

theorem not_writes_of_ne (h : ∀ r, d ≠ .reply r .ok) : ¬ d.Writes key := by
  rintro ⟨r, c, hd, -⟩
  exact h r hd

/-- What a request that is answered `OK` leaves under a key comes from the key's last write. -/
theorem Origin.written {r : Request} {c : Command} {v v' : String → Option String}
    (hparse : Command.parse r.payload = .ok c)
    (h : Dispatch.Written (some secret) r.client.identity v c v')
    (hbefore : ∀ value, v key = some value → Origin secret key initial ds value)
    (hvalue : v' key = some value) : Origin secret key initial (ds ++ [.reply r .ok]) value := by
  by_cases hkey : key = c.subject r.client.identity
  · cases h with
    | mark hsecret =>
        cases hsecret
        obtain rfl : key = r.client.identity := hkey
        rw [update_self] at hvalue
        obtain rfl := Option.some.inj hvalue
        exact .concat (.inl ⟨rfl, r.client, r.payload, rfl, rfl, hparse⟩)
    | @put other new ttl =>
        obtain rfl : key = other := hkey
        rw [update_self] at hvalue
        obtain rfl := Option.some.inj hvalue
        exact .concat (.inr ⟨r, ttl, rfl, hparse⟩)
    | @drop other =>
        obtain rfl : key = other := hkey
        rw [update_self] at hvalue
        cases hvalue
  · rw [h.eq_of_ne hkey] at hvalue
    refine (hbefore value hvalue).append fun d hd ↦ ?_
    rw [List.mem_singleton.mp hd]
    rintro ⟨r', c', hreply, hparse', hsubject⟩
    cases hreply
    cases hparse.symm.trans hparse'
    exact hkey hsubject.symm

theorem DataChange.coherent (h : DataChange s e new data) (hs : s.data.Coherent) :
    data.Coherent := by
  cases h with
  | rest => exact hs
  | clock now channel => exact ((hs.setNow now).setChannel channel).settled_settle.coherent
  | fault | direct => exact hs.setStore _
  | reply r => exact Dispatch.coherent_execute _ hs
  | revoke identity =>
      unfold Dispatch.revoke
      split
      · exact hs.setStore _
      · exact hs

/-- Every value of a key comes from the last write of the key. -/
structure Traced (secret key : String) (initial : Option String) (ds : List Deed)
    (s : Session (Recorded Memory)) : Prop where
  options : s.options.secret = some secret
  coherent : s.data.Coherent
  origin : ∀ value, s.data.contents key = some value → Origin secret key initial ds value

theorem Traced.origin_change (hs : Traced secret key initial ds s) (h : DataChange s e new data)
    (he : ∀ c, e = .outside (.direct c) → c.key? ≠ some key)
    (hvalue : data.contents key = some value) : Origin secret key initial (ds ++ new) value := by
  cases h with
  | rest hds =>
      refine (hs.origin value hvalue).append fun d hd ↦ not_writes_of_ne fun r hr ↦ ?_
      exact hds r .ok (hr ▸ hd)
  | clock now channel =>
      -- timers that run out only take values away
      rw [List.append_nil]
      have hcoherent : TimedStore.Coherent { s.data with now, channel } :=
        (hs.coherent.setNow now).setChannel channel
      have hbefore : TimedStore.contents { s.data with now, channel } key = some value :=
        TimedStore.contents_settle_of_some hcoherent hvalue
      exact hs.origin value hbefore
  | fault kind error? =>
      rw [List.append_nil]
      exact hs.origin value hvalue
  | direct c =>
      rw [Dispatch.contents_direct_of_ne (he c rfl)] at hvalue
      rw [List.append_nil]
      exact hs.origin value hvalue
  | reply r =>
      by_cases hok : (Dispatch.execute s.options.secret r.client.identity r.payload s.data).1 = .ok
      · obtain ⟨c, hparse, hwritten⟩ := Dispatch.exists_written hok
        rw [hok]
        exact .written hparse (hs.options ▸ hwritten) hs.origin hvalue
      · rw [Dispatch.contents_execute_of_ne_ok hok] at hvalue
        refine (hs.origin value hvalue).append fun d hd ↦ not_writes_of_ne fun r' hr ↦ ?_
        rw [List.mem_singleton.mp hd] at hr
        exact hok (Deed.reply.inj hr).2
  | revoke identity =>
      -- what is still there was there before, since a revocation puts nothing
      have hbefore : s.data.contents key = some value := by
        rw [hs.options, Dispatch.contents_revoke] at hvalue
        split at hvalue
        · exact hvalue
        · by_cases hkey : key = identity
          · rw [hkey, update_self] at hvalue
            cases hvalue
          · rwa [update_of_ne hkey] at hvalue
      refine (hs.origin value hbefore).append fun d hd ↦ not_writes_of_ne fun r hr ↦ ?_
      rw [List.mem_singleton.mp hd] at hr
      cases hr

theorem Traced.next (hs : Traced secret key initial ds s) (h : e.next s = some s')
    (he : ∀ c, e = .outside (.direct c) → c.key? ≠ some key) :
    Traced secret key initial (ds ++ e.deeds s s') s' := by
  obtain ⟨hoptions, hchange⟩ := dataChange_of_next h
  exact ⟨hoptions ▸ hs.options, hchange.coherent hs.coherent,
    fun value hvalue ↦ hs.origin_change hchange he hvalue⟩

theorem Traced.course (hs : Traced secret key initial ds s)
    (hes : ∀ c, .outside (.direct c) ∈ es → c.key? ≠ some key) :
    Traced secret key initial (ds ++ (course es s).1) (course es s).2 := by
  induction es generalizing ds s with
  | nil =>
      rw [Session.course, List.append_nil]
      exact hs
  | cons e es ih =>
      have hes' : ∀ c, .outside (.direct c) ∈ es → c.key? ≠ some key :=
        fun c hc ↦ hes c (List.mem_cons_of_mem _ hc)
      cases hnext : e.next s with
      | none => simpa only [Session.course, hnext] using ih hs hes'
      | some s' =>
          simp only [Session.course, hnext, ← List.append_assoc]
          refine ih (hs.next hnext fun c hc ↦ hes c ?_) hes'
          rw [hc]
          exact List.mem_cons_self

/-- Take a session with a secret that revokes on disconnect, any store that it starts with and any
course of it.  When the event loop takes the departure of a client, no data change, and a revocation
of its address waits if the client was still registered.  When a revocation runs, only the entry of
its address can change: it is gone then, unless the call meets a fault.  So the store stays as it was
exactly if there is no entry, or a fault.  If nobody has reached for the entry past the dispatcher,
what is taken is what the last write has put, the mark of an `AUTH` or the value of a `SET`; without
an entry at the start and without such a write nothing is taken. -/
theorem revocation_takes_last_write (o : SessionOptions) (secret : String) (store : Memory)
    (now : Nat) (channel : Channel) (es : List Event) (hrevoke : o.revokeOnDisconnect = true)
    (hsecret : o.secret = some secret) :
    let after := course es
      { options := o, data := { store := { store }, now, channel }, permits := o.maxInflight }
    let ds := after.1
    let s : Session (Recorded Memory) := after.2
    (∀ s', s.takeDeparture = some s' → ∃ client rest, s.departures = client :: rest ∧
      s'.data = s.data ∧ s'.tasks = s.tasks ++
        if s.registry.members[client.id]?.isSome then [.revoke client.identity] else []) ∧
    ∀ k i s', s.tasks[k]? = some (.revoke i) → s.taskStep k = some s' →
      (∀ key, key ≠ i → s'.data.contents key = s.data.contents key) ∧
      (s.data.store.faults .delete = none → s'.data.contents i = none) ∧
      (s'.data.contents = s.data.contents ↔
        s.data.contents i = none ∨ s.data.store.faults .delete ≠ none) ∧
      ((∀ c, .outside (.direct c) ∈ es → c.key? ≠ some i) →
        (∀ value, s.data.contents i = some value →
          Origin secret i (store.contents i) ds value) ∧
        (store.contents i = none →
          (∀ d ∈ ds, (∀ client, ¬ d.Grants secret i client) ∧ ¬ d.Sets i) →
            s'.data.contents = s.data.contents)) := by
  intro after ds s
  have hoptions : s.options = o := options_course es _
  refine ⟨fun s' hdeparture ↦ ?_, fun k i s' htask hstep ↦ ?_⟩
  · obtain ⟨-, client, rest, hdepartures, rfl⟩ := takeDeparture_eq_some hdeparture
    refine ⟨client, rest, hdepartures, ?_, ?_⟩
    · rw [unregister_eq_revocations]
    · rw [unregister_eq_revocations]
      simp [revocations, Registry.remove_fst, hoptions, hrevoke, hsecret]
  · have hcontents : s'.data.contents =
        if (s.data.store.faults .delete).isSome then s.data.contents
        else Function.update s.data.contents i none := by
      simp only [taskStep, htask, Option.some.injEq] at hstep
      rw [← hstep, hoptions, hsecret]
      exact Dispatch.contents_revoke secret i s.data
    have hsame : s'.data.contents = s.data.contents ↔
        s.data.contents i = none ∨ s.data.store.faults .delete ≠ none := by
      rw [hcontents]
      cases s.data.store.faults .delete with
      | some e => simp
      | none => simp [eq_comm]
    refine ⟨fun key hkey ↦ ?_, fun hfault ↦ ?_, hsame, fun hes ↦ ?_⟩
    · rw [hcontents]
      split
      · rfl
      · exact update_of_ne hkey _ _
    · rw [hcontents, hfault]
      exact update_self ..
    · have htraced : Traced secret i (store.contents i) ([] ++ ds) s :=
        Traced.course ⟨hsecret, .empty _ now channel, fun value hvalue ↦ .inl ⟨hvalue, by simp⟩⟩ hes
      rw [List.nil_append] at htraced
      refine ⟨htraced.origin, fun hnone hds ↦ hsame.mpr (.inl ?_)⟩
      rw [Option.eq_none_iff_forall_ne_some]
      intro value hvalue
      obtain ⟨d, hd, hputs⟩ := (hnone ▸ htraced.origin value hvalue).grants_or_sets
      rcases hputs with ⟨client, hgrants⟩ | hsets
      · exact (hds d hd).1 client hgrants
      · exact (hds d hd).2 hsets

/-- A client sets the key with the address of another one.  When that one leaves, without having
authenticated itself, the value goes and the mark of the first client stays. -/
theorem foreign_set_revoked :
    let o : SessionOptions := { secret := some "s", revokeOnDisconnect := true }
    let es : List Event :=
      [.outside (.connect "A" .sound), .outside (.send 0 (bytesOf "AUTH s\nSET B v\n")),
        .reader 0, .reader 0, .reader 0, .takeRequest, .task 0, .task 0,
        .reader 0, .reader 0, .reader 0, .takeRequest, .task 0, .task 0,
        .outside (.connect "B" .sound), .outside (.finish 1), .reader 1, .takeDeparture]
    let after := course es
      { options := o, data := { store := { store := ({} : Memory) } }, permits := o.maxInflight }
    Origin "s" "B" none after.1 "v" ∧ ∃ s', after.2.taskStep 0 = some s' ∧
      s'.data.contents "B" = none ∧ s'.data.contents "A" = some "s" := by
  intro o es after
  have htask : after.2.tasks[0]? = some (.revoke "B") := by decide +kernel
  have hdirect : ∀ c, .outside (.direct c) ∈ es → c.key? ≠ some "B" := by simp [es]
  have hvalue : after.2.data.contents "B" = some "v" := by decide +kernel
  have hmark : after.2.data.contents "A" = some "s" := by decide +kernel
  have hfault : after.2.data.store.faults .delete = none := by decide +kernel
  have hstart : Memory.contents {} "B" = none := by decide +kernel
  have hmain := revocation_takes_last_write o "s" {} 0 {} es rfl rfl
  -- from here on nobody has to compute the course again
  rw [show course es _ = after from rfl] at hmain
  clear_value after
  obtain ⟨s', hstep⟩ : ∃ s', after.2.taskStep 0 = some s' := by
    simp only [taskStep, htask, Option.some.injEq, exists_eq']
  obtain ⟨hothers, hgone, -, htraced⟩ := hmain.2 0 "B" s' htask hstep
  obtain ⟨horigin, -⟩ := htraced hdirect
  refine ⟨hstart ▸ horigin "v" hvalue, s', hstep, hgone hfault, ?_⟩
  rw [hothers "A" (by decide), hmark]

/-- The same in a script, where `B` sends nothing and no reply ever reaches it. -/
theorem departure_takes_set_value :
    let o : SessionOptions := { secret := some "s", revokeOnDisconnect := true }
    let sts : List Step :=
      [.connect "A" .sound, .send 0 (bytesOf "AUTH s\n"), .send 0 (bytesOf "SET B v\n"),
        .connect "B" .sound]
    let start : Session (Recorded Memory) :=
      { options := o, data := { store := { store := {} } }, permits := o.maxInflight }
    let before := (runSteps sts start).2
    let after := (runSteps (sts ++ [.finish 1]) start).2
    before.data.contents "B" = some "v" ∧ before.registry.members[1]?.isSome ∧
      after.registry.members[1]? = none ∧
      after.connections[1]?.map Connection.replies = some [] ∧
      after.data.contents "B" = none := by
  decide +kernel

end Session

end KvServer
