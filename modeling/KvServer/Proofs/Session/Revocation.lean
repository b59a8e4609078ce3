import KvServer.Proofs.Dispatch.MarkExpiry
import KvServer.Proofs.Session.Membership

/-!
# What revocation leaves behind

With `revokeOnDisconnect` the first departure of a client takes the mark of its address away.  It
takes what is there at that time: an `AUTH` that is answered after the event loop has taken the
departure of its client is a late grant, and no departure follows that would revoke it.  Once no
reader of an address is left and the session is idle, the address has an entry exactly if a late
grant stands (`marked_iff_late_grant`).
-/

namespace KvServer

open Text TtlMap

namespace Session

namespace Deed

/-- An `AUTH` of a client is answered `OK`, which puts the mark of its address. -/
def Grants (secret identity : String) (client : Client) (d : Deed) : Prop :=
  ∃ payload, d = .reply ⟨client, payload⟩ .ok ∧ client.identity = identity ∧
    Command.parse payload = .ok (.auth secret)

/-- The entry of a key is revoked, or a `DEL` of it is answered `OK`. -/
def Removes (key : String) (d : Deed) : Prop :=
  d = .revoke key ∨ ∃ r, d = .reply r .ok ∧ Command.parse r.payload = .ok (.del key)

/-- A `SET` of a key is answered `OK`. -/
def Sets (key : String) (d : Deed) : Prop :=
  ∃ r value ttl, d = .reply r .ok ∧ Command.parse r.payload = .ok (.set key value ttl)

/-- A deed that neither puts the mark of an address nor removes its entry. -/
structure Neutral (secret identity : String) (d : Deed) : Prop where
  not_grants : ∀ client, ¬ d.Grants secret identity client
  not_removes : ¬ d.Removes identity

end Deed

/-- After the deeds `ds` a grant stands that was given to a client after the deeds `early`. -/
def Stands (secret identity : String) (ds early : List Deed) (client : Client) : Prop :=
  ∃ d late, ds = early ++ d :: late ∧ d.Grants secret identity client ∧
    ∀ d ∈ late, ¬ d.Removes identity

/-- A grant stands that was given after the departure of its client. -/
def LateGrant (secret identity : String) (ds : List Deed) : Prop :=
  ∃ early client, Stands secret identity ds early client ∧ .depart client ∈ early

/-- Events that leave the store and the shutdown channel to the session. -/
def Event.Ordinary : Event → Prop
  | .outside st => ¬ st.Tampers
  | .stopLoop | .takeRequest | .takeDeparture | .reader _ | .quit _ | .task _ => True

theorem Event.Ordinary.keepsOn {e : Event} (h : e.Ordinary) : e.KeepsOn := by
  refine ⟨?_, ?_⟩
  · rintro rfl
    exact h trivial
  · rintro rfl
    exact h trivial

variable {secret identity : String} {ds new early : List Deed} {client : Client} {d : Deed}

theorem stands_append (h : Stands secret identity (ds ++ new) early client) :
    (Stands secret identity ds early client ∧ ∀ d ∈ new, ¬ d.Removes identity) ∨
      (ds <+: early ∧ ∃ d ∈ new, d.Grants secret identity client) := by
  obtain ⟨d, late, heq, hgrants, hlate⟩ := h
  rcases List.append_eq_append_iff.mp heq with ⟨more, hearly, hnew⟩ | ⟨rest, hds, hrest⟩
  · refine .inr ⟨⟨more, hearly.symm⟩, d, ?_, hgrants⟩
    rw [hnew]
    simp
  · cases rest with
    | nil =>
        rw [List.append_nil] at hds
        refine .inr ⟨hds ▸ List.prefix_rfl, d, ?_, hgrants⟩
        rw [← List.nil_append new, ← hrest]
        exact List.mem_cons_self
    | cons b rest =>
        obtain ⟨rfl, rfl⟩ := List.cons.inj hrest
        refine .inl ⟨⟨d, rest, hds, hgrants, ?_⟩, ?_⟩
        · exact fun d hd ↦ hlate d (List.mem_append_left _ hd)
        · exact fun d hd ↦ hlate d (List.mem_append_right _ hd)

theorem Stands.append (h : Stands secret identity ds early client)
    (hnew : ∀ d ∈ new, ¬ d.Removes identity) : Stands secret identity (ds ++ new) early client := by
  obtain ⟨d, late, rfl, hgrants, hlate⟩ := h
  refine ⟨d, late ++ new, by simp, hgrants, ?_⟩
  intro d hd
  rcases List.mem_append.mp hd with hd | hd
  · exact hlate d hd
  · exact hnew d hd

/-! ## Marks -/

theorem Deed.Grants.not_removes (h : d.Grants secret identity client) : ¬ d.Removes identity := by
  obtain ⟨payload, rfl, -, hparse⟩ := h
  rintro (hrevoke | ⟨r, hreply, hdel⟩)
  · cases hrevoke
  · cases hreply
    cases hparse.symm.trans hdel

theorem neutral_reply {r : Request} {a : Reply}
    (hauth : a = .ok → r.client.identity = identity → Command.parse r.payload ≠ .ok (.auth secret))
    (hdel : a = .ok → Command.parse r.payload ≠ .ok (.del identity)) :
    (Deed.reply r a).Neutral secret identity where
  not_grants := by
    rintro client ⟨payload, hreply, hidentity, hparse⟩
    cases hreply
    exact hauth rfl hidentity hparse
  not_removes := by
    rintro (hrevoke | ⟨r, hreply, hparse⟩)
    · cases hrevoke
    · cases hreply
      exact hdel rfl hparse

theorem neutral_of_ne (hreply : ∀ r, d ≠ .reply r .ok) (hrevoke : d ≠ .revoke identity) :
    d.Neutral secret identity where
  not_grants := by
    rintro client ⟨payload, hd, -⟩
    exact hreply _ hd
  not_removes := by
    rintro (hd | ⟨r, hd, -⟩)
    · exact hrevoke hd
    · exact hreply r hd

/-- How deeds change the entry of an address. -/
inductive Marks (secret identity : String) : List Deed → Option String → Option String → Prop
  | grant {d : Deed} {client : Client} {v : Option String} (h : d.Grants secret identity client) :
      Marks secret identity [d] v (some secret)
  | remove {d : Deed} {v : Option String} (h : d.Removes identity) :
      Marks secret identity [d] v none
  | same {new : List Deed} {v : Option String} (h : ∀ d ∈ new, d.Neutral secret identity) :
      Marks secret identity new v v

theorem Marks.neutral {v : Option String} (h : d.Neutral secret identity) :
    Marks secret identity [d] v v :=
  .same fun _ hd ↦ List.mem_singleton.mp hd ▸ h

/-- A command changes the entry of an address only by a grant or a removal, unless it sets it. -/
theorem obey_marks {m : TtlMap} {r : Request} {c : Command} (hparse : Command.parse r.payload = .ok c)
    (hfree : m.deadlines identity = none)
    (hsets : ¬ (Deed.reply r (m.obey (some secret) r.client.identity c).1).Sets identity) :
    let out := m.obey (some secret) r.client.identity c
    out.2.deadlines identity = none ∧
      Marks secret identity [.reply r out.1] (m.values identity) (out.2.values identity) := by
  cases c with
  | auth candidate =>
      by_cases hc : candidate = secret
      · subst hc
        by_cases hi : r.client.identity = identity
        · have hgrants : (Deed.reply r .ok).Grants candidate identity r.client :=
            ⟨r.payload, rfl, hi, hparse⟩
          simpa [obey, mark, hi, hfree] using Marks.grant hgrants
        · have hneutral : (Deed.reply r .ok).Neutral candidate identity :=
            neutral_reply (fun _ h ↦ absurd h hi) (by simp [hparse])
          simpa [obey, mark, Function.update_of_ne (Ne.symm hi), hfree] using Marks.neutral hneutral
      · have hneutral : (Deed.reply r .invalidAuth).Neutral secret identity :=
          neutral_reply (by simp) (by simp)
        simpa [obey, hc, hfree] using Marks.neutral hneutral
  | get key =>
      have hneutral : ∀ a, (Deed.reply r a).Neutral secret identity :=
        fun a ↦ neutral_reply (by simp [hparse]) (by simp [hparse])
      by_cases hadmits : m.admits (some secret) r.client.identity
      · simpa [obey, hadmits, hfree] using Marks.neutral (hneutral _)
      · simpa [obey, hadmits, hfree] using Marks.neutral (hneutral _)
  | set key value ttl =>
      have hneutral : ∀ a, (Deed.reply r a).Neutral secret identity :=
        fun a ↦ neutral_reply (by simp [hparse]) (by simp [hparse])
      by_cases hadmits : m.admits (some secret) r.client.identity
      · have hk : identity ≠ key := by
          rintro rfl
          apply hsets
          simp only [obey, hadmits, if_true]
          exact ⟨r, value, ttl, rfl, hparse⟩
        simpa [obey, hadmits, put, Function.update_of_ne hk, hfree] using Marks.neutral (hneutral _)
      · simpa [obey, hadmits, hfree] using Marks.neutral (hneutral _)
  | del key =>
      have hneutral : ∀ a, (a = .ok → key ≠ identity) →
          (Deed.reply r a).Neutral secret identity := by
        intro a ha
        refine neutral_reply (by simp [hparse]) ?_
        intro hok hdel
        cases hparse.symm.trans hdel
        exact ha hok rfl
      by_cases hadmits : m.admits (some secret) r.client.identity
      · by_cases hvalue : (m.values key).isSome
        · by_cases hk : key = identity
          · subst hk
            have hremoves : (Deed.reply r .ok).Removes key := .inr ⟨r, rfl, hparse⟩
            simpa [obey, hadmits, hvalue, remove] using Marks.remove hremoves
          · simpa [obey, hadmits, hvalue, remove, Function.update_of_ne (Ne.symm hk), hfree] using
              Marks.neutral (hneutral .ok fun _ ↦ hk)
        · simpa [obey, hadmits, hvalue, hfree] using Marks.neutral (hneutral .error (by simp))
      · simpa [obey, hadmits, hfree] using Marks.neutral (hneutral .invalidAuth (by simp))

variable {m : TtlMap} {s s' : Session (Recorded Memory)} {e : Event}

/-- A store without a deadline for an address, whose entry a change changes by its deeds only. -/
theorem Change.marks (hgoing : s.Going) (he : e.Ordinary) (h : Change s e new s')
    (hsecret : s.options.secret = some secret) (hr : Refines m s.data)
    (hfree : m.deadlines identity = none) (hsets : ∀ d ∈ new, ¬ d.Sets identity) :
    ∃ m', Refines m' s'.data ∧ m'.deadlines identity = none ∧
      Marks secret identity new (m.values identity) (m'.values identity) := by
  have hopen : s.data.channel.stopped = false := hgoing.opened
  cases h with
  | idle | unregister | takeRequest | takeDeparture | hold | permit | enqueue | leave | finish =>
      refine ⟨m, hr, hfree, .same fun d hd ↦ neutral_of_ne ?_ ?_⟩
      · rintro r rfl
        simp at hd
      · rintro rfl
        simp at hd
  | connect | input =>
      refine ⟨m, hr, hfree, .same fun d hd ↦ ?_⟩
      rw [eq_arrive_of_mem_arrivals hd]
      exact neutral_of_ne (by simp) (by simp)
  | advance ms =>
      have hexpired : m.expired (m.now + ms) identity = false := by simp [expired, hfree]
      refine ⟨m.elapse ms, hr.elapse ms, ?_, ?_⟩
      · simp [elapse, hexpired, hfree]
      · simpa [elapse, hexpired] using Marks.same (by simp)
  | tamper hst hdata => exact absurd hst he
  | @reply _ k r htask =>
      obtain ⟨hreply, hnext⟩ := hr.execute s.options.secret r.client.identity r.payload
      have hsettled :
          (Dispatch.execute s.options.secret r.client.identity r.payload s.data).2.Settled :=
        Dispatch.settled_execute r.payload hr.settled hopen
      rw [hsettled.settle_eq] at hnext
      have hnot := hsets _ (List.mem_singleton_self _)
      rw [hreply] at hnot ⊢
      refine ⟨_, hnext, ?_⟩
      rw [hsecret] at hnot ⊢
      cases hparse : Command.parse r.payload with
      | error x =>
          simp only [TtlMap.execute, hparse]
          exact ⟨hfree, .neutral (neutral_reply (by simp [hparse]) (by simp [hparse]))⟩
      | ok c =>
          simp only [TtlMap.execute, hparse] at hnot ⊢
          exact obey_marks hparse hfree hnot
  | @revoke _ k identity' htask =>
      have hnext := hr.revoke s.options.secret identity'
      rw [hsecret] at hnext ⊢
      refine ⟨m.unmark identity', hnext, hfree, ?_⟩
      by_cases hi : identity' = identity
      · subst hi
        simpa [unmark] using Marks.remove (.inl rfl)
      · have hneutral : (Deed.revoke identity').Neutral secret identity :=
          neutral_of_ne (by simp) (by simpa using hi)
        simpa [unmark, Function.update_of_ne (Ne.symm hi)] using Marks.neutral hneutral

/-- A revocation waits for its task. -/
theorem Change.revoke_kept (h : Change s e new s') (htask : .revoke identity ∈ s.tasks)
    (hnew : ∀ d ∈ new, ¬ d.Removes identity) : .revoke identity ∈ s'.tasks := by
  obtain ⟨j, hj⟩ := List.mem_iff_getElem?.mp htask
  cases h with
  | idle | connect | input | unregister | advance | tamper | hold | permit | enqueue | leave =>
      exact htask
  | takeRequest | takeDeparture => exact List.mem_append_left _ htask
  | @reply _ k r hk =>
      have hne : k ≠ j := by
        rintro rfl
        cases hk.symm.trans hj
      refine List.mem_of_getElem? (i := j) ?_
      rw [List.getElem?_set_ne hne]
      exact hj
  | @finish _ k r hk =>
      refine List.mem_eraseIdx_iff_getElem?.mpr ⟨j, ?_, hj⟩
      rintro rfl
      cases hk.symm.trans hj
  | @revoke _ k identity' hk =>
      refine List.mem_eraseIdx_iff_getElem?.mpr ⟨j, ?_, hj⟩
      rintro rfl
      cases hk.symm.trans hj
      exact hnew _ (List.mem_singleton_self _) (.inl rfl)

/-- The first departure of a client revokes its mark. -/
theorem Change.revoke_of_depart (hs : Membership ds s) (h : Change s e new s')
    (hoptions : s.options.revokeOnDisconnect = true ∧ s.options.secret = some secret)
    (hclient : s.Knows client) (hbefore : .depart client ∉ ds) (hnow : .depart client ∈ new) :
    .revoke client.identity ∈ s'.tasks := by
  cases h with
  | takeDeparture hdepartures =>
      obtain rfl : client = _ := by simpa using hnow
      have hmember := hs.enrolled client hclient hbefore
      refine List.mem_append_right _ ?_
      simp [revocations, Registry.remove_fst, hmember, hoptions]
  | connect | input => cases eq_arrive_of_mem_arrivals hnow
  | idle | unregister | advance | tamper | takeRequest | hold | permit | enqueue | leave | reply
  | finish | revoke => simp at hnow

/-- What is known of an address of which no `SET` was carried out. -/
structure Guarded (secret identity : String) (ds : List Deed) (s : Session (Recorded Memory)) :
    Prop where
  options : s.options.revokeOnDisconnect = true ∧ s.options.secret = some secret
  membership : Membership ds s
  mark : ∃ m, Refines m s.data ∧ m.deadlines identity = none ∧
    ((m.values identity = some secret ∧ ∃ early client, Stands secret identity ds early client) ∨
      (m.values identity = none ∧ ∀ early client, ¬ Stands secret identity ds early client))
  pending : ∀ early client, Stands secret identity ds early client → .depart client ∉ early →
    .depart client ∈ ds → .revoke identity ∈ s.tasks

theorem Stands.grants (h : Stands secret identity ds early client) :
    ∃ d ∈ ds, d.Grants secret identity client := by
  obtain ⟨d, late, rfl, hgrants, -⟩ := h
  exact ⟨d, by simp, hgrants⟩

theorem Guarded.pending_change (hs : Guarded secret identity ds s) (h : Change s e new s')
    (hstands : Stands secret identity (ds ++ new) early client) (hearly : .depart client ∉ early)
    (hds : .depart client ∈ ds ++ new) : .revoke identity ∈ s'.tasks := by
  rcases stands_append hstands with ⟨hstands, hnew⟩ | ⟨hbegins, d, hd, hgrants⟩
  · by_cases hbefore : .depart client ∈ ds
    · exact h.revoke_kept (hs.pending early client hstands hearly hbefore) hnew
    · obtain ⟨d, hd, payload, rfl, rfl, -⟩ := hstands.grants
      have hknown : s.Knows client := hs.membership.replied _ _ hd
      have hnow : .depart client ∈ new := (List.mem_append.mp hds).resolve_left hbefore
      exact h.revoke_of_depart hs.membership hs.options hknown hbefore hnow
  · obtain ⟨payload, rfl, -⟩ := hgrants
    have hbefore : .depart client ∉ ds := fun hmem ↦ hearly (hbegins.subset hmem)
    obtain ⟨rfl, -⟩ := h.of_reply hd
    simp [hbefore] at hds

theorem Guarded.mark_change (hs : Guarded secret identity ds s) (hgoing : s.Going)
    (he : e.Ordinary) (h : Change s e new s') (hsets : ∀ d ∈ new, ¬ d.Sets identity) :
    ∃ m, Refines m s'.data ∧ m.deadlines identity = none ∧
      ((m.values identity = some secret ∧
          ∃ early client, Stands secret identity (ds ++ new) early client) ∨
        (m.values identity = none ∧
          ∀ early client, ¬ Stands secret identity (ds ++ new) early client)) := by
  obtain ⟨m, hr, hfree, hmark⟩ := hs.mark
  obtain ⟨m', hr', hfree', hmarks⟩ := h.marks hgoing he hs.options.2 hr hfree hsets
  refine ⟨m', hr', hfree', ?_⟩
  generalize m.values identity = v at hmark hmarks
  generalize m'.values identity = v' at hmarks ⊢
  cases hmarks with
  | @grant d client v hgrants =>
      exact .inl ⟨rfl, ds, client, d, [], rfl, hgrants, by simp⟩
  | @remove d v hremoves =>
      refine .inr ⟨rfl, fun early client hstands ↦ ?_⟩
      rcases stands_append hstands with ⟨-, hnew⟩ | ⟨-, d', hd', hgrants⟩
      · exact hnew d (List.mem_singleton_self d) hremoves
      · rw [List.mem_singleton.mp hd'] at hgrants
        exact hgrants.not_removes hremoves
  | same hneutral =>
      refine hmark.imp ?_ ?_
      · rintro ⟨hv, early, client, hstands⟩
        exact ⟨hv, early, client, hstands.append fun d hd ↦ (hneutral d hd).not_removes⟩
      · rintro ⟨hv, hnone⟩
        refine ⟨hv, fun early client hstands ↦ ?_⟩
        rcases stands_append hstands with ⟨hstands, -⟩ | ⟨-, d, hd, hgrants⟩
        · exact hnone early client hstands
        · exact (hneutral d hd).not_grants client hgrants

theorem Guarded.change (hs : Guarded secret identity ds s) (hnumbered : s.Numbered)
    (hgoing : s.Going) (he : e.Ordinary) (h : Change s e new s')
    (hsets : ∀ d ∈ new, ¬ d.Sets identity) : Guarded secret identity (ds ++ new) s' where
  options := by
    rw [h.options]
    exact hs.options
  membership := hs.membership.change hnumbered h
  mark := hs.mark_change hgoing he h hsets
  pending _ _ := hs.pending_change h

theorem Guarded.start {o : SessionOptions} (hrevoke : o.revokeOnDisconnect = true)
    (hsecret : o.secret = some secret) :
    Guarded secret identity []
      { options := o, data := { store := { store := {} } }, permits := o.maxInflight } where
  options := ⟨hrevoke, hsecret⟩
  membership := .start o _
  mark := by
    refine ⟨_, .start {} 0 {}, rfl, .inr ⟨by simp [Memory.contents], ?_⟩⟩
    rintro early client ⟨d, late, hds, -⟩
    simp at hds
  pending := by simp

/-- A course without a `SET` of an address. -/
theorem Guarded.course {o : SessionOptions} {es : List Event}
    (hrevoke : o.revokeOnDisconnect = true) (hsecret : o.secret = some secret)
    (hes : ∀ e ∈ es, e.Ordinary) :
    let after := course es
      { options := o, data := { store := { store := ({} : Memory) } }, permits := o.maxInflight }
    (∀ d ∈ after.1, ¬ d.Sets identity) →
      after.2.Numbered ∧ after.2.Going ∧ Guarded secret identity after.1 after.2 := by
  intro after hsets
  have hkeeps : ∀ e ∈ es, e.KeepsOn := fun e he ↦ (hes e he).keepsOn
  obtain ⟨hnumbered, hgoing, hguarded⟩ := course_induction
    (P := fun ds s ↦ (∀ d ∈ ds, ¬ d.Sets identity) → Guarded secret identity ds s) hkeeps
    (fun ds s new s' e he hn hg hs h hsets ↦
      (hs fun d hd ↦ hsets d (List.mem_append_left _ hd)).change hn hg (hes e he) h
        fun d hd ↦ hsets d (List.mem_append_right _ hd))
    (by simp [Numbered]) ⟨rfl, rfl⟩ fun _ ↦ .start hrevoke hsecret
  exact ⟨hnumbered, hgoing, hguarded hsets⟩

/-- Once an idle session has no reader of an address left, each grant that stands was late. -/
theorem Guarded.late (hs : Guarded secret identity ds s) (hgoing : s.Going) (hidle : s.isIdle = true)
    (hclosed : ∀ c ∈ s.connections, c.client.identity = identity → c.isClosed = true)
    (hstands : Stands secret identity ds early client) : .depart client ∈ early := by
  by_contra hearly
  obtain ⟨-, -, hdeparture, htasks, -⟩ := isIdle_iff.mp hidle
  obtain ⟨d, hd, payload, rfl, hidentity, -⟩ := hstands.grants
  have hknown : s.Knows client := hs.membership.replied _ _ hd
  obtain ⟨c, hc, rfl⟩ := hknown.exists_connection
  have hmem := List.mem_of_getElem? hc
  have hleft := hs.membership.left c hmem (hclosed c hmem hidentity)
  rw [departures_eq_nil hgoing.running hdeparture] at hleft
  have hdeparted : .depart c.client ∈ ds := hleft.resolve_left (List.not_mem_nil)
  have htask := hs.pending early c.client hstands hearly hdeparted
  rw [htasks] at htask
  cases htask

/-- An address without an entry, whose clients are refused. -/
structure Refused (secret identity : String) (ds : List Deed) (s : Session (Recorded Memory)) :
    Prop where
  options : s.options.secret = some secret
  unmarked : ∃ m, Refines m s.data ∧ m.deadlines identity = none ∧ m.values identity = none
  replies : ∀ r a c, .reply r a ∈ ds → r.client.identity = identity →
    Command.parse r.payload = .ok c → c.NeedsMark → a = .invalidAuth

theorem Refused.change (hs : Refused secret identity ds s) (hgoing : s.Going) (he : e.Ordinary)
    (h : Change s e new s')
    (hnew : ∀ d ∈ new, ¬ d.Sets identity ∧ ∀ client, ¬ d.Grants secret identity client) :
    Refused secret identity (ds ++ new) s' := by
  obtain ⟨m, hr, hfree, hnone⟩ := hs.unmarked
  obtain ⟨m', hr', hfree', hmarks⟩ :=
    h.marks hgoing he hs.options hr hfree fun d hd ↦ (hnew d hd).1
  refine ⟨by rw [h.options, hs.options], ⟨m', hr', hfree', ?_⟩, ?_⟩
  · rw [hnone] at hmarks
    generalize m'.values identity = v' at hmarks ⊢
    cases hmarks with
    | @grant d client v hgrants => exact absurd hgrants ((hnew d (List.mem_singleton_self d)).2 client)
    | remove => rfl
    | same => rfl
  · intro r a c hreply hidentity hparse hc
    rcases List.mem_append.mp hreply with hreply | hreply
    · exact hs.replies r a c hreply hidentity hparse hc
    · obtain ⟨-, -, hanswer⟩ := h.of_reply hreply
      rw [hanswer, hs.options, Dispatch.refused_iff hr hparse hc, hidentity, hnone]
      simp

theorem Refused.course {later : List Event} (hs : Refused secret identity [] s)
    (hnumbered : s.Numbered) (hgoing : s.Going) (hlater : ∀ e ∈ later, e.Ordinary)
    (hds : ∀ d ∈ (course later s).1,
      ¬ d.Sets identity ∧ ∀ client, ¬ d.Grants secret identity client) :
    Refused secret identity (course later s).1 (course later s).2 := by
  have hkeeps : ∀ e ∈ later, e.KeepsOn := fun e he ↦ (hlater e he).keepsOn
  obtain ⟨-, -, hrefused⟩ := course_induction
    (P := fun ds s ↦ (∀ d ∈ ds, ¬ d.Sets identity ∧ ∀ client, ¬ d.Grants secret identity client) →
      Refused secret identity ds s) hkeeps
    (fun ds s new s' e he _ hg hs h hnew ↦
      (hs fun d hd ↦ hnew d (List.mem_append_left _ hd)).change hg (hlater e he) h
        fun d hd ↦ hnew d (List.mem_append_right _ hd))
    hnumbered hgoing fun _ ↦ hs
  exact hrefused hds

/-- Take a session with a secret that revokes on disconnect and starts with an empty store, and any
course of it without faults, tampering or shutdown in which no `SET` of an address is carried out.
When the session is idle and no reader of this address is left, the address has an entry exactly if
a late grant stands: an `AUTH` answered after the departure of its client, with nothing after it
that removes the entry.  Without a late grant the clients of the address are refused from then on,
until one of them authenticates itself. -/
theorem marked_iff_late_grant (o : SessionOptions) (secret identity : String) (es : List Event)
    (hrevoke : o.revokeOnDisconnect = true) (hsecret : o.secret = some secret)
    (hes : ∀ e ∈ es, e.Ordinary) :
    let after := course es
      { options := o, data := { store := { store := {} } }, permits := o.maxInflight }
    let ds := after.1
    let s : Session (Recorded Memory) := after.2
    (∀ d ∈ ds, ¬ d.Sets identity) → s.isIdle = true →
    (∀ c ∈ s.connections, c.client.identity = identity → c.isClosed = true) →
    (s.data.store.store.values[identity]? ≠ none ↔ LateGrant secret identity ds) ∧
    (¬ LateGrant secret identity ds → ∀ later : List Event, (∀ e ∈ later, e.Ordinary) →
      (∀ d ∈ (course later s).1, ¬ d.Sets identity ∧ ∀ client, ¬ d.Grants secret identity client) →
      ∀ r a c, .reply r a ∈ (course later s).1 → r.client.identity = identity →
        Command.parse r.payload = .ok c → c.NeedsMark → a = .invalidAuth) := by
  intro after ds s hsets hidle hclosed
  obtain ⟨hnumbered, hgoing, hs⟩ : s.Numbered ∧ s.Going ∧ Guarded secret identity ds s :=
    Guarded.course hrevoke hsecret hes hsets
  obtain ⟨m, hr, hfree, hmark⟩ := hs.mark
  have hvalue : s.data.store.store.values[identity]? = m.values identity :=
    congrFun hr.values identity
  have hlate : LateGrant secret identity ds ↔ ∃ early client, Stands secret identity ds early client :=
    ⟨fun ⟨early, client, hstands, _⟩ ↦ ⟨early, client, hstands⟩, fun ⟨early, client, hstands⟩ ↦
      ⟨early, client, hstands, hs.late hgoing hidle hclosed hstands⟩⟩
  rw [hvalue, hlate]
  rcases hmark with ⟨hv, hstands⟩ | ⟨hv, hnone⟩
  · exact ⟨⟨fun _ ↦ hstands, fun _ ↦ by simp [hv]⟩, fun hnot ↦ absurd hstands hnot⟩
  · refine ⟨by simpa [hv] using hnone, fun _ later hlater hds r a c hreply ↦ ?_⟩
    have hrefused : Refused secret identity [] s := ⟨hs.options.2, ⟨m, hr, hfree, hv⟩, by simp⟩
    exact (hrefused.course hnumbered hgoing hlater hds).replies r a c hreply

/-- A client authenticates itself and leaves, and the next one with its address is refused. -/
theorem next_client_refused :
    let o : SessionOptions := { secret := some "s", revokeOnDisconnect := true }
    let es : List Event :=
      [.outside (.connect "i" .sound), .outside (.send 0 (bytesOf "AUTH s\n")), .reader 0, .reader 0,
        .reader 0, .takeRequest, .task 0, .task 0, .outside (.finish 0), .reader 0, .takeDeparture,
        .task 0]
    let later : List Event :=
      [.outside (.connect "i" .sound), .outside (.send 1 (bytesOf "GET k\n")), .reader 1, .reader 1,
        .reader 1, .takeRequest, .task 0]
    let after := course es
      { options := o, data := { store := { store := ({} : Memory) } }, permits := o.maxInflight }
    ¬ LateGrant "s" "i" after.1 ∧
      ∃ a, .reply ⟨⟨1, "i"⟩, bytesOf "GET k\n"⟩ a ∈ (course later after.2).1 ∧ a = .invalidAuth := by
  intro o es later after
  have hauth : Command.parse (bytesOf "AUTH s\n") = .ok (.auth "s") := by decide +kernel
  have hget : Command.parse (bytesOf "GET k\n") = .ok (.get "k") := by decide +kernel
  have hes : ∀ e ∈ es, e.Ordinary := by simp [es, Event.Ordinary, Step.Tampers]
  have hlater : ∀ e ∈ later, e.Ordinary := by simp [later, Event.Ordinary, Step.Tampers]
  let first : Request := ⟨⟨0, "i"⟩, bytesOf "AUTH s\n"⟩
  let second : Request := ⟨⟨1, "i"⟩, bytesOf "GET k\n"⟩
  have hbefore : after.1 = [.arrive 0 first.payload, .read first, .enqueue first, .take first,
      .reply first .ok, .finish first, .depart first.client, .revoke "i"] := by
    decide +kernel
  have hafter : (course later after.2).1 = [.arrive 1 second.payload, .read second, .enqueue second,
      .take second, .reply second .invalidAuth] := by
    decide +kernel
  have hsets : ∀ d ∈ after.1, ¬ d.Sets "i" := by
    rw [hbefore]
    rintro d hd ⟨r, value, ttl, rfl, hset⟩
    obtain rfl : r = first := by simpa using hd
    cases hauth.symm.trans hset
  have hquiet : ∀ d ∈ (course later after.2).1,
      ¬ d.Sets "i" ∧ ∀ client, ¬ d.Grants "s" "i" client := by
    rw [hafter]
    simp [Deed.Sets, Deed.Grants]
  obtain ⟨hentry, hrefused⟩ := marked_iff_late_grant o "s" "i" es rfl rfl hes hsets
    (by decide +kernel) (by decide +kernel)
  have hnone : after.2.data.store.store.values["i"]? = none := by decide +kernel
  have hnot : ¬ LateGrant "s" "i" after.1 := fun hlate ↦ hentry.mpr hlate hnone
  have hreply : .reply ⟨⟨1, "i"⟩, bytesOf "GET k\n"⟩ .invalidAuth ∈ (course later after.2).1 := by
    decide +kernel
  exact ⟨hnot, _, hreply, hrefused hnot later hlater hquiet _ _ _ hreply rfl hget trivial⟩

/-- A client whose departure has been reported may still authenticate itself, and its mark stays
when it leaves. -/
theorem mark_outlives_client :
    let o : SessionOptions := { secret := some "s", revokeOnDisconnect := true }
    let s := (runSteps
      [.connect "i" .sound, .unregister 0, .send 0 (bytesOf "AUTH s\n"), .finish 0]
      { options := o, data := { store := { store := ({} : Memory) } }, permits := o.maxInflight }).2
    s.isIdle = true ∧ (∀ c ∈ s.connections, c.isClosed = true) ∧
      s.data.store.store.values["i"]? = some "s" := by
  decide +kernel

end Session

end KvServer
