import KvServer.Proofs.Dispatch.Bisimulation
import KvServer.Proofs.Store.Keyed

/-!
# What a request leaves alone

A request that is not answered `OK` leaves its notes in the record of calls and changes nothing
else: neither the store nor any timer (`forget_execute`).  So every run goes on as if the request
had not been made.  A request that is answered `OK` keeps to the key that it names: what a look-up
of another key finds and the timers of that key stay as they are (`sameAt_execute`).
-/

namespace KvServer

open Text

/-- The key that a command of a client names. -/
def Command.subject (identity : String) : Command → String
  | .auth _ => identity
  | .set key _ _ | .get key | .del key => key

namespace TimedStore

variable {σ : Type} {key other : String} {token : Nat}

/-- A state without its record of calls. -/
def forget (s : TimedStore (Recorded σ)) : TimedStore (Recorded σ) :=
  { s with store := s.store.forget }

theorem eq_setStore_of_forget {s s' : TimedStore (Recorded σ)} (h : s'.forget = s.forget) :
    s' = { s with store := s'.store } := by
  cases s
  cases s'
  simp only [forget, mk.injEq] at h
  simp [h]

/-! ## Timers of other keys -/

theorem Coherent.getElem?_disarm_iff {s : TimedStore σ} (hs : s.Coherent) {t : Timer}
    (ht : t.key ≠ key) : (s.disarm key).timers[token]? = some t ↔ s.timers[token]? = some t := by
  cases harmed : s.armed[key]? with
  | none => rw [disarm_of_not_armed harmed]
  | some i =>
      rw [disarm_of_armed harmed]
      by_cases hi : i = token
      · -- the cancelled timer is one of the key
        subst hi
        obtain ⟨u, hu, rfl⟩ := hs.key_of_armed harmed
        change (s.finish .cancelled i).timers[i]? = some t ↔ _
        rw [getElem?_finish_self, hu, Option.map_some, Option.some.injEq, Option.some.injEq]
        constructor
        · rintro rfl
          exact absurd (Timer.finish_key _ _) ht
        · rintro rfl
          exact absurd rfl ht
      · exact iff_of_eq (congrArg (· = some t) (getElem?_finish_ne hi))

theorem getElem?_arm_iff {s : TimedStore σ} {t : Timer} (ht : t.key ≠ key) (ttl : Nat) :
    (s.arm key ttl).timers[token]? = some t ↔ s.timers[token]? = some t := by
  refine ⟨fun h ↦ ?_, getElem?_arm_timers ttl⟩
  rcases Nat.lt_trichotomy token s.timers.length with hlt | rfl | hgt
  · rwa [arm, List.getElem?_append_left hlt] at h
  · rw [getElem?_arm_new] at h
    cases h
    exact absurd rfl ht
  · have hnone : (s.arm key ttl).timers[token]? = none := by
      rw [List.getElem?_eq_none_iff]
      simp only [arm, List.length_append, List.length_singleton]
      omega
    rw [hnone] at h
    cases h

theorem Coherent.getElem?_rearm_iff {s : TimedStore σ} (hs : s.Coherent) {t : Timer}
    (ht : t.key ≠ key) (ttl : Option Nat) :
    (s.rearm key ttl).timers[token]? = some t ↔ s.timers[token]? = some t := by
  cases ttl with
  | none => exact hs.getElem?_disarm_iff ht
  | some ttl => exact (getElem?_arm_iff ht ttl).trans (hs.getElem?_disarm_iff ht)

variable [Store σ]

/-- What a look-up of a key finds and the timers of the key are the same in two states. -/
structure SameAt (key : String) (s s' : TimedStore (Recorded σ)) : Prop where
  lookUp : Store.lookUp key s'.store.store = Store.lookUp key s.store.store
  armed : s'.armed[key]? = s.armed[key]?
  timers : ∀ (token : Nat) (t : Timer), t.key = key →
    (s'.timers[token]? = some t ↔ s.timers[token]? = some t)

variable {s s' s'' : TimedStore (Recorded σ)}

theorem SameAt.trans (h : SameAt key s s') (h' : SameAt key s' s'') : SameAt key s s'' where
  lookUp := h'.lookUp.trans h.lookUp
  armed := h'.armed.trans h.armed
  timers token t ht := (h'.timers token t ht).trans (h.timers token t ht)

theorem SameAt.of_forget (h : s'.forget = s.forget) : SameAt key s s' := by
  have hlookUp := congrArg (fun s ↦ Store.lookUp key s.store.store) h
  refine ⟨hlookUp, ?_, fun token t _ ↦ ?_⟩
  · rw [eq_setStore_of_forget h]
  · rw [eq_setStore_of_forget h]

variable [KeyedStore σ]

theorem sameAt_call {c : Call} (h : c.key? ≠ some other) : SameAt other s (s.call c).2 where
  lookUp := Recorded.lookUp_call_of_ne h s.store
  armed := rfl
  timers _ _ _ := Iff.rfl

omit [KeyedStore σ] in
/-- A write that succeeds concerns its own key only, as far as its store does. -/
theorem sameAt_write (hs : s.Coherent) (hne : key ≠ other) (ttl : Option Nat)
    {store : Recorded σ} {apply : Recorded σ → Except StoreError Unit × Recorded σ}
    (happly : apply s.store = (.ok (), store))
    (hlookUp : Store.lookUp other store.store = Store.lookUp other s.store.store) :
    SameAt other s (s.write key ttl apply).2 := by
  rw [write_of_ok ttl happly]
  refine ⟨?_, ?_, fun token t ht ↦ ?_⟩
  · rw [rearm_store, hlookUp]
  · rw [getElem?_rearm_armed, if_neg hne]
  · exact (hs.setStore store).getElem?_rearm_iff (fun hkey ↦ hne (hkey.symm.trans ht)) ttl

end TimedStore

namespace Dispatch

open TimedStore

variable {σ : Type} [Store σ] [KeyedStore σ] {s : TimedStore (Recorded σ)} {secret : Option String}
  {identity : String}

omit [Store σ] [KeyedStore σ] in
theorem replyOf_eq_ok_iff {o : Except StoreError Unit} : replyOf o = .ok ↔ o = .ok () := by
  cases o with
  | error e => simp [replyOf, Except.isOk, Except.toBool]
  | ok => simp [replyOf, Except.isOk, Except.toBool]

omit [Store σ] [KeyedStore σ] in
theorem exists_error_of_replyOf {o : Except StoreError Unit} (h : replyOf o ≠ .ok) :
    ∃ e, o = .error e := by
  cases o with
  | error e => exact ⟨e, rfl⟩
  | ok => exact absurd (replyOf_eq_ok_iff.mpr rfl) h

/-! ## Requests that are not answered `OK` -/

omit [Store σ] [KeyedStore σ] in
theorem forget_write {key : String} {apply : Recorded σ → Except StoreError Unit × Recorded σ}
    (happly : ∀ e, (apply s.store).1 = .error e → (apply s.store).2.forget = s.store.forget)
    (ttl : Option Nat) (h : replyOf (s.write key ttl apply).1 ≠ .ok) :
    (s.write key ttl apply).2.forget = s.forget := by
  rw [replyOf_write] at h
  obtain ⟨e, he⟩ := exists_error_of_replyOf h
  rw [write_of_error ttl (Prod.ext he rfl)]
  exact congrArg (fun store ↦ { s with store }) (happly e he)

theorem forget_set {key value : String} {ttl : Option Nat} (h : (set key value ttl s).1 ≠ .ok) :
    (set key value ttl s).2.forget = s.forget := by
  rw [set_eq] at h ⊢
  exact forget_write (fun _ he ↦ Recorded.forget_call_of_error (c := .set key value) he) _ h

theorem forget_del {key : String} (h : (del key s).1 ≠ .ok) : (del key s).2.forget = s.forget := by
  rw [del_eq] at h ⊢
  exact forget_write (fun _ he ↦ Recorded.forget_call_of_error (c := .delete key) he) _ h

theorem forget_call_get (key : String) : (s.call (.get key)).2.forget = s.forget :=
  congrArg (fun store ↦ { s with store }) (Recorded.forget_call_get key s.store)

theorem forget_authenticate {candidate : String}
    (h : (authenticate secret identity candidate s).1 ≠ .ok) :
    (authenticate secret identity candidate s).2.forget = s.forget := by
  cases secret with
  | none => rfl
  | some secret =>
      rw [authenticate_some] at h ⊢
      split at h
      · rename_i hc
        obtain ⟨e, he⟩ := exists_error_of_replyOf h
        rw [if_pos hc]
        exact congrArg (fun store ↦ { s with store }) (Recorded.forget_call_of_error he)
      · rename_i hc
        rw [if_neg hc]

theorem forget_authorized
    {body : TimedStore (Recorded σ) → Reply × TimedStore (Recorded σ)}
    (hbody : ∀ {s}, (body s).1 ≠ .ok → (body s).2.forget = s.forget)
    (h : (authorized secret identity body s).1 ≠ .ok) :
    (authorized secret identity body s).2.forget = s.forget := by
  cases secret with
  | none => exact hbody h
  | some secret =>
      by_cases hmarked : (s.call (.get identity)).1 = .ok secret
      · rw [authorized_of_marked body hmarked] at h ⊢
        exact (hbody h).trans (forget_call_get identity)
      · rw [authorized_of_not_marked body hmarked]
        exact forget_call_get identity

/-- A request that is not answered `OK` changes nothing but the record of calls. -/
theorem forget_execute {frame : Bytes} (h : (execute secret identity frame s).1 ≠ .ok) :
    (execute secret identity frame s).2.forget = s.forget := by
  cases hparse : Command.parse frame with
  | error e => rw [execute_of_error hparse]
  | ok c =>
      rw [execute_of_ok hparse] at h ⊢
      cases c with
      | auth candidate => exact forget_authenticate h
      | set key value ttl => exact forget_authorized forget_set h
      | get key =>
          refine forget_authorized (fun {s} _ ↦ ?_) h
          rw [get_snd]
          exact forget_call_get key
      | del key => exact forget_authorized forget_del h

/-! ## Requests that are answered `OK` -/

variable {other : String}

theorem sameAt_set {key value : String} {ttl : Option Nat} (hs : s.Coherent) (hne : key ≠ other)
    (h : (set key value ttl s).1 = .ok) : SameAt other s (set key value ttl s).2 := by
  rw [set_eq] at h ⊢
  rw [replyOf_write, replyOf_eq_ok_iff] at h
  refine sameAt_write hs hne _ (Prod.ext h rfl) ?_
  exact Recorded.lookUp_call_of_ne (by simpa [Call.key?] using hne) s.store

theorem sameAt_del {key : String} (hs : s.Coherent) (hne : key ≠ other)
    (h : (del key s).1 = .ok) : SameAt other s (del key s).2 := by
  rw [del_eq] at h ⊢
  rw [replyOf_write, replyOf_eq_ok_iff] at h
  refine sameAt_write hs hne _ (Prod.ext h rfl) ?_
  exact Recorded.lookUp_call_of_ne (by simpa [Call.key?] using hne) s.store

theorem sameAt_authenticate {candidate : String} (hne : identity ≠ other) :
    SameAt other s (authenticate secret identity candidate s).2 := by
  cases secret with
  | none => exact .of_forget rfl
  | some secret =>
      rw [authenticate_some]
      split
      · exact sameAt_call (by simpa [Call.key?] using hne)
      · exact .of_forget rfl

theorem sameAt_authorized {body : TimedStore (Recorded σ) → Reply × TimedStore (Recorded σ)}
    (hs : s.Coherent)
    (hbody : ∀ {s}, s.Coherent → (body s).1 = .ok → SameAt other s (body s).2)
    (h : (authorized secret identity body s).1 = .ok) :
    SameAt other s (authorized secret identity body s).2 := by
  cases secret with
  | none => exact hbody hs h
  | some secret =>
      by_cases hmarked : (s.call (.get identity)).1 = .ok secret
      · rw [authorized_of_marked body hmarked] at h ⊢
        exact (SameAt.of_forget (forget_call_get identity)).trans (hbody (hs.setStore _) h)
      · rw [authorized_of_not_marked body hmarked] at h
        cases h

omit [KeyedStore σ] in
theorem get_ne_ok {key : String} : (get key s).1 ≠ .ok := by
  rw [get_eq]
  cases (s.call (.get key)).1 <;> simp [valueOf]

omit [Store σ] [KeyedStore σ] in
theorem ofFrameError_ne_ok (e : FrameError) : Reply.ofFrameError e ≠ .ok := by
  cases e <;> simp [Reply.ofFrameError]

/-- A request that is answered `OK` changes what is found, and the timers, at no key but the one
that it names. -/
theorem sameAt_execute {frame : Bytes} (hs : s.Coherent)
    (h : (execute secret identity frame s).1 = .ok) :
    ∃ c, Command.parse frame = .ok c ∧
      ∀ other, other ≠ c.subject identity → SameAt other s (execute secret identity frame s).2 := by
  cases hparse : Command.parse frame with
  | error e =>
      rw [execute_of_error hparse] at h
      exact absurd h (ofFrameError_ne_ok e)
  | ok c =>
      refine ⟨c, rfl, fun other hother ↦ ?_⟩
      rw [execute_of_ok hparse] at h ⊢
      cases c with
      | auth candidate => exact sameAt_authenticate (Ne.symm hother)
      | set key value ttl =>
          exact sameAt_authorized hs (fun hs ↦ sameAt_set hs (Ne.symm hother)) h
      | get key => exact sameAt_authorized hs (fun _ hok ↦ absurd hok get_ne_ok) h
      | del key => exact sameAt_authorized hs (fun hs ↦ sameAt_del hs (Ne.symm hother)) h

end Dispatch

/-! ## Runs without the request -/

namespace Recorded

variable {σ : Type} {m n : List Note} {a b : Recorded σ}

/-- Two recorded stores that differ in their records only, to which the same calls have been added
since the records were `m` and `n`. -/
structure Parted (m n : List Note) (a b : Recorded σ) : Prop where
  store : a.store = b.store
  faults : a.faults = b.faults
  notes : ∃ new, a.notes = new ++ m ∧ b.notes = new ++ n

theorem Parted.note (h : Parted m n a b) (c : Call) (o : c.Outcome) :
    Parted m n (a.note c o) (b.note c o) where
  store := h.store
  faults := h.faults
  notes := by
    obtain ⟨new, ha, hb⟩ := h.notes
    exact ⟨⟨c, o.error?⟩ :: new, by simp [Recorded.note, ha], by simp [Recorded.note, hb]⟩

variable [Store σ]

theorem bisimulation_parted : Recorded.Bisimulation (Parted (σ := σ) m n) where
  toBisimulation := bisimulation_of_note Parted.store Parted.faults
    (fun _ h ↦ ⟨rfl, h.faults, h.notes⟩) fun c o h ↦ h.note c o
  setFault h kind error? := ⟨h.store, by simp only [Recorded.setFault, h.faults], h.notes⟩
  direct h c := by
    simp only [Recorded.direct, h.store]
    exact ⟨trivial, rfl, h.faults, h.notes⟩

end Recorded

theorem TimedStore.Alike.forget_eq {σ : Type} {m n : List Note} {s t : TimedStore (Recorded σ)}
    (h : Alike (Recorded.Parted m n) s t) : s.forget = t.forget := by
  simp only [TimedStore.forget, Recorded.forget, h.store.store, h.store.faults, h.now, h.channel,
    h.timers, h.armed]

namespace Dispatch

open TimedStore

/-- Take any state that a dispatcher reaches on either kind of store, whatever faults are set on the
way.  A request that is not answered `OK` there changes nothing but the record of calls: the store,
the armed map and all timers stay as they are, so every later run gets the same answers, makes the
same calls and comes to the same state as without the request.  A request that is answered `OK`
changes what is found, and the timers, at no key but the one that it names. -/
theorem failed_request_leaves_no_trace (secret : Option String) (store : Recorded AnyStore)
    (now : Nat) (channel : Channel) (sts : List Step) (identity : String) (frame : Bytes) :
    let s := (runSteps secret sts { store, now, channel }).2
    let out := execute secret identity frame s
    (out.1 ≠ .ok →
      out.2.forget = s.forget ∧
      ∀ later,
        let after := runSteps secret (.frame identity frame :: later) s
        let without := runSteps secret later s
        after.1 = .reply out.1 :: without.1 ∧ after.2.forget = without.2.forget ∧
          ∃ new, after.2.store.notes = new ++ out.2.store.notes ∧
            without.2.store.notes = new ++ s.store.notes) ∧
    (out.1 = .ok → ∃ c, Command.parse frame = .ok c ∧
      ∀ other, other ≠ c.subject identity → SameAt other s out.2) := by
  intro s out
  have hs : s.Settled := settled_runSteps (.empty store now channel) secret sts
  refine ⟨fun hreply ↦ ?_, sameAt_execute hs.coherent⟩
  have hforget : out.2.forget = s.forget := forget_execute hreply
  refine ⟨hforget, fun later ↦ ?_⟩
  have hsame : out.2 = { s with store := out.2.store } := eq_setStore_of_forget hforget
  have hsettle : out.2.settle = out.2 := by
    rw [hsame]
    exact (hs.setStore out.2.store).settle_eq
  have hstart : Alike (Recorded.Parted out.2.store.notes s.store.notes) out.2.settle s := by
    have hstore := congrArg (fun s ↦ s.store.store) hforget
    have hfaults := congrArg (fun s ↦ s.store.faults) hforget
    rw [hsettle]
    refine ⟨⟨hstore, hfaults, [], rfl, rfl⟩, ?_, ?_, ?_, ?_⟩ <;> rw [hsame]
  obtain ⟨hanswers, hend⟩ := hstart.run Recorded.bisimulation_parted secret later
  exact ⟨congrArg (Answer.reply out.1 :: ·) hanswers, hend.forget_eq, hend.store.notes⟩

end Dispatch

end KvServer
