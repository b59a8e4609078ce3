import KvServer.Dispatch.Run
import KvServer.Proofs.Expiry.Settling

/-!
# What a frame does

A frame reaches the store through calls and through writes with a time to live that is none or
positive.  So what these keep, a frame keeps: `execute_induction`.  In particular a frame leaves a
settled store settled, as long as there is no shutdown.
-/

namespace KvServer

open Text

theorem exists_ok_of_map {ε α β : Type} {f : α → β} {x : Except ε α} {b : β}
    (h : x.map f = .ok b) : ∃ a, x = .ok a ∧ f a = b := by
  cases x with
  | error e => cases h
  | ok a => exact ⟨a, rfl, Except.ok.inj h⟩

namespace Command

theorem pos_of_expiry? {arg : List Char} {n : Nat} (h : expiry? arg = .ok (some n)) : 0 < n := by
  unfold expiry? at h
  split at h
  · cases h
  · cases h
  · rename_i hne _
    cases h
    exact Nat.pos_of_ne_zero hne

theorem pos_of_ofSetArguments {args : List (List Char)} {key value : String} {n : Nat}
    (h : ofSetArguments args = .ok (.set key value (some n))) : 0 < n := by
  unfold ofSetArguments at h
  split at h
  · cases h
  · cases h
  · cases h
  · obtain ⟨ttl, harg, hc⟩ := exists_ok_of_map h
    cases hc
    exact pos_of_expiry? harg
  · cases h

/-- A frame gives no time to live of zero. -/
theorem pos_of_parse {frame : Bytes} {key value : String} {n : Nat}
    (h : parse frame = .ok (.set key value (some n))) : 0 < n := by
  unfold parse at h
  split at h
  · cases h
  · unfold ofFields at h
    split at h
    · cases h
    · split at h
      · obtain ⟨arg, -, hc⟩ := exists_ok_of_map h
        cases hc
      · exact pos_of_ofSetArguments h
      · obtain ⟨arg, -, hc⟩ := exists_ok_of_map h
        cases hc
      · obtain ⟨arg, -, hc⟩ := exists_ok_of_map h
        cases hc
      · cases h

end Command

namespace Dispatch

variable {σ : Type} [Store σ] {s : TimedStore σ} {secret : Option String}
  {identity candidate key value : String}

/-! ## One equation for each command -/

def replyOf {α : Type} (o : Except StoreError α) : Reply := if o.isOk then .ok else .error

theorem authenticate_some (secret : String) :
    authenticate (some secret) identity candidate s =
      if candidate = secret then
        (replyOf (s.call (.auth identity secret)).1, (s.call (.auth identity secret)).2)
      else (.invalidAuth, s) := by
  unfold authenticate
  by_cases h : candidate = secret
  · rcases hcall : s.call (.auth identity secret) with ⟨e | ⟨⟩, s'⟩ <;>
      simp [h, hcall, replyOf, Except.isOk, Except.toBool]
  · simp [h]

theorem authorized_of_marked {secret : String} (run : TimedStore σ → Reply × TimedStore σ)
    (h : (s.call (.get identity)).1 = .ok secret) :
    authorized (some secret) identity run s = run (s.call (.get identity)).2 := by
  unfold authorized
  rcases hcall : s.call (.get identity) with ⟨e | marker, s'⟩
  · simp [hcall] at h
  · rw [hcall] at h
    cases h
    simp

theorem authorized_of_not_marked {secret : String} (run : TimedStore σ → Reply × TimedStore σ)
    (h : (s.call (.get identity)).1 ≠ .ok secret) :
    authorized (some secret) identity run s =
      (.invalidAuth, (s.call (.get identity)).2) := by
  unfold authorized
  rcases hcall : s.call (.get identity) with ⟨e | marker, s'⟩
  · rfl
  · have hmarker : marker ≠ secret := by
      rintro rfl
      exact h (by rw [hcall])
    simp [hmarker]

omit [Store σ] in
/-- A write succeeds if what it applies does. -/
theorem replyOf_write (key : String) (ttl : Option Nat)
    (apply : σ → Except StoreError Unit × σ) (s : TimedStore σ) :
    replyOf (s.write key ttl apply).1 = replyOf (apply s.store).1 := by
  rcases happly : apply s.store with ⟨e | ⟨⟩, store⟩
  · rw [TimedStore.write_of_error ttl happly]
    rfl
  · rw [TimedStore.write_of_ok ttl happly]
    rfl

theorem set_eq (expiry : Option Nat) :
    set key value expiry s =
      (replyOf (s.write key (expiry.map milliseconds) (Store.call (.set key value))).1,
        (s.write key (expiry.map milliseconds) (Store.call (.set key value))).2) := by
  unfold set
  rcases hwrite : s.write key (expiry.map milliseconds) (Store.call (.set key value)) with
    ⟨e | o, s'⟩ <;> simp [replyOf, Except.isOk, Except.toBool]

theorem del_eq :
    del key s =
      (replyOf (s.write key none (Store.call (.delete key))).1,
        (s.write key none (Store.call (.delete key))).2) := by
  unfold del
  rcases hwrite : s.write key none (Store.call (.delete key)) with ⟨e | o, s'⟩ <;>
    simp [replyOf, Except.isOk, Except.toBool]

def valueOf : Except StoreError String → Reply
  | .ok value => .value value
  | .error _ => .error

theorem get_eq : get key s = (valueOf (s.call (.get key)).1, (s.call (.get key)).2) := by
  unfold get
  rcases s.call (.get key) with ⟨e | value, s'⟩ <;> rfl

theorem get_snd : (get key s).2 = (s.call (.get key)).2 := by
  rw [get_eq]

theorem execute_of_error {frame : Bytes} {e : FrameError} (h : Command.parse frame = .error e) :
    execute secret identity frame s = (.ofFrameError e, s) := by
  simp [execute, h]

theorem execute_of_ok {frame : Bytes} {c : Command} (h : Command.parse frame = .ok c) :
    execute secret identity frame s = run secret identity c s := by
  simp [execute, h]

/-! ## Induction over what a frame does -/

theorem authorized_induction {P : TimedStore σ → Prop}
    {run : TimedStore σ → Reply × TimedStore σ} (hs : P s)
    (hget : ∀ s key, P s → P (s.call (.get key)).2) (hrun : ∀ s, P s → P (run s).2) :
    P (authorized secret identity run s).2 := by
  cases secret with
  | none => exact hrun s hs
  | some secret =>
      by_cases hmarked : (s.call (.get identity)).1 = .ok secret
      · rw [authorized_of_marked run hmarked]
        exact hrun _ (hget s _ hs)
      · rw [authorized_of_not_marked run hmarked]
        exact hget s _ hs

/-- What each look-up, each mark and each write or removal of a value keeps, a frame keeps. -/
theorem execute_call_induction {P : TimedStore σ → Prop} (frame : Bytes) (hs : P s)
    (hget : ∀ s key, P s → P (s.call (.get key)).2)
    (hauth : ∀ s identity secret, P s → P (s.call (.auth identity secret)).2)
    (hset : ∀ s key value ttl, (∀ ms ∈ ttl, 0 < ms) → P s →
      P (s.write key ttl (Store.call (.set key value))).2)
    (hdelete : ∀ s key, P s → P (s.write key none (Store.call (.delete key))).2) :
    P (execute secret identity frame s).2 := by
  cases hparse : Command.parse frame with
  | error e => rwa [execute_of_error hparse]
  | ok c =>
      rw [execute_of_ok hparse]
      cases c with
      | auth candidate =>
          cases secret with
          | none => exact hs
          | some secret =>
              rw [run, authenticate_some]
              split
              · exact hauth s _ _ hs
              · exact hs
      | set key value ttl =>
          refine authorized_induction hs hget fun s hs ↦ ?_
          rw [set_eq]
          refine hset s key value _ ?_ hs
          intro ms hms
          obtain ⟨n, rfl, rfl⟩ := Option.map_eq_some_iff.mp hms
          have hpos := Command.pos_of_parse hparse
          unfold milliseconds
          omega
      | get key =>
          refine authorized_induction hs hget fun s hs ↦ ?_
          rw [get_snd]
          exact hget s _ hs
      | del key =>
          refine authorized_induction hs hget fun s hs ↦ ?_
          rw [del_eq]
          exact hdelete s key hs

/-- What each call and each write keeps, a frame keeps. -/
theorem execute_induction {P : TimedStore σ → Prop} (frame : Bytes) (hs : P s)
    (hcall : ∀ s c, P s → P (s.call c).2)
    (hwrite : ∀ s key ttl apply, (∀ ms ∈ ttl, 0 < ms) → P s → P (s.write key ttl apply).2) :
    P (execute secret identity frame s).2 := by
  apply execute_call_induction frame hs
  · exact fun s key ↦ hcall s _
  · exact fun s identity secret ↦ hcall s _
  · exact fun s key value ttl ↦ hwrite s key ttl _
  · exact fun s key ↦ hwrite s key none _ (by simp)

@[simp] theorem execute_channel (frame : Bytes) :
    (execute secret identity frame s).2.channel = s.channel :=
  execute_induction (P := fun s' ↦ s'.channel = s.channel) frame rfl (fun _ _ h ↦ h)
    fun _ _ _ _ _ h ↦ TimedStore.write_channel.trans h

theorem coherent_execute (frame : Bytes) (h : s.Coherent) :
    (execute secret identity frame s).2.Coherent :=
  execute_induction frame h (fun _ _ h ↦ h.setStore _) fun _ _ ttl apply _ h ↦ h.write ttl apply

/-- Without a shutdown, a frame leaves a settled store settled. -/
theorem settled_execute (frame : Bytes) (h : s.Settled) (hstop : s.channel.stopped = false) :
    (execute secret identity frame s).2.Settled := by
  refine (execute_induction (P := fun s' ↦ s'.Settled ∧ s'.channel.stopped = false) frame
    ⟨h, hstop⟩ ?_ ?_).1
  · rintro s c ⟨hs, hstop⟩
    exact ⟨hs.setStore _, hstop⟩
  · rintro s key ttl apply hpos ⟨hs, hstop⟩
    exact ⟨hs.write hstop hpos apply, by rwa [TimedStore.write_channel]⟩

theorem settled_revoke (h : s.Settled) : (revoke secret identity s).Settled := by
  unfold revoke
  split
  · exact h.setStore _
  · exact h

@[simp] theorem revoke_channel : (revoke secret identity s).channel = s.channel := by
  unfold revoke
  split <;> rfl

/-! ## Runs -/

theorem runSteps_append (secret : Option String) (sts later : List Step)
    (s : TimedStore (Recorded σ)) :
    runSteps secret (sts ++ later) s =
      ((runSteps secret sts s).1 ++ (runSteps secret later (runSteps secret sts s).2).1,
        (runSteps secret later (runSteps secret sts s).2).2) := by
  induction sts generalizing s with
  | nil => rfl
  | cons st sts ih => simp only [List.cons_append, runSteps, ih]

theorem settled_step {s : TimedStore (Recorded σ)} (h : s.Settled) (secret : Option String)
    (st : Step) : (step secret st s).2.Settled := by
  cases st with
  | frame identity bytes => exact (coherent_execute bytes h.coherent).settled_settle
  | revoke identity => exact settled_revoke h
  | advance ms => exact (h.coherent.setNow (s.now + ms)).settled_settle
  | signal sig => exact (h.coherent.setChannel (s.channel.after sig)).settled_settle
  | fault kind error? => exact h.setStore _
  | direct c => exact h.setStore _

theorem settled_runSteps {s : TimedStore (Recorded σ)} (h : s.Settled) (secret : Option String)
    (sts : List Step) : (runSteps secret sts s).2.Settled := by
  induction sts generalizing s with
  | nil => exact h
  | cons st sts ih => exact ih (settled_step h secret st)

end Dispatch

end KvServer
