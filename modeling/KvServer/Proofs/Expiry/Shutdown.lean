import KvServer.Expiry.Run
import KvServer.Proofs.Expiry.Ending
import KvServer.Proofs.Expiry.Supersession

/-!
# Timers and the shutdown channel

While the channel tells everyone to stop, timers end without a call.  A timer that has ended stays
ended, whatever the channel says afterwards; its token may stay in the armed map, where it does no
harm.  A timer armed while nobody has to stop deletes its key at its deadline, unless a signal, a
cancellation or another write to the key comes first (`timers_obey_channel`).

`history` notes which timers ran out in a run and which calls each of them made.  Two facts about a
timer carry the induction over a run: it `Awaits` its deadline, or it is `Over`.
-/

namespace KvServer

namespace TimedStore

variable {σ : Type} {s : TimedStore σ} {key : String} {status : TimerStatus}

theorem Coherent.deadline?_of_finish (h : s.Coherent) (hstatus : status ≠ .pending) {token : Nat}
    {time : Nat} (htime : (s.finish status token).deadline? key = some time) :
    s.deadline? key = some time := by
  obtain ⟨i, t, ht, hkey, huntil⟩ := (h.finish hstatus).deadline?_eq_some_iff.mp htime
  have hi : token ≠ i := by
    rintro rfl
    rw [getElem?_finish_self] at ht
    obtain ⟨u, -, rfl⟩ := Option.map_eq_some_iff.mp ht
    exact Timer.finish_not_pending hstatus u (Timer.until?_eq_some.mp huntil).1
  rw [getElem?_finish_ne hi] at ht
  exact h.deadline?_eq_some_iff.mpr ⟨i, t, ht, hkey, huntil⟩

theorem Settled.finish (h : s.Settled) (hstatus : status ≠ .pending) (token : Nat) :
    (s.finish status token).Settled where
  coherent := h.coherent.finish hstatus
  not_passed htime := h.not_passed (h.coherent.deadline?_of_finish hstatus htime)
  ended := by
    intro hstop key
    rw [Option.eq_none_iff_forall_ne_some]
    intro time htime
    have hnone := h.ended hstop key
    rw [h.coherent.deadline?_of_finish hstatus htime] at hnone
    cases hnone

end TimedStore

namespace Expiry

open TimedStore Race

section Timers

variable {σ : Type} {s : TimedStore σ} {key other : String} {token deadline : Nat}

/-! ## Timers that have ended -/

/-- The timer of a token has run out, or has been ended or cancelled. -/
def Over (token : Nat) (s : TimedStore σ) : Prop :=
  ∃ t, s.timers[token]? = some t ∧ t.status ≠ .pending

theorem Over.onward {cancel : Nat → Prop} {s' : TimedStore σ} (h : Over token s)
    (hs : Onward cancel s s') : Over token s' := by
  obtain ⟨t, ht, hstatus⟩ := h
  exact ⟨t, hs.ended ht hstatus, hstatus⟩

theorem over_finish_self (hlt : token < s.timers.length) : Over token (s.finish .done token) := by
  refine ⟨s.timers[token].finish .done, ?_, Timer.finish_not_pending (by simp) _⟩
  rw [getElem?_finish_self, List.getElem?_eq_getElem hlt]
  rfl

theorem over_endTimers (hlt : token < s.timers.length) : Over token s.endTimers := by
  refine ⟨s.timers[token].finish .done, ?_, Timer.finish_not_pending (by simp) _⟩
  simp [endTimers, List.getElem?_eq_getElem hlt]

/-- A timer that has ended does not run out. -/
theorem Over.not_due (h : Over token s) : token ∉ s.due := by
  obtain ⟨t, ht, hstatus⟩ := h
  intro hdue
  obtain ⟨t', ht', htime⟩ := mem_due.mp hdue
  cases ht.symm.trans ht'
  obtain ⟨time, -, huntil⟩ := Timer.isDue_iff.mp htime
  exact hstatus (Timer.until?_eq_some.mp huntil).1

/-! ## Timers that wait -/

/-- The timer of a token is the one armed for a key and waits for its deadline. -/
structure Awaits (key : String) (token deadline : Nat) (s : TimedStore σ) : Prop where
  armed : s.armed[key]? = some token
  timer : s.timers[token]? = some { key, deadline }

theorem Awaits.lt (h : Awaits key token deadline s) : token < s.timers.length :=
  (List.getElem?_eq_some_iff.mp h.timer).1

theorem Awaits.due_iff (h : Awaits key token deadline s) : token ∈ s.due ↔ deadline ≤ s.now := by
  rw [mem_due, h.timer]
  simp [Timer.isDue]

theorem awaits_rearm (ttl : Nat) :
    Awaits key s.timers.length (s.now + ttl) (s.rearm key (some ttl)) where
  armed := by simp [getElem?_rearm_armed]
  timer := by
    have hlength : (s.disarm key).timers.length = s.timers.length := length_disarm_timers
    rw [rearm, ← hlength, getElem?_arm_new, disarm_now]

theorem Awaits.rearm_other (h : Awaits key token deadline s) (hs : s.Coherent)
    (hkey : other ≠ key) (ttl : Option Nat) : Awaits key token deadline (s.rearm other ttl) where
  armed := by
    rw [getElem?_rearm_armed, if_neg hkey]
    exact h.armed
  timer := by
    have hdisarm := (hs.getElem?_disarm_timers hkey h.armed).trans h.timer
    cases ttl with
    | none => exact hdisarm
    | some ttl => exact getElem?_arm_timers ttl hdisarm

theorem Awaits.write (h : Awaits key token deadline s) (hs : s.Coherent) {ttl : Option Nat}
    {apply : σ → Except StoreError Unit × σ}
    (hwrite : other = key → ∃ e, (s.write other ttl apply).1 = .error e) :
    Awaits key token deadline (s.write other ttl apply).2 := by
  rcases happly : apply s.store with ⟨e | ⟨⟩, store⟩
  · rw [write_of_error ttl happly]
    exact ⟨h.armed, h.timer⟩
  · rw [write_of_ok ttl happly] at hwrite ⊢
    have hkey : other ≠ key := by
      intro hother
      obtain ⟨e, he⟩ := hwrite hother
      cases he
    apply Awaits.rearm_other _ (hs.setStore store) hkey
    exact ⟨h.armed, h.timer⟩

end Timers

variable {σ : Type} [Store σ] {s : TimedStore (Recorded σ)} {st : Step}
  {key other : String} {token deadline : Nat}

theorem Awaits.settle (h : Awaits key token deadline s) (hs : s.Coherent)
    (hstop : s.channel.stopped = false) (hlt : s.now < deadline) :
    Awaits key token deadline s.settle := by
  have hdue : token ∉ s.due := fun hdue ↦ Nat.not_le_of_lt hlt (h.due_iff.mp hdue)
  rw [settle_of_not_stopped hstop]
  constructor
  · rw [hs.getElem?_fireAll_armed, if_neg]
    · exact h.armed
    · rintro ⟨i, hi, harmed⟩
      cases h.armed.symm.trans harmed
      exact hdue hi
  · rw [hs.getElem?_fireAll_timers hdue, h.timer]

theorem over_fireAll {tokens : List Nat} (hs : s.Coherent) (hlt : token < s.timers.length)
    (htoken : token ∈ tokens) : Over token (s.fireAll tokens) := by
  induction tokens generalizing s with
  | nil => cases htoken
  | cons i tokens ih =>
      have hfire : ∀ {j : Nat}, j < s.timers.length → j < (s.fire i).timers.length := by
        intro j hj
        rwa [hs.fire_timers, length_finish_timers]
      by_cases htokens : token ∈ tokens
      · exact ih hs.fire (hfire hlt) htokens
      · obtain rfl : token = i := by simpa [htokens] using htoken
        obtain ⟨t, ht, hstatus⟩ := over_finish_self hlt
        refine ⟨t, ?_, hstatus⟩
        rw [fireAll_cons, hs.fire.getElem?_fireAll_timers htokens, hs.fire_timers, ht]

/-! ## Steps -/

/-- The store when a step has been taken and no timer has run yet. -/
def begun (st : Step) (s : TimedStore (Recorded σ)) : TimedStore (Recorded σ) :=
  match st with
  | .write key ttl w => (s.write key ttl (w.apply key)).2
  | .abort token => s.finish .cancelled token
  | .advance ms => { s with now := s.now + ms }
  | .signal sig => { s with channel := s.channel.after sig }
  | .fault kind error? => { s with store := s.store.setFault kind error? }
  | .direct c => { s with store := (s.store.direct c).2 }

theorem coherent_begun (hs : s.Coherent) (st : Step) : (begun st s).Coherent := by
  cases st with
  | write key ttl w => exact hs.write ttl (w.apply key)
  | abort token => exact hs.finish (by simp)
  | advance ms => exact hs.setNow _
  | signal sig => exact hs.setChannel _
  | fault kind error? => exact hs.setStore _
  | direct c => exact hs.setStore _

theorem length_begun (st : Step) (s : TimedStore (Recorded σ)) :
    s.timers.length ≤ (begun st s).timers.length := by
  cases st with
  | write key ttl w =>
      rcases happly : w.apply key s.store with ⟨e | ⟨⟩, store⟩
      · simp [begun, write_of_error ttl happly]
      · simp [begun, write_of_ok ttl happly, length_rearm_timers]
  | abort token => exact Nat.le_of_eq length_finish_timers.symm
  | advance | signal | fault | direct => exact Nat.le_refl _

/-- A step cancels the timer of a token from outside, or by a write to its key that succeeds. -/
def Cancels (token : Nat) (st : Step) (s : TimedStore (Recorded σ)) : Prop :=
  match st with
  | .abort i => i = token
  | .write key ttl w =>
      (∃ token?, (step (.write key ttl w) s).1 = .write (.ok token?)) ∧ s.armed[key]? = some token
  | .advance _ | .signal _ | .fault .. | .direct _ => False

theorem onward_begun (st : Step) (s : TimedStore (Recorded σ)) :
    Onward (Cancels · st s) s (begun st s) := by
  cases st with
  | write key ttl w =>
      simp only [Cancels, step, Answer.write.injEq]
      exact .write ttl (w.apply key)
  | abort i => exact .finish fun t ↦ .finish_cancelled t rfl
  | advance | signal | fault | direct => exact .of_timers_eq rfl

/-- The timers that can run after a step are all that changes the store afterwards. -/
theorem step_snd_eq (hs : s.Settled) (st : Step) : (step st s).2 = (begun st s).settle := by
  cases st with
  | write | advance | signal => rfl
  | abort token => exact (hs.finish (by simp) token).settle_eq.symm
  | fault kind error? => exact (hs.setStore _).settle_eq.symm
  | direct c => exact (hs.setStore _).settle_eq.symm

theorem settled_step (hs : s.Settled) (st : Step) : (step st s).2.Settled := by
  rw [step_snd_eq hs]
  exact (coherent_begun hs.coherent st).settled_settle

theorem begun_now_le (st : Step) (s : TimedStore (Recorded σ)) : s.now ≤ (begun st s).now := by
  cases st with
  | write key ttl w => exact Nat.le_of_eq write_now.symm
  | advance ms => exact Nat.le_add_right _ _
  | abort | signal | fault | direct => exact Nat.le_refl _

theorem onward_step (hs : s.Settled) (st : Step) : Onward (Cancels · st s) s (step st s).2 := by
  rw [step_snd_eq hs]
  exact (onward_begun st s).trans (coherent_begun hs.coherent st).onward_settle

/-- A step that neither stops everyone nor cancels the timer of a token nor succeeds in writing its
key. -/
def Undisturbing (key : String) (token : Nat) (st : Step) (s : TimedStore (Recorded σ)) : Prop :=
  match st with
  | .write other ttl w => other = key → ∃ e, (step (.write other ttl w) s).1 = .write (.error e)
  | .abort i => i ≠ token
  | .signal sig => sig = .resume
  | .advance _ | .fault .. | .direct _ => True

def Undisturbed (key : String) (token : Nat) : List Step → TimedStore (Recorded σ) → Prop
  | [], _ => True
  | st :: sts, s => Undisturbing key token st s ∧ Undisturbed key token sts (step st s).2

theorem channel_begun (h : Undisturbing key token st s) (hstop : s.channel.stopped = false) :
    (begun st s).channel.stopped = false := by
  cases st with
  | write other ttl w => exact (congrArg Channel.stopped write_channel).trans hstop
  | signal sig =>
      cases h
      simp only [Channel.stopped, Bool.or_eq_false_iff, Bool.not_eq_false'] at hstop
      simp [begun, Channel.after, Channel.stopped, hstop]
  | abort | advance | fault | direct => exact hstop

theorem Awaits.after_begun (h : Awaits key token deadline s) (hs : s.Coherent)
    (hst : Undisturbing key token st s) : Awaits key token deadline (begun st s) := by
  cases st with
  | write other ttl w =>
      apply h.write hs
      intro hother
      obtain ⟨e, he⟩ := hst hother
      exact ⟨e, by simpa [step] using he⟩
  | abort i => exact ⟨h.armed, (getElem?_finish_ne hst).trans h.timer⟩
  | advance | signal | fault | direct => exact ⟨h.armed, h.timer⟩

theorem Awaits.after_step (h : Awaits key token deadline s) (hs : s.Settled)
    (hstop : s.channel.stopped = false) (hst : Undisturbing key token st s)
    (hlt : (step st s).2.now < deadline) : Awaits key token deadline (step st s).2 := by
  rw [step_snd_eq hs, settle_now] at hlt
  rw [step_snd_eq hs]
  apply (h.after_begun hs.coherent hst).settle (coherent_begun hs.coherent st) _ hlt
  exact channel_begun hst hstop

/-! ## Calls -/

/-- What the timers of these tokens do when they run out one after the other. -/
def ran : List Nat → TimedStore (Recorded σ) → List Entry
  | [], _ => []
  | token :: tokens, s => .ran token (callsOf token s) :: ran tokens (s.fire token)

/-- What the timers do once a step has been taken. -/
def entries (st : Step) (s : TimedStore (Recorded σ)) : List Entry :=
  if (begun st s).channel.stopped then [] else ran (begun st s).due (begun st s)

/-- What the timers do in a run. -/
def history : List Step → TimedStore (Recorded σ) → List Entry
  | [], _ => []
  | st :: sts, s => entries st s ++ history sts (step st s).2

/-- The calls that the timers made. -/
def calls (h : List Entry) : List Note :=
  h.flatMap fun
    | .ran _ calls => calls
    | _ => []

theorem calls_fire (hs : s.Coherent) (token : Nat) :
    (s.fire token).store.calls = s.store.calls ++ callsOf token s := by
  obtain ⟨key, -, hfire⟩ | ⟨-, hfire⟩ := hs.fire_cases token
  · simp [callsOf, callsSince, hfire, Recorded.calls, Recorded.notes_call]
  · simp [callsOf, callsSince, hfire]

theorem calls_fireAll (hs : s.Coherent) (tokens : List Nat) :
    (s.fireAll tokens).store.calls = s.store.calls ++ calls (ran tokens s) := by
  induction tokens generalizing s with
  | nil => simp [calls, ran]
  | cons i tokens ih =>
      rw [fireAll_cons, ih hs.fire, calls_fire hs, List.append_assoc]
      rfl

/-- Beside the call of the step itself, a step makes the calls of its timers and no other. -/
theorem calls_step (hs : s.Settled) (st : Step) :
    (step st s).2.store.calls = (begun st s).store.calls ++ calls (entries st s) := by
  rw [step_snd_eq hs, entries]
  cases hstop : (begun st s).channel.stopped with
  | true =>
      rw [settle_of_stopped hstop]
      simp [calls, endTimers]
  | false =>
      rw [settle_of_not_stopped hstop]
      exact calls_fireAll (coherent_begun hs.coherent st) _

theorem callsBy_ran_cons (i : Nat) (tokens : List Nat) :
    callsBy token (ran (i :: tokens) s) =
      (if i = token then callsOf token s else []) ++ callsBy token (ran tokens (s.fire i)) := by
  by_cases hi : i = token <;> simp [ran, callsBy, hi]

theorem callsBy_ran_of_notMem {tokens : List Nat} (h : token ∉ tokens) :
    callsBy token (ran tokens s) = [] := by
  induction tokens generalizing s with
  | nil => rfl
  | cons i tokens ih =>
      simp only [List.mem_cons, not_or] at h
      rw [callsBy_ran_cons, if_neg (Ne.symm h.1), ih h.2, List.append_nil]

theorem callsBy_ran_of_not_armed {tokens : List Nat} (hs : s.Coherent)
    (h : ∀ key : String, s.armed[key]? ≠ some token) : callsBy token (ran tokens s) = [] := by
  induction tokens generalizing s with
  | nil => rfl
  | cons i tokens ih =>
      rw [callsBy_ran_cons, callsOf_of_not_armed h, ite_self, List.nil_append]
      exact ih hs.fire (hs.fire_armed_ne h)

/-- A timer armed for its key deletes it once, however often it is asked to run out. -/
theorem callsBy_ran_of_armed {tokens : List Nat} (hs : s.Coherent)
    (harmed : s.armed[key]? = some token) (htoken : token ∈ tokens) :
    ∃ error?, callsBy token (ran tokens s) = [⟨.delete key, error?⟩] := by
  induction tokens generalizing s with
  | nil => cases htoken
  | cons i tokens ih =>
      rw [callsBy_ran_cons]
      by_cases hi : i = token
      · subst hi
        obtain ⟨error?, hcalls⟩ := callsOf_of_armed hs harmed
        refine ⟨error?, ?_⟩
        rw [if_pos rfl, hcalls, callsBy_ran_of_not_armed hs.fire, List.append_nil]
        intro other
        rw [hs.getElem?_fire_armed]
        by_cases hother : s.armed[other]? = some i <;> simp [hother]
      · rw [if_neg hi, List.nil_append]
        apply ih hs.fire
        · exact hs.fire_armed_of_ne hi harmed
        · simpa [Ne.symm hi] using htoken

theorem callsBy_entries_of_not_due (h : token ∉ (begun st s).due) :
    callsBy token (entries st s) = [] := by
  unfold entries
  split
  · rfl
  · exact callsBy_ran_of_notMem h

theorem Over.callsBy_entries (h : Over token s) (st : Step) :
    callsBy token (entries st s) = [] :=
  callsBy_entries_of_not_due (h.onward (onward_begun st s)).not_due

/-! ## Runs -/

variable {sts later : List Step}

theorem runSteps_append (sts later : List Step) (s : TimedStore (Recorded σ)) :
    (runSteps (sts ++ later) s).2 = (runSteps later (runSteps sts s).2).2 := by
  induction sts generalizing s with
  | nil => rfl
  | cons st sts ih => exact ih (step st s).2

theorem history_append (sts later : List Step) (s : TimedStore (Recorded σ)) :
    history (sts ++ later) s = history sts s ++ history later (runSteps sts s).2 := by
  induction sts generalizing s with
  | nil => rfl
  | cons st sts ih =>
      rw [List.cons_append, history, ih, history, List.append_assoc]
      rfl

theorem settled_runSteps (hs : s.Settled) (sts : List Step) : (runSteps sts s).2.Settled := by
  induction sts generalizing s with
  | nil => exact hs
  | cons st sts ih => exact ih (settled_step hs st)

theorem now_le_runSteps (hs : s.Settled) (sts : List Step) : s.now ≤ (runSteps sts s).2.now := by
  induction sts generalizing s with
  | nil => exact Nat.le_refl _
  | cons st sts ih =>
      calc s.now ≤ (begun st s).now := begun_now_le st s
        _ = (step st s).2.now := by rw [step_snd_eq hs, settle_now]
        _ ≤ _ := ih (settled_step hs st)

theorem length_settle (hs : s.Coherent) : s.settle.timers.length = s.timers.length := by
  refine hs.settle_induction (P := fun s' ↦ s'.timers.length = s.timers.length) rfl ?_ ?_
  · simp [endTimers]
  · intro s' token hs' hlength
    rw [hs'.fire_timers, length_finish_timers, hlength]

theorem length_step (hs : s.Settled) (st : Step) :
    (step st s).2.timers.length = (begun st s).timers.length := by
  rw [step_snd_eq hs, length_settle (coherent_begun hs.coherent st)]

theorem length_le_runSteps (hs : s.Settled) (sts : List Step) :
    s.timers.length ≤ (runSteps sts s).2.timers.length := by
  induction sts generalizing s with
  | nil => exact Nat.le_refl _
  | cons st sts ih =>
      calc s.timers.length ≤ (begun st s).timers.length := length_begun st s
        _ = (step st s).2.timers.length := (length_step hs st).symm
        _ ≤ _ := ih (settled_step hs st)

/-- A timer that has not been armed yet has made no call. -/
theorem callsBy_history_of_length_le (hs : s.Settled)
    (h : (runSteps sts s).2.timers.length ≤ token) : callsBy token (history sts s) = [] := by
  induction sts generalizing s with
  | nil => rfl
  | cons st sts ih =>
      have hlength : (begun st s).timers.length ≤ token := by
        rw [← length_step hs]
        exact Nat.le_trans (length_le_runSteps (settled_step hs st) sts) h
      rw [history, callsBy_append, ih (settled_step hs st) h, List.append_nil]
      apply callsBy_entries_of_not_due
      intro hdue
      obtain ⟨t, ht, -⟩ := mem_due.mp hdue
      rw [List.getElem?_eq_none hlength] at ht
      cases ht

/-- A timer that has ended makes no call. -/
theorem Over.callsBy_history (h : Over token s) (hs : s.Settled) (sts : List Step) :
    callsBy token (history sts s) = [] := by
  induction sts generalizing s with
  | nil => rfl
  | cons st sts ih =>
      have hnext : Over token (step st s).2 := h.onward (onward_step hs st)
      rw [history, callsBy_append, h.callsBy_entries, ih hnext (settled_step hs st),
        List.append_nil]

omit [Store σ] in
/-- While everyone has to stop, every timer has ended. -/
theorem over_of_stopped (hs : s.Settled) (hstop : s.channel.stopped = true)
    (hlt : token < s.timers.length) : Over token s := by
  rw [← hs.endTimers_eq hstop]
  exact over_endTimers hlt

/-- Before its deadline an undisturbed timer waits and makes no call. -/
theorem Awaits.after_run (h : Awaits key token deadline s) (hs : s.Settled)
    (hstop : s.channel.stopped = false) (hsts : Undisturbed key token sts s)
    (hlt : (runSteps sts s).2.now < deadline) :
    Awaits key token deadline (runSteps sts s).2 ∧ (runSteps sts s).2.channel.stopped = false ∧
      callsBy token (history sts s) = [] := by
  induction sts generalizing s with
  | nil => exact ⟨h, hstop, rfl⟩
  | cons st sts ih =>
      obtain ⟨hst, hsts⟩ := hsts
      have hnow : (step st s).2.now < deadline :=
        Nat.lt_of_le_of_lt (now_le_runSteps (settled_step hs st) sts) hlt
      have hopen : (step st s).2.channel.stopped = false := by
        rw [step_snd_eq hs, settle_channel]
        exact channel_begun hst hstop
      obtain ⟨hend, hstop', hcalls⟩ :=
        ih (h.after_step hs hstop hst hnow) (settled_step hs st) hopen hsts hlt
      refine ⟨hend, hstop', ?_⟩
      rw [history, callsBy_append, hcalls, List.append_nil]
      apply callsBy_entries_of_not_due
      rw [(h.after_begun hs.coherent hst).due_iff, Nat.not_le]
      rwa [step_snd_eq hs, settle_now] at hnow

/-- A write that answers a token has armed its timer, which waits for its deadline. -/
theorem awaits_begun_write {ttl : Nat} {w : Write}
    (h : (step (.write key (some ttl) w) s).1 = .write (.ok (some token))) :
    token = s.timers.length ∧
      Awaits key token (s.now + ttl) (begun (.write key (some ttl) w) s) := by
  rcases happly : w.apply key s.store with ⟨e | ⟨⟩, store⟩
  · simp [step, write_of_error (some ttl) happly] at h
  · obtain rfl : token = s.timers.length := by
      simpa [step, write_of_ok (some ttl) happly, eq_comm] using h
    refine ⟨rfl, ?_⟩
    rw [begun, write_of_ok (some ttl) happly]
    exact awaits_rearm (s := { s with store }) ttl

/-- A timer that reaches its deadline while nobody has to stop deletes its key, and has then
ended. -/
theorem Awaits.reaches (h : Awaits key token deadline s) (hs : s.Settled)
    (hstop : s.channel.stopped = false) {ms : Nat} (hle : deadline ≤ s.now + ms) :
    (∃ error?, callsBy token (entries (.advance ms) s) = [⟨.delete key, error?⟩]) ∧
      Over token (step (.advance ms) s).2 := by
  have hbegun : Awaits key token deadline (begun (.advance ms) s) := h.after_begun hs.coherent trivial
  have hcoherent := coherent_begun hs.coherent (.advance ms)
  have hdue : token ∈ (begun (.advance ms) s).due := hbegun.due_iff.mpr hle
  have hopen : (begun (.advance ms) s).channel.stopped = false := hstop
  constructor
  · rw [entries, hopen]
    exact callsBy_ran_of_armed hcoherent hbegun.armed hdue
  · rw [step_snd_eq hs, settle_of_not_stopped hopen]
    exact over_fireAll hcoherent hbegun.lt hdue

/-- A timer armed while nobody has to stop, and left alone until its deadline, deletes its key when
the clock reaches the deadline; it makes no other call in the whole run. -/
theorem deletes_once (hs : s.Settled) {before between after : List Step} {ttl ms : Nat} {w : Write}
    (hsts : sts = before ++ .write key (some ttl) w :: between ++ .advance ms :: after) :
    let armed := (runSteps before s).2
    let last := (runSteps between (step (.write key (some ttl) w) armed).2).2
    armed.channel.stopped = false →
    (step (.write key (some ttl) w) armed).1 = .write (.ok (some token)) →
    Undisturbed key token between (step (.write key (some ttl) w) armed).2 →
    last.now < armed.now + ttl → armed.now + ttl ≤ last.now + ms →
    ∃ error?, callsBy token (entries (.advance ms) last) = [⟨.delete key, error?⟩] ∧
      callsBy token (history sts s) = [⟨.delete key, error?⟩] := by
  intro armed last hopen hwrite hbetween hlt hle
  have harmed : armed.Settled := settled_runSteps hs before
  have hwritten := settled_step harmed (.write key (some ttl) w)
  obtain ⟨htoken, hawaits⟩ := awaits_begun_write hwrite
  have hbefore : callsBy token (history before s) = [] :=
    callsBy_history_of_length_le hs (Nat.le_of_eq htoken.symm)
  have hnow : (begun (.write key (some ttl) w) armed).now < armed.now + ttl := by
    have hle := now_le_runSteps hwritten between
    rw [step_snd_eq harmed, settle_now] at hle
    exact Nat.lt_of_le_of_lt hle hlt
  have hopen' : (begun (.write key (some ttl) w) armed).channel.stopped = false :=
    (congrArg Channel.stopped write_channel).trans hopen
  have hstart : callsBy token (entries (.write key (some ttl) w) armed) = [] := by
    apply callsBy_entries_of_not_due
    rw [hawaits.due_iff, Nat.not_le]
    exact hnow
  have hwaits : Awaits key token (armed.now + ttl) (step (.write key (some ttl) w) armed).2 := by
    rw [step_snd_eq harmed]
    exact hawaits.settle (coherent_begun harmed.coherent _) hopen' hnow
  have hstopped : (step (.write key (some ttl) w) armed).2.channel.stopped = false := by
    rw [step_snd_eq harmed, settle_channel]
    exact hopen'
  obtain ⟨hlast, hlastopen, hwait⟩ := hwaits.after_run hwritten hstopped hbetween hlt
  have hlastsettled : last.Settled := settled_runSteps hwritten between
  obtain ⟨⟨error?, hdelete⟩, hover⟩ := hlast.reaches hlastsettled hlastopen hle
  have hafter := hover.callsBy_history (settled_step hlastsettled (.advance ms)) after
  refine ⟨error?, hdelete, ?_⟩
  rw [hsts, List.append_assoc, List.cons_append, history_append, history, history_append, history]
  simp only [callsBy_append]
  rw [hbefore, hstart, hwait, hdelete, hafter]
  rfl

/-- In every run of a new scheduler the calls of a step are its own and those that `history` notes
of the timers, and:

* after a step that ends with everyone told to stop, by the value on the channel or by the loss of
  its sender, no timer has made a call in this step;
* no timer armed so far makes a call from then on, even if the channel is revived;
* a `resume` while nobody is told to stop by the value changes nothing;
* a timer armed while nobody has to stop, with no signal to stop, no cancellation and no other
  successful write to its key before the clock reaches its deadline, deletes its key at this step
  and makes no other call in the whole run, whatever the armed map held before. -/
theorem timers_obey_channel (store : Recorded σ) (now : Nat) (channel : Channel)
    (sts : List Step) :
    let start : TimedStore (Recorded σ) := { store, now, channel }
    (∀ before st after, sts = before ++ st :: after →
      let s := (runSteps before start).2
      (step st s).2.store.calls = (begun st s).store.calls ++ calls (entries st s) ∧
        ((step st s).2.channel.stopped = true →
          entries st s = [] ∧ (step st s).2.store = (begun st s).store)) ∧
    (∀ before after, sts = before ++ after →
      let s := (runSteps before start).2
      s.channel.stopped = true →
        ∀ token < s.timers.length, callsBy token (history after s) = []) ∧
    (∀ before after, sts = before ++ .signal .resume :: after →
      let s := (runSteps before start).2
      s.channel.value = false → (step (.signal .resume) s).2 = s) ∧
    ∀ before key ttl w between ms after token,
      sts = before ++ .write key (some ttl) w :: between ++ .advance ms :: after →
      let armed := (runSteps before start).2
      let last := (runSteps between (step (.write key (some ttl) w) armed).2).2
      armed.channel.stopped = false →
      (step (.write key (some ttl) w) armed).1 = .write (.ok (some token)) →
      Undisturbed key token between (step (.write key (some ttl) w) armed).2 →
      last.now < armed.now + ttl → armed.now + ttl ≤ last.now + ms →
      ∃ error?, callsBy token (entries (.advance ms) last) = [⟨.delete key, error?⟩] ∧
        callsBy token (history sts start) = [⟨.delete key, error?⟩] := by
  intro start
  have hstart : start.Settled := by
    refine ⟨.empty store now channel, ?_, fun _ _ ↦ rfl⟩
    intro key time htime
    simp [start, deadline?] at htime
  refine ⟨?_, ?_, ?_, ?_⟩
  · intro before st after _ s
    have hs : s.Settled := settled_runSteps hstart before
    refine ⟨calls_step hs st, fun hstop ↦ ?_⟩
    rw [step_snd_eq hs, settle_channel] at hstop
    refine ⟨by simp [entries, hstop], ?_⟩
    rw [step_snd_eq hs, settle_of_stopped hstop]
    rfl
  · intro before after _ s hstop token hlt
    have hs : s.Settled := settled_runSteps hstart before
    exact (over_of_stopped hs hstop hlt).callsBy_history hs after
  · intro before after _ s hvalue
    have hs : s.Settled := settled_runSteps hstart before
    have hchannel : s.channel.after .resume = s.channel := by
      cases hc : s.channel with
      | mk value attached =>
          rw [hc] at hvalue
          simp only at hvalue
          simp [Channel.after, hvalue]
    rw [step, signal, hchannel]
    exact hs.settle_eq
  · intro before key ttl w between ms after token hsts
    exact deletes_once hstart hsts

/-- The timer of `j` is ended by a stop that does not last and leaves its token armed.  The timer
of `k`, armed after it, deletes its key in time. -/
theorem timer_after_short_stop :
    let start : TimedStore (Recorded Memory) := { store := { store := {} } }
    let before : List Step := [.write "j" (some 100) (.value "1"), .signal .stop, .signal .resume]
    let between : List Step := [.advance 30, .signal .resume, .write "k" none (.fail (.backend "x"))]
    let sts := before ++ .write "k" (some 50) (.value "2") :: between ++
      .advance 20 :: [.advance 100, .write "k" none (.value "3")]
    (runSteps sts start).2.armed["j"]? = some 0 ∧
      callsBy 0 (history (sts.drop 2) (runSteps (sts.take 2) start).2) = [] ∧
      ∃ error?, callsBy 1 (history sts start) = [⟨.delete "k", error?⟩] := by
  intro start before between sts
  obtain ⟨-, hended, -, hdeletes⟩ := timers_obey_channel { store := ({} : Memory) } 0 {} sts
  refine ⟨?_, ?_, ?_⟩
  · decide +kernel
  · apply hended (sts.take 2) (sts.drop 2) (List.take_append_drop 2 sts).symm
    · decide +kernel
    · decide +kernel
  · have hbetween : Undisturbed "k" 1 between
        (step (.write "k" (some 50) (.value "2")) (runSteps before start).2).2 :=
      ⟨trivial, rfl, fun _ ↦ ⟨_, rfl⟩, trivial⟩
    obtain ⟨error?, -, hcalls⟩ := hdeletes before "k" 50 (.value "2") between 20 _ 1 rfl
      (by decide +kernel) rfl hbetween (by decide +kernel) (by decide +kernel)
    exact ⟨error?, hcalls⟩

end Expiry

end KvServer
