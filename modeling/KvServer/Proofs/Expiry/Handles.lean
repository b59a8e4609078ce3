import KvServer.Proofs.Expiry.Shutdown
import Mathlib.Data.List.Dedup
import Mathlib.Data.List.Perm.Subperm

/-!
# Timers do not leak

A write that arms a timer answers the token of the timer, which is a handle on it.  At most one
timer of a key is pending, and only the timer that the latest successful write to the key has
armed (`timers_do_not_leak`).  The converse fails: after a cancellation from outside or a shutdown
the armed map still holds the tokens of timers that have ended.

`log` notes the writes of a run and the timers that ran out in it, and `Reflects` ties it to the
armed map.
-/

namespace KvServer.Expiry

open TimedStore Race

section Log

variable {h : List Entry} {key : String}

/-- The keys whose latest successful write has armed a timer. -/
def timedKeys (h : List Entry) : List String :=
  let written := h.filterMap fun
    | .wrote key _ => some key
    | _ => none
  written.dedup.filter fun key ↦ (writesTo key h).getLast?.join.isSome

theorem mem_timedKeys :
    key ∈ timedKeys h ↔ ∃ token, (writesTo key h).getLast? = some (some token) := by
  have hjoin : (writesTo key h).getLast?.join.isSome ↔
      ∃ token, (writesTo key h).getLast? = some (some token) := by
    simp [Option.isSome_iff_exists, Option.join_eq_some_iff]
  rw [timedKeys, List.mem_filter, hjoin, List.mem_dedup, and_iff_right_iff_imp]
  rintro ⟨token, hlast⟩
  obtain ⟨before, after, rfl⟩ := exists_wrote_of_mem_writesTo (List.mem_of_getLast? hlast)
  simp

end Log

variable {σ : Type} [Store σ] {s : TimedStore (Recorded σ)} {st : Step} {sts : List Step}
  {h : List Entry} {key : String} {token : Nat} {t : Timer}

/-- The write that a step is, with its outcome. -/
def seen (st : Step) (s : TimedStore (Recorded σ)) : Entry :=
  match st with
  | .write key ttl w => .wrote key (s.write key ttl (w.apply key)).1
  | .abort _ | .advance _ | .signal _ | .fault .. | .direct _ => .idle

/-- The writes of a run and the timers that ran out in it. -/
def log : List Step → TimedStore (Recorded σ) → List Entry
  | [], _ => []
  | st :: sts, s => seen st s :: entries st s ++ log sts (step st s).2

/-! ## What the log tells of the armed map -/

theorem reflects_begun (hr : Reflects h s) (st : Step) :
    Reflects (h ++ [seen st s]) (begun st s) := by
  cases st with
  | write key ttl w => exact (hr.move (.write key ttl (w.apply key))).1
  | abort token => exact (hr.move (.abort token)).1
  | advance ms => exact (hr.move (.wait ms)).1
  | signal sig => exact (hr.move (.signal sig)).1
  | fault | direct =>
      exact hr.same (fun _ ↦ rfl) rfl (hr.coherent.setStore _) rfl rfl fun _ ↦ rfl

theorem reflects_fireAll (hr : Reflects h s) {tokens : List Nat}
    (hlt : ∀ token ∈ tokens, token < s.timers.length) :
    Reflects (h ++ ran tokens s) (s.fireAll tokens) := by
  induction tokens generalizing h s with
  | nil => simpa [ran] using hr
  | cons token tokens ih =>
      have hran := hr.ran (hlt token (by simp)) (callsOf token s)
      have hall := ih hran fun i hi ↦ by
        rw [hr.coherent.fire_timers, length_finish_timers]
        exact hlt i (by simp [hi])
      simpa [ran] using hall

omit [Store σ] in
theorem reflects_endTimers (hr : Reflects h s) : Reflects h s.endTimers where
  coherent := hr.coherent.endTimers
  armed_iff := hr.armed_iff
  drawn_iff := by
    intro key token
    rw [hr.drawn_iff, endTimers, List.getElem?_map, Option.map_map]
    simp [Function.comp_def]
  run_lt := by
    intro token hrun
    simpa [endTimers] using hr.run_lt hrun

/-- A step adds its own entry to the log and those of the timers that ran out after it. -/
theorem reflects_step (hr : Reflects h s) (hs : s.Settled) (st : Step) :
    Reflects (h ++ (seen st s :: entries st s)) (step st s).2 := by
  have hbegun := reflects_begun hr st
  rw [step_snd_eq hs, ← List.singleton_append, ← List.append_assoc, entries]
  cases hstop : (begun st s).channel.stopped with
  | true =>
      rw [settle_of_stopped hstop]
      simpa using reflects_endTimers hbegun
  | false =>
      rw [settle_of_not_stopped hstop]
      refine reflects_fireAll hbegun fun token hdue ↦ ?_
      obtain ⟨t, ht, -⟩ := mem_due.mp hdue
      exact (List.getElem?_eq_some_iff.mp ht).1

theorem reflects_runSteps (hr : Reflects h s) (hs : s.Settled) (sts : List Step) :
    Reflects (h ++ log sts s) (runSteps sts s).2 := by
  induction sts generalizing h s with
  | nil =>
      rw [log, List.append_nil]
      exact hr
  | cons st sts ih =>
      rw [log, ← List.append_assoc]
      exact ih (reflects_step hr hs st) (settled_step hs st)

/-! ## Pending timers -/

omit [Store σ] in
/-- A pending timer is the one that the latest successful write to its key has armed. -/
theorem latest_of_pending (hr : Reflects h s) (ht : s.timers[token]? = some t)
    (hpending : t.status = .pending) : (writesTo t.key h).getLast? = some (some token) :=
  (hr.armed_iff.mp (hr.coherent.armed_of_pending ht hpending)).1

omit [Store σ] in
theorem lt_deadline_of_pending (hs : s.Settled) (ht : s.timers[token]? = some t)
    (hpending : t.status = .pending) : s.now < t.deadline :=
  hs.not_passed (hs.coherent.deadline?_eq_some_iff.mpr
    ⟨token, t, ht, rfl, Timer.until?_eq_some.mpr ⟨hpending, rfl⟩⟩)

omit [Store σ] in
/-- No two timers of a key are pending. -/
theorem pending_unique (hs : s.Coherent) {i j : Nat} {t u : Timer} (ht : s.timers[i]? = some t)
    (hu : s.timers[j]? = some u) (hkey : t.key = u.key) (hpending : t.status = .pending)
    (hpending' : u.status = .pending) : i = j := by
  have hi := hs.armed_of_pending ht hpending
  rw [hkey, hs.armed_of_pending hu hpending'] at hi
  exact (Option.some.inj hi).symm

omit [Store σ] in
/-- There are no more pending timers than keys whose latest successful write has armed one. -/
theorem countP_pending_le (hr : Reflects h s) :
    s.timers.countP (·.status = .pending) ≤ (timedKeys h).length := by
  have hnodup : ((s.timers.filter (·.status = .pending)).map Timer.key).Nodup := by
    rw [List.Nodup, List.pairwise_map, List.pairwise_filter, List.pairwise_iff_getElem]
    intro i j hi hj hlt ht hu hkey
    have hij := pending_unique hr.coherent (List.getElem?_eq_getElem hi)
      (List.getElem?_eq_getElem hj) hkey (by simpa using ht) (by simpa using hu)
    omega
  have hsubset : (s.timers.filter (·.status = .pending)).map Timer.key ⊆ timedKeys h := by
    intro key hkey
    obtain ⟨t, ht, rfl⟩ := List.mem_map.mp hkey
    obtain ⟨hmem, hpending⟩ := List.mem_filter.mp ht
    obtain ⟨token, htoken⟩ := List.mem_iff_getElem?.mp hmem
    exact mem_timedKeys.mpr ⟨token, latest_of_pending hr htoken (by simpa using hpending)⟩
  rw [List.countP_eq_length_filter, ← List.length_map Timer.key]
  exact (List.subperm_of_subset hnodup hsubset).length_le

/-! ## Timers that have ended -/

theorem ended_runSteps (hs : s.Settled) (ht : s.timers[token]? = some t)
    (hstatus : t.status ≠ .pending) (sts : List Step) :
    (runSteps sts s).2.timers[token]? = some t := by
  induction sts generalizing s with
  | nil => exact ht
  | cons st sts ih => exact ih (settled_step hs st) ((onward_step hs st).ended ht hstatus)

omit [Store σ] in
theorem getElem?_rearm_of_armed (harmed : s.armed[key]? = some token)
    (ht : s.timers[token]? = some t) (ttl : Option Nat) :
    (s.rearm key ttl).timers[token]? = some (t.finish .cancelled) := by
  have hdisarm : (s.disarm key).timers[token]? = some (t.finish .cancelled) := by
    rw [disarm_of_armed harmed]
    exact getElem?_finish_self.trans (congrArg (Option.map _) ht)
  cases ttl with
  | none => exact hdisarm
  | some ttl => exact getElem?_arm_timers ttl hdisarm

/-- A write that succeeds cancels the pending timer of its key. -/
theorem cancelled_of_write (hs : s.Settled) {ttl token? : Option Nat} {w : Write}
    (hwrite : (step (.write t.key ttl w) s).1 = .write (.ok token?))
    (ht : s.timers[token]? = some t) (hpending : t.status = .pending) :
    (step (.write t.key ttl w) s).2.timers[token]? = some { t with status := .cancelled } := by
  have harmed := hs.coherent.armed_of_pending ht hpending
  have hcancel : t.finish .cancelled = { t with status := .cancelled } := by
    rw [Timer.finish, hpending]
  rcases happly : w.apply t.key s.store with ⟨e | ⟨⟩, store⟩
  · simp [step, write_of_error ttl happly] at hwrite
  · have hbegun : (begun (.write t.key ttl w) s).timers[token]? =
        some { t with status := .cancelled } := by
      rw [begun, write_of_ok ttl happly, ← hcancel]
      exact getElem?_rearm_of_armed (s := { s with store }) harmed ht ttl
    rw [step_snd_eq hs]
    exact (coherent_begun hs.coherent _).onward_settle.ended hbegun (by simp)

omit [Store σ] in
/-- The outcome of a write tells whether the write has armed a timer. -/
theorem isSome_of_write {ttl token? : Option Nat}
    {apply : Recorded σ → Except StoreError Unit × Recorded σ}
    (h : (s.write key ttl apply).1 = .ok token?) : token?.isSome = ttl.isSome := by
  rcases happly : apply s.store with ⟨e | ⟨⟩, store⟩
  · rw [write_of_error ttl happly] at h
    cases h
  · rw [write_of_ok ttl happly] at h
    cases h
    exact Option.isSome_map

/-- The timer that a write cancels is one of its key. -/
theorem Cancels.cases (h : Cancels token st s) (hs : s.Coherent) (ht : s.timers[token]? = some t) :
    st = .abort token ∨ ∃ ttl w token?, st = .write t.key ttl w ∧
      (step st s).1 = .write (.ok token?) := by
  cases st with
  | abort i => exact Or.inl (congrArg Step.abort h)
  | write key ttl w =>
      obtain ⟨⟨token?, hwrite⟩, harmed⟩ := h
      obtain ⟨u, hu, rfl⟩ := hs.key_of_armed harmed
      cases hu.symm.trans ht
      exact Or.inr ⟨ttl, w, token?, rfl, hwrite⟩
  | advance | signal | fault | direct => exact h.elim

/-- A timer that is found cancelled was cancelled by a step, while it was pending. -/
theorem exists_cancels (hs : s.Settled) (hnone : s.timers = [])
    (ht : (runSteps sts s).2.timers[token]? = some t) (hstatus : t.status = .cancelled) :
    ∃ before st after, sts = before ++ st :: after ∧
      Cancels token st (runSteps before s).2 ∧
      ∃ u, (runSteps before s).2.timers[token]? = some u ∧ u.status = .pending ∧ u.key = t.key := by
  -- from the end: the last step has cancelled the timer, or it was cancelled before
  induction sts using List.reverseRecOn generalizing t with
  | nil =>
      rw [runSteps, hnone] at ht
      cases ht
  | append_singleton sts st ih =>
      rw [runSteps_append] at ht
      have hlast := settled_runSteps hs sts
      obtain hbefore | ⟨u, hu, hpending, rfl, hcancel⟩ :=
        (onward_step hlast st).of_cancelled ht hstatus
      · obtain ⟨before, st', after, rfl, hcancels⟩ := ih hbefore hstatus
        exact ⟨before, st', after ++ [st], by simp, hcancels⟩
      · exact ⟨sts, st, [], rfl, hcancel, u, hu, hpending, rfl⟩

/-- In every state that a scheduler reaches, for each timer that its writes have armed:

* if it is pending, the latest successful write to its key has armed it, its deadline is to come,
  the armed map holds its token, and no other timer of the key is pending; so none is if that
  write came without a time to live;
* a successful write to its key cancels it for good if it was pending;
* if it is cancelled, this was done by a successful write to its key or from outside, while it was
  pending;
* once it has ended it stays as it is.

So there are at most as many pending timers as keys whose latest successful write came with a time
to live. -/
theorem timers_do_not_leak (store : Recorded σ) (now : Nat) (channel : Channel)
    (sts : List Step) :
    let start : TimedStore (Recorded σ) := { store, now, channel }
    let h := log sts start
    let s := (runSteps sts start).2
    (∀ (key : String) (token : Nat),
      some token ∈ writesTo key h ↔ (s.timers[token]?).map Timer.key = some key) ∧
    (∀ (token : Nat) (t : Timer), s.timers[token]? = some t →
      (t.status = .pending →
        (writesTo t.key h).getLast? = some (some token) ∧ s.now < t.deadline ∧
          s.armed[t.key]? = some token ∧
          ∀ (i : Nat) (u : Timer), s.timers[i]? = some u → u.key = t.key →
            u.status = .pending → i = token) ∧
      ((writesTo t.key h).getLast? = some none → t.status ≠ .pending) ∧
      (t.status = .cancelled →
        ∃ before st after, sts = before ++ st :: after ∧
          let earlier := (runSteps before start).2
          (∃ u : Timer, earlier.timers[token]? = some u ∧ u.status = .pending ∧ u.key = t.key) ∧
            (st = .abort token ∨ ∃ ttl w token?, st = .write t.key ttl w ∧
              (step st earlier).1 = .write (.ok token?)))) ∧
    (∀ before key ttl w after token?, sts = before ++ .write key ttl w :: after →
      let earlier := (runSteps before start).2
      (step (.write key ttl w) earlier).1 = .write (.ok token?) →
      token?.isSome = ttl.isSome ∧
        ∀ (token : Nat) (t : Timer), earlier.timers[token]? = some t → t.key = key →
          t.status = .pending → s.timers[token]? = some { t with status := .cancelled }) ∧
    (∀ before after, sts = before ++ after → ∀ (token : Nat) (t : Timer),
      (runSteps before start).2.timers[token]? = some t → t.status ≠ .pending →
        s.timers[token]? = some t) ∧
    s.timers.countP (·.status = .pending) ≤ (timedKeys h).length := by
  intro start h s
  have hstart : start.Settled := .empty store now channel
  have hs : s.Settled := settled_runSteps hstart sts
  have hr : Reflects h s := reflects_runSteps (.start store now channel) hstart sts
  refine ⟨fun _ _ ↦ hr.drawn_iff, ?_, ?_, ?_, countP_pending_le hr⟩
  · intro token t ht
    refine ⟨?_, ?_, ?_⟩
    · intro hpending
      refine ⟨latest_of_pending hr ht hpending, lt_deadline_of_pending hs ht hpending,
        hs.coherent.armed_of_pending ht hpending, ?_⟩
      intro i u hu hkey hpending'
      exact pending_unique hs.coherent hu ht hkey hpending' hpending
    · intro hlatest hpending
      rw [latest_of_pending hr ht hpending] at hlatest
      cases hlatest
    · intro hstatus
      obtain ⟨before, st, after, hsts, hcancels, u, hu, hpending, hkey⟩ :=
        exists_cancels hstart rfl ht hstatus
      refine ⟨before, st, after, hsts, ⟨u, hu, hpending, hkey⟩, ?_⟩
      rw [← hkey]
      exact hcancels.cases (settled_runSteps hstart before).coherent hu
  · intro before key ttl w after token? hsts earlier hwrite
    have hearlier : earlier.Settled := settled_runSteps hstart before
    refine ⟨isSome_of_write (Answer.write.inj hwrite), ?_⟩
    rintro token t ht rfl hpending
    have hcancelled := cancelled_of_write hearlier hwrite ht hpending
    have hrun : s = (runSteps after (step (.write t.key ttl w) earlier).2).2 := by
      rw [show s = (runSteps sts start).2 from rfl, hsts, runSteps_append]
      rfl
    rw [hrun]
    exact ended_runSteps (settled_step hearlier _) hcancelled (by simp) after
  · intro before after hsts token t ht hstatus
    have hlast := ended_runSteps (settled_runSteps hstart before) ht hstatus after
    rwa [← runSteps_append, ← hsts] at hlast

/-- The first timer of `k` is cancelled by the next write to the key, and the one of `j` from
outside; the second timer of `k` is pending. -/
theorem one_timer_left :
    let start : TimedStore (Recorded Memory) := { store := { store := {} } }
    let sts : List Step :=
      [.write "k" (some 10) (.value "1"), .write "j" (some 10) (.value "2"), .abort 1,
        .write "k" (some 50) (.value "3"), .write "k" none (.fail (.backend "x")), .advance 20]
    let s := (runSteps sts start).2
    s.timers[0]? = some { key := "k", deadline := 10, status := .cancelled } ∧
      s.timers[1]? = some { key := "j", deadline := 10, status := .cancelled } ∧
      (writesTo "k" (log sts start)).getLast? = some (some 2) ∧
      s.timers.countP (·.status = .pending) ≤ (timedKeys (log sts start)).length ∧
      timedKeys (log sts start) = ["j", "k"] := by
  intro start sts s
  obtain ⟨-, htimers, hsuperseded, hended, hcount⟩ :=
    timers_do_not_leak { store := ({} : Memory) } 0 {} sts
  simp only [s, start]
  refine ⟨?_, ?_, ?_, ?_, ?_⟩
  · have hfirst : (runSteps (sts.take 3) start).2.timers[0]? =
        some { key := "k", deadline := 10 } := by decide +kernel
    exact (hsuperseded (sts.take 3) "k" (some 50) (.value "3") (sts.drop 4) (some 2) rfl rfl).2
      0 _ hfirst rfl rfl
  · have haborted : (runSteps (sts.take 3) start).2.timers[1]? =
        some { key := "j", deadline := 10, status := .cancelled } := by decide +kernel
    exact hended (sts.take 3) (sts.drop 3) rfl 1 _ haborted (by decide)
  · obtain ⟨hpending, -⟩ := htimers 2 { key := "k", deadline := 50 } (by decide +kernel)
    exact (hpending rfl).1
  · exact hcount
  · decide +kernel

end KvServer.Expiry
