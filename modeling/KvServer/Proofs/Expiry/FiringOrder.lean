import KvServer.Proofs.Dispatch.Bisimulation
import KvServer.Proofs.Expiry.Shutdown
import KvServer.Proofs.Store.Removal
import Mathlib.Data.List.Nodup

/-!
# The order in which timers run out

A timer that runs out touches its own key only, and no other timer is armed for this key.  So two
timers may run out in either order (`fire_comm`), and a list of them in any order
(`fireAll_perm`): the same store, timers and armed map are left, and the calls made on the way are
the same but for their order.  Time may pass at once or in pieces for the same reason
(`advance_advance`), as the timers due in the first piece and those due in the second are together
the timers due in the whole.
-/

namespace KvServer

namespace Recorded

variable {σ : Type} {a b c : Recorded σ}

/-- Two recorded stores that differ in the order of their records only. -/
structure Shuffled (a b : Recorded σ) : Prop where
  store : a.store = b.store
  faults : a.faults = b.faults
  notes : a.notes.Perm b.notes

theorem Shuffled.refl (a : Recorded σ) : Shuffled a a := ⟨rfl, rfl, .refl _⟩

theorem Shuffled.trans (h : Shuffled a b) (h' : Shuffled b c) : Shuffled a c :=
  ⟨h.store.trans h'.store, h.faults.trans h'.faults, h.notes.trans h'.notes⟩

theorem Shuffled.calls (h : Shuffled a b) : a.calls.Perm b.calls :=
  (List.reverse_perm _).trans (h.notes.trans (List.reverse_perm _).symm)

variable [Store σ]

theorem bisimulation_shuffled : Store.Bisimulation (Shuffled (σ := σ)) :=
  bisimulation_of_note Shuffled.store Shuffled.faults (fun _ h ↦ ⟨rfl, h.faults, h.notes⟩)
    fun _ _ h ↦ ⟨h.store, h.faults, h.notes.cons _⟩

/-- Two keys may be removed in either order. -/
theorem shuffled_delete_comm [ErasingStore σ] {key other : String} (hne : key ≠ other)
    (r : Recorded σ) :
    Shuffled (Store.call (.delete other) (Store.call (.delete key) r).2).2
      (Store.call (.delete key) (Store.call (.delete other) r).2).2 := by
  cases hfault : r.faults .delete with
  | some e =>
      have hcall : ∀ (k : String) (r' : Recorded σ), r'.faults = r.faults →
          (Store.call (.delete k) r').2 = r'.note (.delete k) (.error e) := by
        intro k r' hr'
        rw [call_of_fault ((congrFun hr' .delete).trans hfault)]
      rw [hcall other _ (faults_call _ _), hcall key _ (faults_call _ _), hcall key r rfl,
        hcall other r rfl]
      exact ⟨rfl, rfl, .swap _ _ _⟩
  | none =>
      have hcall : ∀ (k : String) (r' : Recorded σ), r'.faults = r.faults →
          (Store.call (.delete k) r').2 = note (.delete k) (Store.call (.delete k) r'.store).1
            { r' with store := (Store.call (.delete k) r'.store).2 } := by
        intro k r' hr'
        rw [call_of_no_fault ((congrFun hr' .delete).trans hfault)]
      rw [hcall other _ (faults_call _ _), hcall key _ (faults_call _ _), hcall key r rfl,
        hcall other r rfl]
      refine ⟨ErasingStore.comm other key r.store, rfl, ?_⟩
      simp only [note, ErasingStore.outcome_eq r.store hne,
        ErasingStore.outcome_eq r.store hne.symm]
      exact .swap _ _ _

end Recorded

namespace TimedStore

open Recorded

variable {σ : Type} {s : TimedStore σ} {key : String} {token : Nat}

/-! ## Due timers and time -/

def setNow (now : Nat) (s : TimedStore σ) : TimedStore σ := { s with now }

theorem Coherent.at (hs : s.Coherent) (now : Nat) : (s.setNow now).Coherent := hs.setNow now

@[simp] theorem setNow_setNow (now later : Nat) :
    (s.setNow now).setNow later = s.setNow later := rfl

theorem due_nodup (s : TimedStore σ) : s.due.Nodup := by
  have hrange : (s.timers.zipIdx.map Prod.snd).Nodup := by
    rw [List.zipIdx_map_snd]
    exact List.nodup_range'
  exact hrange.sublist (List.filter_sublist.map Prod.snd)

variable [Store σ]

theorem advance_eq (ms : Nat) : s.advance ms = (s.setNow (s.now + ms)).settle := rfl

theorem settle_setNow_of_stopped (hstop : s.channel.stopped = true) (now : Nat) :
    (s.setNow now).settle = s.endTimers.setNow now :=
  settle_of_stopped (s := s.setNow now) hstop

theorem settle_setNow (hstop : s.channel.stopped = false) (now : Nat) :
    (s.setNow now).settle = (s.setNow now).fireAll (s.setNow now).due :=
  settle_of_not_stopped (s := s.setNow now) hstop

theorem fireAll_append (tokens later : List Nat) :
    s.fireAll (tokens ++ later) = (s.fireAll tokens).fireAll later := List.foldl_append

theorem fire_setNow (now token : Nat) :
    (s.setNow now).fire token = (s.fire token).setNow now := by
  cases ht : s.timers[token]? with
  | none => simp [fire, setNow, ht]
  | some t =>
      by_cases harmed : s.armed[t.key]? = some token <;>
        simp [fire, setNow, ht, expire, harmed, finish]

theorem fireAll_setNow (now : Nat) (tokens : List Nat) :
    (s.setNow now).fireAll tokens = (s.fireAll tokens).setNow now := by
  induction tokens generalizing s with
  | nil => rfl
  | cons token tokens ih => rw [fireAll_cons, fireAll_cons, fire_setNow, ih]

theorem Coherent.not_due_of_mem {s : TimedStore (Recorded σ)} (hs : s.Coherent)
    (htoken : token ∈ s.due) (later : Nat) : token ∉ ((s.fireAll s.due).setNow later).due := by
  obtain ⟨t, ht, -⟩ := mem_due.mp htoken
  have hlt : token < s.timers.length := (List.getElem?_eq_some_iff.mp ht).1
  have hended : Expiry.Over token (s.fireAll s.due) := Expiry.over_fireAll hs hlt htoken
  have hlater : Expiry.Over token ((s.fireAll s.due).setNow later) := hended
  exact hlater.not_due

theorem Coherent.due_iff_of_notMem (hs : s.Coherent) (htoken : token ∉ s.due) (later : Nat) :
    token ∈ ((s.fireAll s.due).setNow later).due ↔ token ∈ (s.setNow later).due := by
  have htimer : ((s.fireAll s.due).setNow later).timers[token]? =
      (s.setNow later).timers[token]? := hs.getElem?_fireAll_timers htoken
  rw [mem_due, mem_due, htimer]
  rfl

omit [Store σ] in
/-- What is due stays due until it runs out. -/
theorem mem_due_setNow {later : Nat} (hle : s.now ≤ later) (htoken : token ∈ s.due) :
    token ∈ (s.setNow later).due := by
  obtain ⟨t, ht, hdue⟩ := mem_due.mp htoken
  obtain ⟨time, htime, huntil⟩ := Timer.isDue_iff.mp hdue
  exact mem_due.mpr ⟨t, ht, Timer.isDue_iff.mpr ⟨time, Nat.le_trans htime hle, huntil⟩⟩

/-- The timers that are due now, and those that will be due later once these have run out, are
together those that are due later. -/
theorem Coherent.due_append_perm {s : TimedStore (Recorded σ)} (hs : s.Coherent) {later : Nat}
    (hle : s.now ≤ later) :
    (s.due ++ ((s.fireAll s.due).setNow later).due).Perm (s.setNow later).due := by
  have hnodup : (s.due ++ ((s.fireAll s.due).setNow later).due).Nodup :=
    (due_nodup s).append (due_nodup _) fun _ htoken ↦ hs.not_due_of_mem htoken later
  refine (List.perm_ext_iff_of_nodup hnodup (due_nodup _)).mpr fun token ↦ ?_
  rw [List.mem_append]
  by_cases htoken : token ∈ s.due
  · exact ⟨fun _ ↦ mem_due_setNow hle htoken, fun _ ↦ Or.inl htoken⟩
  · rw [hs.due_iff_of_notMem htoken]
    simp [htoken]

omit [Store σ] in
theorem endTimers_endTimers (s : TimedStore σ) : s.endTimers.endTimers = s.endTimers := by
  have htwice : ∀ t : Timer, (t.finish .done).finish .done = t.finish .done := by
    intro t
    cases h : t.status <;> simp [Timer.finish, h]
  simp [endTimers, htwice]

/-! ## Timers in any order -/

variable [ErasingStore σ] {s : TimedStore (Recorded σ)}

/-- Two timers may run out in either order: they are armed for two keys, if they are armed. -/
theorem Coherent.fire_comm (hs : s.Coherent) {i j : Nat} (hij : i ≠ j) :
    Alike Shuffled ((s.fire i).fire j) ((s.fire j).fire i) where
  now := by rw [fire_now, fire_now, fire_now, fire_now]
  channel := by rw [fire_channel, fire_channel, fire_channel, fire_channel]
  timers := by
    apply List.ext_getElem?
    intro token
    simp only [hs.fire.getElem?_fire_timers, hs.getElem?_fire_timers]
    by_cases hi : i = token
    · have hj : j ≠ token := fun hj ↦ hij (hi.trans hj.symm)
      simp [hi, hj]
    · simp [hi]
  armed := by
    apply Std.ExtTreeMap.ext_getElem?
    intro key
    simp only [hs.fire.getElem?_fire_armed, hs.getElem?_fire_armed]
    by_cases hi : s.armed[key]? = some i <;> by_cases hj : s.armed[key]? = some j <;> simp [hi, hj]
  store := by
    -- a timer deletes its key only if it is armed, so four cases are to be told apart
    obtain ⟨own, hown, hi⟩ | ⟨hown, hi⟩ := hs.fire_cases i <;>
      obtain ⟨other, hother, hj⟩ | ⟨hother, hj⟩ := hs.fire_cases j
    · have hne : own ≠ other := by
        rintro rfl
        rw [hown] at hother
        exact hij (Option.some.inj hother)
      rw [hs.fire.fire_of_armed (hs.fire_armed_of_ne hij hother),
        hs.fire.fire_of_armed (hs.fire_armed_of_ne hij.symm hown), hi, hj]
      exact shuffled_delete_comm hne s.store
    · have hlast := hs.fire.fire_of_armed (hs.fire_armed_of_ne hij.symm hown)
      rw [fire_of_not_armed (hs.fire_armed_ne hother), hlast, hi, hj]
      exact .refl _
    · have hlast := hs.fire.fire_of_armed (hs.fire_armed_of_ne hij hother)
      rw [hlast, fire_of_not_armed (hs.fire_armed_ne hown), hi, hj]
      exact .refl _
    · rw [fire_of_not_armed (hs.fire_armed_ne hother), fire_of_not_armed (hs.fire_armed_ne hown),
        hi, hj]
      exact .refl _

/-- Timers may run out in any order. -/
theorem Coherent.fireAll_perm (hs : s.Coherent) {tokens order : List Nat}
    (h : order.Perm tokens) : Alike Shuffled (s.fireAll order) (s.fireAll tokens) := by
  induction h generalizing s with
  | nil => exact .refl Shuffled.refl s
  | cons token _ ih => exact ih hs.fire
  | swap i j tokens =>
      by_cases hij : j = i
      · rw [hij]
        exact .refl Shuffled.refl _
      · exact (hs.fire_comm hij).fireAll bisimulation_shuffled tokens
  | trans _ _ ih ih' => exact Alike.trans (R := Shuffled) Shuffled.trans (ih hs) (ih' hs)

/-- Time may pass at once or in two pieces. -/
theorem Coherent.advance_advance (hs : s.Coherent) (a b : Nat) :
    Alike Shuffled ((s.advance a).advance b) (s.advance (a + b)) := by
  have hnow : (s.advance a).now + b = s.now + (a + b) := by
    rw [advance_eq, settle_now]
    exact Nat.add_assoc _ _ _
  rw [advance_eq b, hnow, advance_eq, advance_eq]
  cases hstop : s.channel.stopped with
  | true =>
      have hstop' : s.endTimers.channel.stopped = true := hstop
      rw [settle_setNow_of_stopped hstop (s.now + a), setNow_setNow,
        settle_setNow_of_stopped hstop', endTimers_endTimers, settle_setNow_of_stopped hstop]
      exact .refl Shuffled.refl _
  | false =>
      have hopen : (s.setNow (s.now + a)).settle.channel.stopped = false := by
        rw [settle_channel]
        exact hstop
      have hle : (s.setNow (s.now + a)).now ≤ s.now + (a + b) :=
        Nat.add_le_add_left (Nat.le_add_right a b) s.now
      rw [settle_setNow hopen, settle_setNow hstop (s.now + a),
        settle_setNow hstop (s.now + (a + b))]
      -- all timers run out at the later time
      have hall := (hs.at (s.now + (a + b))).fireAll_perm ((hs.at (s.now + a)).due_append_perm hle)
      rwa [fireAll_append, ← setNow_setNow (s := s) (s.now + a) (s.now + (a + b)),
        fireAll_setNow (s := s.setNow (s.now + a))] at hall

end TimedStore

namespace Expiry

open TimedStore Race Recorded

variable {σ : Type} [Store σ] [ErasingStore σ] {s : TimedStore (Recorded σ)}

/-- Timers make the same calls in any order. -/
theorem calls_ran_perm (hs : s.Coherent) {tokens order : List Nat} (h : order.Perm tokens) :
    (calls (ran order s)).Perm (calls (ran tokens s)) := by
  have hcalls := (hs.fireAll_perm h).store.calls
  rw [calls_fireAll hs, calls_fireAll hs] at hcalls
  exact (List.perm_append_left_iff _).mp hcalls

omit [ErasingStore σ] in
theorem calls_history_advance (hs : s.Settled) (ms : Nat) :
    (s.advance ms).store.calls = s.store.calls ++ calls (history [.advance ms] s) := by
  rw [history, history, List.append_nil]
  exact calls_step hs (.advance ms)

/-- In every state that a scheduler reaches, whatever faults have been injected:

* timers that run out once time has passed leave the same store, the same armed map and the same
  timers in any order, and make the same calls but for their order;
* when time passes, it is those due that run out, unless everyone has to stop;
* time may pass in one piece or in two. -/
theorem firing_order_makes_no_difference (store : Recorded AnyStore) (now : Nat)
    (channel : Channel) (sts : List Step) :
    let s := (runSteps sts { store, now, channel }).2
    (∀ ms tokens order, order.Perm tokens →
      let later := begun (.advance ms) s
      Alike Shuffled (later.fireAll order) (later.fireAll tokens) ∧
        (calls (ran order later)).Perm (calls (ran tokens later))) ∧
    (∀ ms, s.channel.stopped = false →
      let later := begun (.advance ms) s
      (step (.advance ms) s).2 = later.fireAll later.due ∧
        entries (.advance ms) s = ran later.due later) ∧
    ∀ a b,
      Alike Shuffled (runSteps [.advance a, .advance b] s).2
          (runSteps [.advance (a + b)] s).2 ∧
        (calls (history [.advance a, .advance b] s)).Perm
          (calls (history [.advance (a + b)] s)) := by
  intro s
  have hs : s.Settled := settled_runSteps (.empty store now channel) sts
  refine ⟨?_, ?_, ?_⟩
  · intro ms tokens order h later
    have hlater : later.Coherent := coherent_begun hs.coherent (.advance ms)
    exact ⟨hlater.fireAll_perm h, calls_ran_perm hlater h⟩
  · intro ms hopen later
    have hlater : later.channel.stopped = false := hopen
    refine ⟨?_, by simp [entries, hopen, later, begun]⟩
    rw [step_snd_eq hs, settle_of_not_stopped hlater]
  · intro a b
    have halike := hs.coherent.advance_advance a b
    refine ⟨halike, ?_⟩
    have hfirst : (s.advance a).Settled := settled_step hs (.advance a)
    have hcalls := halike.store.calls
    rw [calls_history_advance hfirst, calls_history_advance hs, calls_history_advance hs,
      List.append_assoc, List.perm_append_left_iff] at hcalls
    have happend : history [.advance a, .advance b] s =
        history [.advance a] s ++ history [.advance b] (s.advance a) :=
      history_append [.advance a] [.advance b] s
    rw [happend]
    simpa [calls] using hcalls

/-- Two timers are due at once, and `j` is gone before its timer runs out. -/
theorem two_timers_in_either_order :
    let start : TimedStore (Recorded AnyStore) := { store := { store := .memory {} } }
    let sts : List Step :=
      [.write "j" (some 10) (.value "1"), .write "k" (some 10) (.value "2"), .direct (.delete "j")]
    let later := begun (.advance 10) (runSteps sts start).2
    later.due = [0, 1] ∧ Alike Shuffled (later.fireAll [1, 0]) (later.fireAll [0, 1]) ∧
      calls (ran [1, 0] later) ≠ calls (ran [0, 1] later) := by
  intro start sts later
  have hperm := (firing_order_makes_no_difference { store := .memory {} } 0 {} sts).1 10 [0, 1]
    [1, 0] (.swap 0 1 [])
  refine ⟨by decide +kernel, hperm.1, by decide +kernel⟩

end Expiry

end KvServer
