import KvServer.Proofs.Expiry.Coherence

/-!
# Writes, timers that run out, and settling

`rearm` is what a successful write does to the timers.  A timer that runs out deletes its key
exactly if it is the one armed for it (`fire_of_armed`, `fire_of_not_armed`).  A store has settled
when no deadline has passed and, during a shutdown, none is left; `settle` reaches such a state and
then changes nothing more.
-/

namespace KvServer.TimedStore

variable {σ : Type} {s : TimedStore σ} {key other : String} {token : Nat}

/-! ## Writes -/

/-- The timer of a key is cancelled and, given a time to live, a new one takes its place. -/
def rearm (key : String) (ttl : Option Nat) (s : TimedStore σ) : TimedStore σ :=
  match ttl with
  | none => s.disarm key
  | some ttl => (s.disarm key).arm key ttl

@[simp] theorem rearm_store (ttl : Option Nat) : (s.rearm key ttl).store = s.store := by
  cases ttl <;> simp [rearm]

@[simp] theorem rearm_now (ttl : Option Nat) : (s.rearm key ttl).now = s.now := by
  cases ttl <;> simp [rearm]

@[simp] theorem rearm_channel (ttl : Option Nat) : (s.rearm key ttl).channel = s.channel := by
  cases ttl <;> simp [rearm]

theorem getElem?_rearm_armed (ttl : Option Nat) (other : String) :
    (s.rearm key ttl).armed[other]? =
      if key = other then ttl.map fun _ ↦ s.timers.length else s.armed[other]? := by
  cases ttl with
  | none => exact getElem?_disarm_armed other
  | some ttl =>
      rw [rearm, getElem?_arm_armed, getElem?_disarm_armed]
      by_cases h : key = other <;> simp [h]

theorem length_rearm_timers (ttl : Option Nat) :
    (s.rearm key ttl).timers.length = s.timers.length + if ttl.isSome then 1 else 0 := by
  cases ttl <;> simp [rearm, arm]

theorem map_key_rearm (ttl : Option Nat) (i : Nat) :
    ((s.rearm key ttl).timers[i]?).map Timer.key =
      if i = s.timers.length ∧ ttl.isSome then some key else s.timers[i]?.map Timer.key := by
  cases ttl with
  | none =>
      rw [if_neg (by simp)]
      exact map_key_disarm i
  | some ttl =>
      rw [rearm, map_key_arm, map_key_disarm, length_disarm_timers]
      simp

theorem Coherent.rearm (h : s.Coherent) (ttl : Option Nat) : (s.rearm key ttl).Coherent := by
  cases ttl with
  | none => exact h.disarm
  | some ttl => exact h.disarm.arm disarm_armed_self ttl

/-- A write decides on the deadline of its own key and on no other. -/
theorem Coherent.deadline?_rearm (h : s.Coherent) (ttl : Option Nat) (other : String) :
    (s.rearm key ttl).deadline? other =
      if key = other then ttl.map (s.now + ·) else s.deadline? other := by
  by_cases hk : key = other
  · subst hk
    rw [if_pos rfl]
    cases ttl with
    | none => exact deadline?_of_not_armed disarm_armed_self
    | some ttl =>
        have harmed : (s.rearm key (some ttl)).armed[key]? = some s.timers.length := by
          simp [getElem?_rearm_armed]
        have hnew : ((s.disarm key).arm key ttl).timers[s.timers.length]? =
            some { key, deadline := (s.disarm key).now + ttl } := by
          rw [← length_disarm_timers (s := s), getElem?_arm_new]
        rw [deadline?_of_armed harmed, TimedStore.rearm, hnew]
        simp [Timer.until?]
  · rw [if_neg hk]
    apply deadline?_congr
    · rw [getElem?_rearm_armed, if_neg hk]
    · intro token harmed
      have hdisarm := h.getElem?_disarm_timers hk harmed
      obtain ⟨t, ht, -⟩ := h.key_of_armed harmed
      cases ttl with
      | none => exact hdisarm
      | some ttl => rw [TimedStore.rearm, getElem?_arm_timers ttl (hdisarm.trans ht), ht]

theorem write_of_error {apply : σ → Except StoreError Unit × σ} {e : StoreError} {store : σ}
    (ttl : Option Nat) (h : apply s.store = (.error e, store)) :
    s.write key ttl apply = (.error e, { s with store }) := by
  simp [write, h]

theorem write_of_ok {apply : σ → Except StoreError Unit × σ} {store : σ} (ttl : Option Nat)
    (h : apply s.store = (.ok (), store)) :
    s.write key ttl apply =
      (.ok (ttl.map fun _ ↦ s.timers.length), ({ s with store } : TimedStore σ).rearm key ttl) := by
  cases ttl <;> simp [write, h, rearm]

theorem Coherent.write (h : s.Coherent) (ttl : Option Nat)
    (apply : σ → Except StoreError Unit × σ) : (s.write key ttl apply).2.Coherent := by
  rcases happly : apply s.store with ⟨e | ⟨⟩, store⟩
  · rw [write_of_error ttl happly]
    exact h.setStore store
  · rw [write_of_ok ttl happly]
    exact (h.setStore store).rearm ttl

theorem write_now {ttl : Option Nat} {apply : σ → Except StoreError Unit × σ} :
    (s.write key ttl apply).2.now = s.now := by
  rcases happly : apply s.store with ⟨e | ⟨⟩, store⟩
  · rw [write_of_error ttl happly]
  · rw [write_of_ok ttl happly, rearm_now]

theorem write_channel {ttl : Option Nat} {apply : σ → Except StoreError Unit × σ} :
    (s.write key ttl apply).2.channel = s.channel := by
  rcases happly : apply s.store with ⟨e | ⟨⟩, store⟩
  · rw [write_of_error ttl happly]
  · rw [write_of_ok ttl happly, rearm_channel]

theorem write_store {ttl : Option Nat} {apply : σ → Except StoreError Unit × σ} :
    (s.write key ttl apply).2.store = (apply s.store).2 := by
  rcases happly : apply s.store with ⟨e | ⟨⟩, store⟩
  · rw [write_of_error ttl happly]
  · rw [write_of_ok ttl happly, rearm_store]

/-! ## Timers that run out -/

variable [Store σ]

@[simp] theorem call_fst (c : Call) : (s.call c).1 = (Store.call c s.store).1 := rfl

@[simp] theorem call_snd (c : Call) :
    (s.call c).2 = { s with store := (Store.call c s.store).2 } := rfl

/-- The timer that is armed for a key deletes the key when it runs out. -/
theorem Coherent.fire_of_armed (h : s.Coherent) (harmed : s.armed[key]? = some token) :
    s.fire token =
      { s.finish .done token with
        armed := s.armed.erase key
        store := (Store.call (.delete key) s.store).2 } := by
  obtain ⟨t, ht, rfl⟩ := h.key_of_armed harmed
  simp [fire, ht, expire, harmed]

/-- A timer that another write has superseded, or that has run out before, changes nothing. -/
theorem fire_of_not_armed (h : ∀ key : String, s.armed[key]? ≠ some token) :
    s.fire token = s.finish .done token := by
  cases ht : s.timers[token]? with
  | none =>
      have hlen : s.timers.length ≤ token := List.getElem?_eq_none_iff.mp ht
      simp [fire, ht, finish, List.modify_eq_self hlen]
  | some t => simp [fire, ht, expire, h t.key]

theorem Coherent.fire_cases (h : s.Coherent) (token : Nat) :
    (∃ key : String, s.armed[key]? = some token ∧
      s.fire token =
        { s.finish .done token with
          armed := s.armed.erase key
          store := (Store.call (.delete key) s.store).2 }) ∨
    ((∀ key : String, s.armed[key]? ≠ some token) ∧ s.fire token = s.finish .done token) := by
  by_cases harmed : ∃ key : String, s.armed[key]? = some token
  · obtain ⟨key, hkey⟩ := harmed
    exact Or.inl ⟨key, hkey, h.fire_of_armed hkey⟩
  · have hnone : ∀ key : String, s.armed[key]? ≠ some token := fun key hkey ↦ harmed ⟨key, hkey⟩
    exact Or.inr ⟨hnone, fire_of_not_armed hnone⟩

@[simp] theorem fire_now : (s.fire token).now = s.now := by
  unfold fire expire
  split
  · split <;> rfl
  · rfl

@[simp] theorem fire_channel : (s.fire token).channel = s.channel := by
  unfold fire expire
  split
  · split <;> rfl
  · rfl

theorem Coherent.fire_timers (h : s.Coherent) :
    (s.fire token).timers = (s.finish .done token).timers := by
  obtain ⟨key, -, hfire⟩ | ⟨-, hfire⟩ := h.fire_cases token <;> rw [hfire]

theorem Coherent.getElem?_fire_armed (h : s.Coherent) (key : String) :
    (s.fire token).armed[key]? =
      if s.armed[key]? = some token then none else s.armed[key]? := by
  obtain ⟨own, hown, hfire⟩ | ⟨hnone, hfire⟩ := h.fire_cases token
  · rw [hfire, Std.ExtTreeMap.getElem?_erase]
    by_cases hk : own = key
    · subst hk
      simp [hown]
    · have hother : s.armed[key]? ≠ some token := fun hkey ↦ hk (h.key_unique hown hkey)
      simp [hk, hother]
  · simp [hfire, hnone key]

theorem Coherent.getElem?_fire_timers (h : s.Coherent) (i : Nat) :
    (s.fire token).timers[i]? =
      if token = i then s.timers[i]?.map (·.finish .done) else s.timers[i]? := by
  rw [h.fire_timers]
  by_cases hi : token = i
  · rw [if_pos hi, ← hi, getElem?_finish_self]
  · rw [if_neg hi, getElem?_finish_ne hi]

/-- A timer that runs out leaves another one armed. -/
theorem Coherent.fire_armed_of_ne (h : s.Coherent) {i : Nat} (hne : token ≠ i)
    (harmed : s.armed[key]? = some i) : (s.fire token).armed[key]? = some i := by
  rw [h.getElem?_fire_armed, harmed, if_neg (by simpa using hne.symm)]

/-- A timer that runs out arms no timer. -/
theorem Coherent.fire_armed_ne (h : s.Coherent) {i : Nat}
    (hnone : ∀ key : String, s.armed[key]? ≠ some i) (key : String) :
    (s.fire token).armed[key]? ≠ some i := by
  rw [h.getElem?_fire_armed]
  split
  · simp
  · exact hnone key

theorem Coherent.fire (h : s.Coherent) : (s.fire token).Coherent := by
  have hf : (s.finish .done token).Coherent := h.finish (by simp)
  obtain ⟨key, hkey, hfire⟩ | ⟨-, hfire⟩ := h.fire_cases token
  · rw [hfire]
    constructor
    · intro other i harmed
      simp only [Std.ExtTreeMap.getElem?_erase] at harmed
      split at harmed
      · cases harmed
      · exact hf.key_of_armed harmed
    · intro i t ht hpending
      have harmed := hf.armed_of_pending ht hpending
      have hne : key ≠ t.key := by
        rintro rfl
        rw [finish_armed, hkey] at harmed
        cases harmed
        rw [getElem?_finish_self] at ht
        obtain ⟨u, -, rfl⟩ := Option.map_eq_some_iff.mp ht
        exact Timer.finish_not_pending (by simp) u hpending
      simpa [Std.ExtTreeMap.getElem?_erase, hne] using harmed
  · rwa [hfire]

def fireAll (tokens : List Nat) (s : TimedStore σ) : TimedStore σ :=
  tokens.foldl (fun s token ↦ s.fire token) s

@[simp] theorem fireAll_nil : s.fireAll [] = s := rfl

@[simp] theorem fireAll_cons (tokens : List Nat) :
    s.fireAll (token :: tokens) = (s.fire token).fireAll tokens := rfl

/-- What every timer that runs out keeps, all of them keep. -/
theorem fireAll_induction {P : TimedStore σ → Prop} (tokens : List Nat) (hs : P s)
    (hfire : ∀ s token, token ∈ tokens → P s → P (s.fire token)) : P (s.fireAll tokens) := by
  induction tokens generalizing s with
  | nil => exact hs
  | cons token tokens ih =>
      refine ih (hfire s token (by simp) hs) ?_
      intro s i hi
      exact hfire s i (by simp [hi])

theorem Coherent.getElem?_fireAll_armed (h : s.Coherent) (tokens : List Nat) (key : String) :
    (s.fireAll tokens).armed[key]? =
      if ∃ token ∈ tokens, s.armed[key]? = some token then none else s.armed[key]? := by
  induction tokens generalizing s with
  | nil => simp
  | cons token tokens ih =>
      rw [fireAll_cons, ih h.fire, h.getElem?_fire_armed]
      by_cases hkey : s.armed[key]? = some token
      · simp [hkey]
      · simp [hkey]

theorem Coherent.getElem?_fireAll_timers (h : s.Coherent) {tokens : List Nat}
    (htoken : token ∉ tokens) : (s.fireAll tokens).timers[token]? = s.timers[token]? := by
  induction tokens generalizing s with
  | nil => rfl
  | cons i tokens ih =>
      simp only [List.mem_cons, not_or] at htoken
      rw [fireAll_cons, ih h.fire htoken.2, h.fire_timers,
        getElem?_finish_ne (Ne.symm htoken.1)]

omit [Store σ] in
theorem mem_due : token ∈ s.due ↔ ∃ t, s.timers[token]? = some t ∧ t.isDue s.now = true := by
  simp only [due, List.mem_map, List.mem_filter, Prod.exists, exists_eq_right,
    List.mem_zipIdx_iff_getElem?]

omit [Store σ] in
/-- The timer armed for a key is due exactly if the deadline of the key has passed. -/
theorem Coherent.armed_due_iff (h : s.Coherent) :
    (∃ token ∈ s.due, s.armed[key]? = some token) ↔ ∃ time ≤ s.now, s.deadline? key = some time := by
  constructor
  · rintro ⟨token, hdue, harmed⟩
    obtain ⟨t, ht, htime⟩ := mem_due.mp hdue
    obtain ⟨time, hle, huntil⟩ := Timer.isDue_iff.mp htime
    refine ⟨time, hle, ?_⟩
    rw [deadline?_of_armed harmed, ht]
    exact huntil
  · rintro ⟨time, hle, htime⟩
    obtain ⟨token, t, ht, rfl, huntil⟩ := h.deadline?_eq_some_iff.mp htime
    exact ⟨token, mem_due.mpr ⟨t, ht, Timer.isDue_iff.mpr ⟨time, hle, huntil⟩⟩,
      h.armed_of_pending ht (Timer.until?_eq_some.mp huntil).1⟩

theorem Coherent.deadline?_fireAll_due (h : s.Coherent) (key : String) :
    (s.fireAll s.due).deadline? key = (s.deadline? key).filter (s.now < ·) := by
  by_cases hdue : ∃ token ∈ s.due, s.armed[key]? = some token
  · obtain ⟨time, hle, htime⟩ := h.armed_due_iff.mp hdue
    have hnone : (s.fireAll s.due).armed[key]? = none := by
      rw [h.getElem?_fireAll_armed, if_pos hdue]
    rw [deadline?_of_not_armed hnone, htime, Option.filter_some, if_neg (by simpa using hle)]
  · have hkeep : (s.fireAll s.due).deadline? key = s.deadline? key := by
      apply deadline?_congr
      · rw [h.getElem?_fireAll_armed, if_neg hdue]
      · intro token harmed
        exact h.getElem?_fireAll_timers fun htoken ↦ hdue ⟨token, htoken, harmed⟩
    rw [hkeep]
    cases htime : s.deadline? key with
    | none => rfl
    | some time =>
        have hlt : s.now < time := Nat.lt_of_not_le fun hle ↦
          hdue (h.armed_due_iff.mpr ⟨time, hle, htime⟩)
        rw [Option.filter_some, if_pos (by simpa using hlt)]

/-! ## Settling -/

/-- No deadline has passed, and none is left once everyone has to stop. -/
structure Settled (s : TimedStore σ) : Prop where
  coherent : s.Coherent
  not_passed : ∀ {key : String} {time : Nat}, s.deadline? key = some time → s.now < time
  ended : s.channel.stopped = true → ∀ key : String, s.deadline? key = none

omit [Store σ] in
theorem Settled.empty (store : σ) (now : Nat) (channel : Channel) :
    Settled { store, now, channel } where
  coherent := .empty store now channel
  not_passed := by simp [deadline?]
  ended := by simp [deadline?]

omit [Store σ] in
theorem Settled.setStore {τ : Type} (h : s.Settled) (store : τ) :
    ({ s with store } : TimedStore τ).Settled where
  coherent := h.coherent.setStore store
  not_passed := h.not_passed
  ended := h.ended

omit [Store σ] in
theorem Settled.lt_of_deadline?_rearm (h : s.Settled) {ttl : Option Nat}
    (hpos : ∀ ms ∈ ttl, 0 < ms) {time : Nat}
    (htime : (s.rearm key ttl).deadline? other = some time) : s.now < time := by
  rw [h.coherent.deadline?_rearm] at htime
  split at htime
  · obtain ⟨ms, hms, rfl⟩ := Option.map_eq_some_iff.mp htime
    exact Nat.lt_add_of_pos_right (hpos ms hms)
  · exact h.not_passed htime

omit [Store σ] in
/-- Without a shutdown, a write with a positive time to live leaves nothing to do. -/
theorem Settled.write (h : s.Settled) (hstop : s.channel.stopped = false) {ttl : Option Nat}
    (hpos : ∀ ms ∈ ttl, 0 < ms) (apply : σ → Except StoreError Unit × σ) :
    (s.write key ttl apply).2.Settled where
  coherent := h.coherent.write ttl apply
  not_passed := by
    intro other time htime
    rw [write_now]
    rcases happly : apply s.store with ⟨e | ⟨⟩, store⟩
    · rw [write_of_error ttl happly] at htime
      exact h.not_passed htime
    · rw [write_of_ok ttl happly] at htime
      exact (h.setStore store).lt_of_deadline?_rearm hpos htime
  ended := by
    intro hstopped
    rw [write_channel, hstop] at hstopped
    cases hstopped

omit [Store σ] in
theorem Coherent.endTimers (h : s.Coherent) : s.endTimers.Coherent where
  key_of_armed := by
    intro key token harmed
    obtain ⟨t, ht, rfl⟩ := h.key_of_armed harmed
    exact ⟨t.finish .done, by simp [TimedStore.endTimers, ht], by simp⟩
  armed_of_pending := by
    intro token t ht hpending
    simp only [TimedStore.endTimers, List.getElem?_map, Option.map_eq_some_iff] at ht
    obtain ⟨u, -, rfl⟩ := ht
    exact absurd hpending (Timer.finish_not_pending (by simp) u)

omit [Store σ] in
theorem Coherent.deadline?_endTimers (h : s.Coherent) : s.endTimers.deadline? key = none := by
  rw [Option.eq_none_iff_forall_ne_some]
  intro time htime
  obtain ⟨token, t, ht, -, huntil⟩ := h.endTimers.deadline?_eq_some_iff.mp htime
  simp only [TimedStore.endTimers, List.getElem?_map, Option.map_eq_some_iff] at ht
  obtain ⟨u, -, rfl⟩ := ht
  exact Timer.finish_not_pending (by simp) u (Timer.until?_eq_some.mp huntil).1

theorem settle_of_stopped (h : s.channel.stopped = true) : s.settle = s.endTimers := by
  simp [settle, h]

theorem settle_of_not_stopped (h : s.channel.stopped = false) : s.settle = s.fireAll s.due := by
  simp [settle, h, fireAll]

/-- What the end of all timers keeps, and every timer that runs out, settling keeps. -/
theorem settle_induction {P : TimedStore σ → Prop} (hs : P s) (hend : P s.endTimers)
    (hfire : ∀ s token, P s → P (s.fire token)) : P s.settle := by
  cases hstop : s.channel.stopped with
  | true => rwa [settle_of_stopped hstop]
  | false =>
      rw [settle_of_not_stopped hstop]
      exact fireAll_induction _ hs fun s token _ ↦ hfire s token

theorem Coherent.settle_induction {P : TimedStore σ → Prop} (h : s.Coherent) (hs : P s)
    (hend : P s.endTimers) (hfire : ∀ s token, s.Coherent → P s → P (s.fire token)) :
    P s.settle := by
  have hboth : s.settle.Coherent ∧ P s.settle :=
    TimedStore.settle_induction (P := fun s ↦ s.Coherent ∧ P s) ⟨h, hs⟩ ⟨h.endTimers, hend⟩
      fun s token hs ↦ ⟨hs.1.fire, hfire s token hs.1 hs.2⟩
  exact hboth.2

@[simp] theorem settle_now : s.settle.now = s.now :=
  settle_induction (P := fun s' ↦ s'.now = s.now) rfl rfl fun _ _ h ↦ fire_now.trans h

@[simp] theorem settle_channel : s.settle.channel = s.channel :=
  settle_induction (P := fun s' ↦ s'.channel = s.channel) rfl rfl fun _ _ h ↦ fire_channel.trans h

theorem Coherent.deadline?_settle (h : s.Coherent) (key : String) :
    s.settle.deadline? key =
      if s.channel.stopped then none else (s.deadline? key).filter (s.now < ·) := by
  cases hs : s.channel.stopped with
  | true => simp [settle_of_stopped hs, h.deadline?_endTimers]
  | false => simp [settle_of_not_stopped hs, h.deadline?_fireAll_due]

theorem Coherent.deadline?_settle_of_lt (h : s.Coherent)
    (hlt : ∀ key time, s.deadline? key = some time → s.now < time) (key : String) :
    s.settle.deadline? key = if s.channel.stopped then none else s.deadline? key := by
  rw [h.deadline?_settle]
  cases htime : s.deadline? key with
  | none => rfl
  | some time => simp [Option.filter_some, hlt key time htime]

theorem Coherent.settled_settle (h : s.Coherent) : s.settle.Settled where
  coherent := h.settle_induction h h.endTimers fun _ _ hs _ ↦ hs.fire
  not_passed := by
    intro key time htime
    rw [h.deadline?_settle] at htime
    split at htime
    · cases htime
    · simpa using (Option.filter_eq_some_iff.mp htime).2
  ended := by
    intro hstop key
    rw [settle_channel] at hstop
    simp [h.deadline?_settle, hstop]

omit [Store σ] in
theorem Coherent.due_eq_nil (h : s.Coherent)
    (hlt : ∀ key time, s.deadline? key = some time → s.now < time) : s.due = [] := by
  rw [List.eq_nil_iff_forall_not_mem]
  intro token hdue
  obtain ⟨t, ht, htime⟩ := mem_due.mp hdue
  obtain ⟨time, hle, huntil⟩ := Timer.isDue_iff.mp htime
  have htime := hlt t.key time (h.deadline?_eq_some_iff.mpr ⟨token, t, ht, rfl, huntil⟩)
  omega

/-- Settling makes no call while no deadline has passed. -/
theorem Coherent.settle_store (h : s.Coherent)
    (hlt : ∀ key time, s.deadline? key = some time → s.now < time) :
    s.settle.store = s.store := by
  cases hs : s.channel.stopped with
  | true => rw [settle_of_stopped hs]; rfl
  | false => rw [settle_of_not_stopped hs, h.due_eq_nil hlt]; rfl

omit [Store σ] in
theorem Settled.endTimers_eq (h : s.Settled) (hstop : s.channel.stopped = true) :
    s.endTimers = s := by
  have htimers : s.timers.map (·.finish .done) = s.timers := by
    refine (List.map_congr_left ?_).trans (List.map_id _)
    intro t ht
    obtain ⟨token, htoken⟩ := List.mem_iff_getElem?.mp ht
    have hnone := h.ended hstop t.key
    cases hstatus : t.status with
    | pending =>
        have := h.coherent.deadline?_eq_some_iff.mpr
          ⟨token, t, htoken, rfl, Timer.until?_eq_some.mpr ⟨hstatus, rfl⟩⟩
        simp [hnone] at this
    | done => simp [Timer.finish, hstatus]
    | cancelled => simp [Timer.finish, hstatus]
  rw [endTimers, htimers]

/-- A store that has settled does not change by itself. -/
theorem Settled.settle_eq (h : s.Settled) : s.settle = s := by
  cases hs : s.channel.stopped with
  | true => rw [settle_of_stopped hs, h.endTimers_eq hs]
  | false =>
      rw [settle_of_not_stopped hs, h.coherent.due_eq_nil fun _ _ ↦ h.not_passed, fireAll_nil]

end KvServer.TimedStore
