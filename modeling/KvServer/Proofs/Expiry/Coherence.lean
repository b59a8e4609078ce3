import KvServer.Expiry.TimedStore

/-!
# Timers and the armed map

A timed store is coherent when its armed map and its list of timers agree: a token that is armed
for a key belongs to a timer of that key, and a timer that is pending is the one armed for its key.
Writes, timers that run out, cancellations and signals all keep this.  In a coherent store at most
one timer of a key is pending, and `deadline?` is the time at which it will run out.
-/

namespace KvServer

namespace Timer

@[simp] theorem finish_key (status : TimerStatus) (t : Timer) : (t.finish status).key = t.key := by
  cases h : t.status <;> simp [finish, h]

theorem finish_not_pending {status : TimerStatus} (hstatus : status ≠ .pending) (t : Timer) :
    (t.finish status).status ≠ .pending := by
  cases h : t.status <;> simp [finish, h, hstatus]

def until? (t : Timer) : Option Nat := if t.status = .pending then some t.deadline else none

theorem until?_eq_some {t : Timer} {time : Nat} :
    t.until? = some time ↔ t.status = .pending ∧ t.deadline = time := by
  by_cases h : t.status = .pending <;> simp [until?, h]

theorem isDue_iff {now : Nat} {t : Timer} :
    t.isDue now = true ↔ ∃ time ≤ now, t.until? = some time := by
  simp only [isDue, Bool.and_eq_true, decide_eq_true_eq, until?_eq_some]
  constructor
  · rintro ⟨hpending, htime⟩
    exact ⟨t.deadline, htime, hpending, rfl⟩
  · rintro ⟨time, htime, hpending, rfl⟩
    exact ⟨hpending, htime⟩

end Timer

namespace TimedStore

variable {σ : Type} {s : TimedStore σ} {key other : String} {token : Nat} {status : TimerStatus}

/-- The armed map and the list of timers agree. -/
structure Coherent (s : TimedStore σ) : Prop where
  key_of_armed : ∀ {key : String} {token : Nat}, s.armed[key]? = some token →
    ∃ t : Timer, s.timers[token]? = some t ∧ t.key = key
  armed_of_pending : ∀ {token : Nat} {t : Timer}, s.timers[token]? = some t →
    t.status = .pending → s.armed[t.key]? = some token

/-- The time at which a key is to be deleted. -/
def deadline? (key : String) (s : TimedStore σ) : Option Nat :=
  (s.armed[key]?.bind (s.timers[·]?)).bind Timer.until?

theorem deadline?_of_armed (h : s.armed[key]? = some token) :
    s.deadline? key = s.timers[token]?.bind Timer.until? := by
  simp [deadline?, h]

theorem deadline?_of_not_armed (h : s.armed[key]? = none) : s.deadline? key = none := by
  simp [deadline?, h]

theorem deadline?_congr {τ : Type} {s' : TimedStore τ} (harmed : s'.armed[key]? = s.armed[key]?)
    (htimers : ∀ token, s.armed[key]? = some token → s'.timers[token]? = s.timers[token]?) :
    s'.deadline? key = s.deadline? key := by
  cases h : s.armed[key]? with
  | none => rw [deadline?_of_not_armed h, deadline?_of_not_armed (harmed.trans h)]
  | some token =>
      rw [deadline?_of_armed h, deadline?_of_armed (harmed.trans h), htimers token h]

theorem Coherent.empty (store : σ) (now : Nat) (channel : Channel) :
    Coherent { store, now, channel } := by
  constructor <;> simp

/-- A token is armed for one key at most. -/
theorem Coherent.key_unique (h : s.Coherent) (hkey : s.armed[key]? = some token)
    (hother : s.armed[other]? = some token) : key = other := by
  obtain ⟨t, ht, rfl⟩ := h.key_of_armed hkey
  obtain ⟨u, hu, rfl⟩ := h.key_of_armed hother
  rw [ht] at hu
  cases hu
  rfl

/-- A deadline is that of the only pending timer of its key. -/
theorem Coherent.deadline?_eq_some_iff (h : s.Coherent) {time : Nat} :
    s.deadline? key = some time ↔
      ∃ (token : Nat) (t : Timer),
        s.timers[token]? = some t ∧ t.key = key ∧ t.until? = some time := by
  constructor
  · intro hd
    cases ha : s.armed[key]? with
    | none => simp [deadline?_of_not_armed ha] at hd
    | some token =>
        obtain ⟨t, ht, hkey⟩ := h.key_of_armed ha
        rw [deadline?_of_armed ha, ht] at hd
        exact ⟨token, t, ht, hkey, hd⟩
  · rintro ⟨token, t, ht, rfl, htime⟩
    rw [deadline?_of_armed (h.armed_of_pending ht (Timer.until?_eq_some.mp htime).1), ht]
    exact htime

/-! ## Changes beside the timers -/

theorem Coherent.setStore {τ : Type} (h : s.Coherent) (store : τ) :
    ({ s with store } : TimedStore τ).Coherent :=
  ⟨h.key_of_armed, h.armed_of_pending⟩

theorem Coherent.setNow (h : s.Coherent) (now : Nat) : Coherent { s with now } :=
  ⟨h.key_of_armed, h.armed_of_pending⟩

theorem Coherent.setChannel (h : s.Coherent) (channel : Channel) : Coherent { s with channel } :=
  ⟨h.key_of_armed, h.armed_of_pending⟩

/-! ## Cancellations and new timers -/

@[simp] theorem finish_armed : (s.finish status token).armed = s.armed := rfl

@[simp] theorem finish_store : (s.finish status token).store = s.store := rfl

@[simp] theorem finish_now : (s.finish status token).now = s.now := rfl

@[simp] theorem finish_channel : (s.finish status token).channel = s.channel := rfl

@[simp] theorem length_finish_timers :
    (s.finish status token).timers.length = s.timers.length := by
  simp [finish]

theorem getElem?_finish_self :
    (s.finish status token).timers[token]? = s.timers[token]?.map (·.finish status) := by
  simp [finish]

theorem getElem?_finish_ne {i : Nat} (h : token ≠ i) :
    (s.finish status token).timers[i]? = s.timers[i]? := by
  simp [finish, h]

theorem map_key_finish (i : Nat) :
    ((s.finish status token).timers[i]?).map Timer.key = s.timers[i]?.map Timer.key := by
  by_cases h : token = i
  · subst h
    rw [getElem?_finish_self, Option.map_map]
    congr 1
    funext t
    simp
  · rw [getElem?_finish_ne h]

theorem key_of_finish {i : Nat} {t : Timer} (h : s.timers[i]? = some t) :
    ∃ t', (s.finish status token).timers[i]? = some t' ∧ t'.key = t.key := by
  have hkey : ((s.finish status token).timers[i]?).map Timer.key = some t.key := by
    rw [map_key_finish, h]
    rfl
  simpa using hkey

theorem Coherent.finish (h : s.Coherent) (hstatus : status ≠ .pending) :
    (s.finish status token).Coherent where
  key_of_armed := by
    intro key armed harmed
    obtain ⟨t, ht, rfl⟩ := h.key_of_armed harmed
    exact key_of_finish ht
  armed_of_pending := by
    intro i t ht hpending
    by_cases hi : token = i
    · subst hi
      rw [getElem?_finish_self] at ht
      obtain ⟨u, -, rfl⟩ := Option.map_eq_some_iff.mp ht
      exact absurd hpending (Timer.finish_not_pending hstatus u)
    · rw [getElem?_finish_ne hi] at ht
      exact h.armed_of_pending ht hpending

theorem disarm_of_armed (h : s.armed[key]? = some token) :
    s.disarm key = { s.finish .cancelled token with armed := s.armed.erase key } := by
  simp [disarm, h]

theorem disarm_of_not_armed (h : s.armed[key]? = none) : s.disarm key = s := by
  simp [disarm, h]

theorem getElem?_disarm_armed (other : String) :
    (s.disarm key).armed[other]? = if key = other then none else s.armed[other]? := by
  cases h : s.armed[key]? with
  | none =>
      rw [disarm_of_not_armed h]
      by_cases hk : key = other
      · simp [← hk, h]
      · simp [hk]
  | some token => simp [disarm_of_armed h, Std.ExtTreeMap.getElem?_erase]

@[simp] theorem disarm_armed_self : (s.disarm key).armed[key]? = none := by
  simp [getElem?_disarm_armed]

@[simp] theorem disarm_store : (s.disarm key).store = s.store := by
  unfold disarm
  split <;> rfl

@[simp] theorem disarm_now : (s.disarm key).now = s.now := by
  unfold disarm
  split <;> rfl

@[simp] theorem disarm_channel : (s.disarm key).channel = s.channel := by
  unfold disarm
  split <;> rfl

@[simp] theorem length_disarm_timers : (s.disarm key).timers.length = s.timers.length := by
  unfold disarm
  split <;> simp

theorem map_key_disarm (i : Nat) :
    ((s.disarm key).timers[i]?).map Timer.key = s.timers[i]?.map Timer.key := by
  unfold disarm
  split
  · exact map_key_finish i
  · rfl

theorem Coherent.getElem?_disarm_timers (h : s.Coherent) (hkey : key ≠ other)
    (harmed : s.armed[other]? = some token) : (s.disarm key).timers[token]? = s.timers[token]? := by
  cases hk : s.armed[key]? with
  | none => rw [disarm_of_not_armed hk]
  | some i =>
      rw [disarm_of_armed hk]
      refine getElem?_finish_ne ?_
      rintro rfl
      exact hkey (h.key_unique hk harmed)

theorem Coherent.disarm (h : s.Coherent) : (s.disarm key).Coherent := by
  cases hk : s.armed[key]? with
  | none => rwa [disarm_of_not_armed hk]
  | some token =>
      have hf : (s.finish .cancelled token).Coherent := h.finish (by simp)
      rw [disarm_of_armed hk]
      constructor
      · intro other i harmed
        simp only [Std.ExtTreeMap.getElem?_erase] at harmed
        split at harmed
        · cases harmed
        · exact hf.key_of_armed harmed
      · intro i t ht hpending
        have harmed := hf.armed_of_pending ht hpending
        have hne : key ≠ t.key := by
          rintro rfl
          -- the timer armed for the key is the one that was cancelled
          rw [finish_armed, hk] at harmed
          cases harmed
          rw [getElem?_finish_self] at ht
          obtain ⟨u, -, rfl⟩ := Option.map_eq_some_iff.mp ht
          exact Timer.finish_not_pending (by simp) u hpending
        simpa [Std.ExtTreeMap.getElem?_erase, hne] using harmed

@[simp] theorem arm_store (ttl : Nat) : (s.arm key ttl).store = s.store := rfl

@[simp] theorem arm_now (ttl : Nat) : (s.arm key ttl).now = s.now := rfl

@[simp] theorem arm_channel (ttl : Nat) : (s.arm key ttl).channel = s.channel := rfl

theorem getElem?_arm_armed (ttl : Nat) (other : String) :
    (s.arm key ttl).armed[other]? =
      if key = other then some s.timers.length else s.armed[other]? := by
  simp [arm, Std.ExtTreeMap.getElem?_insert]

theorem getElem?_arm_timers (ttl : Nat) {t : Timer} (h : s.timers[token]? = some t) :
    (s.arm key ttl).timers[token]? = some t := by
  have hlt := (List.getElem?_eq_some_iff.mp h).1
  exact (List.getElem?_append_left hlt).trans h

theorem getElem?_arm_new (ttl : Nat) :
    (s.arm key ttl).timers[s.timers.length]? = some { key, deadline := s.now + ttl } := by
  simp [arm]

theorem map_key_arm (ttl i : Nat) :
    ((s.arm key ttl).timers[i]?).map Timer.key =
      if i = s.timers.length then some key else s.timers[i]?.map Timer.key := by
  by_cases hi : i = s.timers.length
  · rw [if_pos hi, hi, getElem?_arm_new]
    rfl
  · rw [if_neg hi]
    cases ht : s.timers[i]? with
    | some t => rw [getElem?_arm_timers ttl ht]
    | none =>
        have hlen : s.timers.length ≤ i := List.getElem?_eq_none_iff.mp ht
        have hnone : (s.arm key ttl).timers[i]? = none := by
          rw [List.getElem?_eq_none_iff]
          simp only [TimedStore.arm, List.length_append, List.length_singleton]
          omega
        rw [hnone]

theorem Coherent.arm (h : s.Coherent) (hkey : s.armed[key]? = none) (ttl : Nat) :
    (s.arm key ttl).Coherent where
  key_of_armed := by
    intro other i harmed
    rw [getElem?_arm_armed] at harmed
    split at harmed
    · rename_i hother
      cases harmed
      exact ⟨_, getElem?_arm_new ttl, hother⟩
    · obtain ⟨t, ht, hother⟩ := h.key_of_armed harmed
      exact ⟨t, getElem?_arm_timers ttl ht, hother⟩
  armed_of_pending := by
    intro i t ht hpending
    simp only [TimedStore.arm, List.getElem?_append] at ht
    split at ht
    · have harmed := h.armed_of_pending ht hpending
      have hne : key ≠ t.key := by
        rintro rfl
        simp [hkey] at harmed
      simp [getElem?_arm_armed, hne, harmed]
    · rename_i hi
      obtain ⟨hlt, rfl⟩ := List.getElem?_eq_some_iff.mp ht
      have hi' : i = s.timers.length := by
        simp only [List.length_singleton] at hlt
        omega
      simp [getElem?_arm_armed, hi']

end TimedStore

end KvServer
