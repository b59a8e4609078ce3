import KvServer.Proofs.Expiry.Settling

/-!
# How timers end

A pending timer runs out, is ended by a shutdown or is cancelled, and after that it stays as it is.
`Onward cancel s s'` says this of all timers of a store at once, where `cancel` tells which of them
may have been cancelled: the one armed for a key, by a write to the key that succeeds, and none
when timers run out or the store settles.
-/

namespace KvServer

namespace Timer

variable {cancel : Prop} {t u v : Timer}

/-- A timer stays as it is, or it was pending and has ended. -/
inductive Becomes (cancel : Prop) (t : Timer) : Timer → Prop
  | same : Becomes cancel t t
  | done : t.status = .pending → Becomes cancel t { t with status := .done }
  | cancelled : t.status = .pending → cancel → Becomes cancel t { t with status := .cancelled }

namespace Becomes

theorem eq_of_not_pending (h : t.Becomes cancel u) (ht : t.status ≠ .pending) : u = t := by
  cases h with
  | same => rfl
  | done hpending | cancelled hpending => exact absurd hpending ht

theorem trans (h : t.Becomes cancel u) (h' : u.Becomes False v) : t.Becomes cancel v := by
  cases h with
  | same =>
      cases h' with
      | same => exact .same
      | done hpending => exact .done hpending
      | cancelled _ hcancel => exact hcancel.elim
  | done hpending =>
      rw [h'.eq_of_not_pending (by simp)]
      exact .done hpending
  | cancelled hpending hcancel =>
      rw [h'.eq_of_not_pending (by simp)]
      exact .cancelled hpending hcancel

theorem eq_or_of_cancelled (h : t.Becomes cancel u) (hu : u.status = .cancelled) :
    u = t ∨ t.status = .pending ∧ u = { t with status := .cancelled } ∧ cancel := by
  cases h with
  | same => exact Or.inl rfl
  | done => cases hu
  | cancelled hpending hcancel => exact Or.inr ⟨hpending, rfl, hcancel⟩

theorem status_ne_cancelled (h : t.Becomes False u) (ht : t.status ≠ .cancelled) :
    u.status ≠ .cancelled := by
  intro hu
  obtain rfl | ⟨-, -, hcancel⟩ := h.eq_or_of_cancelled hu
  · exact ht hu
  · exact hcancel

theorem finish_done (t : Timer) : t.Becomes cancel (t.finish .done) := by
  cases h : t.status with
  | pending =>
      rw [finish, h]
      exact .done h
  | done | cancelled =>
      rw [finish, h]
      exact .same

theorem finish_cancelled (t : Timer) (hcancel : cancel) :
    t.Becomes cancel (t.finish .cancelled) := by
  cases h : t.status with
  | pending =>
      rw [finish, h]
      exact .cancelled h hcancel
  | done | cancelled =>
      rw [finish, h]
      exact .same

end Becomes

end Timer

namespace TimedStore

variable {σ : Type} {cancel : Nat → Prop} {s s' s'' : TimedStore σ} {key : String} {token : Nat}

/-- Timers end and new ones are armed; those that may have been cancelled are in `cancel`. -/
structure Onward (cancel : Nat → Prop) (s s' : TimedStore σ) : Prop where
  kept : ∀ {token : Nat} {t : Timer}, s.timers[token]? = some t →
    ∃ t', s'.timers[token]? = some t' ∧ t.Becomes (cancel token) t'
  new : ∀ {token : Nat} {t : Timer}, s'.timers[token]? = some t → s.timers[token]? = none →
    t.status ≠ .cancelled

namespace Onward

/-- A timer that has ended stays as it is. -/
theorem ended (h : Onward cancel s s') {t : Timer} (ht : s.timers[token]? = some t)
    (hstatus : t.status ≠ .pending) : s'.timers[token]? = some t := by
  obtain ⟨t', ht', hbecomes⟩ := h.kept ht
  rwa [hbecomes.eq_of_not_pending hstatus] at ht'

/-- Only a timer that is pending is cancelled, and only for a cause. -/
theorem of_cancelled (h : Onward cancel s s') {t : Timer} (ht : s'.timers[token]? = some t)
    (hstatus : t.status = .cancelled) :
    s.timers[token]? = some t ∨
      ∃ u, s.timers[token]? = some u ∧ u.status = .pending ∧
        t = { u with status := .cancelled } ∧ cancel token := by
  cases hu : s.timers[token]? with
  | none => exact absurd hstatus (h.new ht hu)
  | some u =>
      obtain ⟨t', ht', hbecomes⟩ := h.kept hu
      cases ht'.symm.trans ht
      obtain rfl | ⟨hpending, rfl, hcancel⟩ := hbecomes.eq_or_of_cancelled hstatus
      · exact Or.inl rfl
      · exact Or.inr ⟨u, rfl, hpending, rfl, hcancel⟩

theorem trans (h : Onward cancel s s') (h' : Onward (fun _ ↦ False) s' s'') :
    Onward cancel s s'' where
  kept := by
    intro token t ht
    obtain ⟨u, hu, hbecomes⟩ := h.kept ht
    obtain ⟨v, hv, hbecomes'⟩ := h'.kept hu
    exact ⟨v, hv, hbecomes.trans hbecomes'⟩
  new := by
    intro token t ht hnone
    cases hu : s'.timers[token]? with
    | none => exact h'.new ht hu
    | some u =>
        obtain ⟨v, hv, hbecomes⟩ := h'.kept hu
        cases hv.symm.trans ht
        exact hbecomes.status_ne_cancelled (h.new hu hnone)

theorem of_map (f : Nat → Timer → Timer)
    (hs : ∀ token : Nat, s'.timers[token]? = s.timers[token]?.map (f token))
    (hf : ∀ (token : Nat) (t : Timer), t.Becomes (cancel token) (f token t)) :
    Onward cancel s s' where
  kept := by
    intro token t ht
    exact ⟨f token t, by rw [hs, ht]; rfl, hf token t⟩
  new := by
    intro token t ht hnone
    rw [hs, hnone] at ht
    cases ht

theorem of_timers_eq (hs : s'.timers = s.timers) : Onward cancel s s' :=
  .of_map (fun _ t ↦ t) (by simp [hs]) fun _ _ ↦ .same

theorem finish {status : TimerStatus}
    (h : ∀ t : Timer, t.Becomes (cancel token) (t.finish status)) :
    Onward cancel s (s.finish status token) := by
  refine .of_map (fun i t ↦ if token = i then t.finish status else t) ?_ ?_
  · intro i
    by_cases hi : token = i
    · simp only [if_pos hi]
      rw [← hi, getElem?_finish_self]
    · simp [if_neg hi, getElem?_finish_ne hi]
  · intro i t
    by_cases hi : token = i
    · rw [if_pos hi, ← hi]
      exact h t
    · rw [if_neg hi]
      exact .same

theorem disarm : Onward (fun token ↦ s.armed[key]? = some token) s (s.disarm key) := by
  cases harmed : s.armed[key]? with
  | none =>
      rw [disarm_of_not_armed harmed]
      exact .of_timers_eq rfl
  | some token =>
      rw [disarm_of_armed harmed]
      have hfinish : Onward (fun i ↦ some token = some i) s (s.finish .cancelled token) :=
        .finish fun t ↦ .finish_cancelled t rfl
      exact ⟨hfinish.kept, hfinish.new⟩

theorem arm (ttl : Nat) : Onward cancel s (s.arm key ttl) where
  kept := fun ht ↦ ⟨_, getElem?_arm_timers ttl ht, .same⟩
  new := by
    intro token t ht hnone
    have hlen : s.timers.length ≤ token := List.getElem?_eq_none_iff.mp hnone
    rw [TimedStore.arm, List.getElem?_append_right hlen] at ht
    obtain ⟨-, rfl⟩ := List.getElem?_eq_some_iff.mp ht
    simp

theorem rearm (ttl : Option Nat) :
    Onward (fun token ↦ s.armed[key]? = some token) s (s.rearm key ttl) := by
  cases ttl with
  | none => exact disarm
  | some ttl => exact disarm.trans (arm ttl)

/-- A write cancels the timer that is armed for its key, if it succeeds. -/
theorem write (ttl : Option Nat) (apply : σ → Except StoreError Unit × σ) :
    Onward (fun token ↦ (∃ token?, (s.write key ttl apply).1 = .ok token?) ∧
      s.armed[key]? = some token) s (s.write key ttl apply).2 := by
  rcases happly : apply s.store with ⟨e | ⟨⟩, store⟩
  · rw [write_of_error ttl happly]
    exact .of_timers_eq rfl
  · rw [write_of_ok ttl happly]
    have hrearm : Onward (fun token ↦ s.armed[key]? = some token) s
        (({ s with store } : TimedStore σ).rearm key ttl) :=
      ⟨(rearm (s := { s with store }) ttl).kept, (rearm (s := { s with store }) ttl).new⟩
    simpa using hrearm

theorem endTimers : Onward cancel s s.endTimers :=
  .of_map (fun _ t ↦ t.finish .done) (by simp [TimedStore.endTimers]) fun _ ↦ .finish_done

end Onward

variable [Store σ]

theorem Coherent.onward_fire (hs : s.Coherent) : Onward cancel s (s.fire token) := by
  have hfinish : Onward cancel s (s.finish .done token) := .finish .finish_done
  have htimers : Onward (fun _ ↦ False) (s.finish .done token) (s.fire token) :=
    .of_timers_eq hs.fire_timers
  exact hfinish.trans htimers

/-- No timer is cancelled while the store settles. -/
theorem Coherent.onward_settle (hs : s.Coherent) : Onward (fun _ ↦ False) s s.settle := by
  refine hs.settle_induction (P := Onward (fun _ ↦ False) s) (.of_timers_eq rfl) .endTimers ?_
  exact fun s' token hs' h ↦ h.trans hs'.onward_fire

end TimedStore

end KvServer
